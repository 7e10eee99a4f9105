import Conductor.Proofs.Phase.Execution
import Conductor.Proofs.Phase.Standard
import Conductor.Proofs.Reply.NextTask

/-!
When the execution of tasks comes to a good end. The phase returns when it has asked for the next
task and the reply names none. So it returns if the tool says that all tasks are completed, and also
at any reply in which it finds neither that nor the name of a task.
-/

namespace Conductor

open World

namespace StandardPhase

open Exchange Reply.NextTask

/-! ### What the tool said last -/

/-- The exchanges of the phase end with a question for the next task, and this text is the reply to
it. The text passes for the end of the queue, and no reply before it did. -/
structure Concludes (brief : Brief) (exchanges : List Exchange) (text : String) : Prop where
  last : ∃ response, exchanges.getLast? = some ⟨.tasksNext brief.planRef, response⟩ ∧
    brief.client.printed? response = some text
  passes : PassesForEnd text.toList
  first : ∀ exchange ∈ exchanges.dropLast, exchange.request = .tasksNext brief.planRef →
    ∃ earlier, brief.client.printed? exchange.response = some earlier ∧
      ¬ PassesForEnd earlier.toList

variable {brief : Brief} {maxTasks : Int} {files : Workspace} {exchanges : List Exchange}
  {room : Nat} {outputs : List (String × String)} {calls : List Call}
  {stored : List (String × Value)} {r : Except Fault Value}

theorem printed?_of_isAnswered {client : Client} {exchange : Exchange}
    (hanswered : exchange.IsAnswered client) :
    ∃ text, client.printed? exchange.response = some text := by
  obtain ⟨answer, hanswer⟩ := Option.isSome_iff_exists.mp hanswered
  obtain ⟨text, hprinted, -⟩ := Option.bind_eq_some_iff.mp hanswer
  exact ⟨text, hprinted⟩

theorem taskId?_eq_none_iff {client : Client} {exchange : Exchange} {text : String}
    (hprinted : client.printed? exchange.response = some text) :
    exchange.taskId? client = none ↔ PassesForEnd text.toList := by
  rw [taskId?, hprinted, Option.bind_some, Option.map_eq_none_iff, task?_decode_eq_none_iff]

/-- However many tasks there are, the phase returns at the first reply that passes for the end. -/
theorem drainTasks_concludes
    (h : (drainTasks brief maxTasks room outputs).Converses brief.client files exchanges true) :
    ∃ text, Concludes brief exchanges text := by
  induction room using Nat.strongRecOn generalizing outputs exchanges with
  | _ room ih =>
      obtain ⟨response, ⟨rfl, hlast⟩ | ⟨hanswered, task, hname, response', hexec⟩⟩ :=
        drainTasks_cases h
      · obtain ⟨hanswered, hnone⟩ := hlast rfl
        obtain ⟨text, hprinted⟩ := printed?_of_isAnswered hanswered
        exact ⟨text, ⟨response, rfl, hprinted⟩, (taskId?_eq_none_iff hprinted).mp hnone, by simp⟩
      · obtain ⟨-, hfalse⟩ | ⟨-, left, output, later, rfl, rfl, hlater⟩ := hexec
        · cases hfalse
        obtain ⟨text, ⟨last, hlast, hprinted⟩, hpasses, hfirst⟩ :=
          ih left (Nat.lt_succ_self left) hlater
        have hne : later ≠ [] := by
          rintro rfl
          cases hlast
        refine ⟨text, ⟨last, ?_, hprinted⟩, hpasses, ?_⟩
        · rw [List.getLast?_cons_of_ne_nil (by simp), List.getLast?_cons_of_ne_nil hne, hlast]
        · rw [List.dropLast_cons_of_ne_nil (by simp), List.dropLast_cons_of_ne_nil hne]
          simp only [List.mem_cons, forall_eq_or_imp]
          refine ⟨fun _ => ?_, fun hrequest => (Request.noConfusion hrequest), hfirst⟩
          obtain ⟨earlier, hearlier⟩ := printed?_of_isAnswered hanswered
          refine ⟨earlier, hearlier, ?_⟩
          rw [← taskId?_eq_none_iff hearlier, hname]
          exact Option.some_ne_none task

/-! ### Every sequence of replies -/

/-- The answers to the calls where the programs launched for them print these texts. A program that
cannot be launched or fails has a fault in its place. -/
def heard (client : Client) (texts : Nat → Except Fault String) (i : Nat) (request : Request) :
    Except Fault request.Answer :=
  (texts i).bind (request.decode client.binary)

theorem Drains.ne_nil (h : Drains brief maxTasks room outputs calls stored r) : calls ≠ [] := by
  cases h <;> simp

/-- The rounds end well exactly if the last call asks for the next task and is told of none. -/
theorem Drains.isOk_iff (h : Drains brief maxTasks room outputs calls stored r) :
    r.isOk = true ↔
      ∃ call, calls.getLast? = some call ∧ call.asksNext = true ∧ call.IsAnswered ∧
        call.reported? = none := by
  induction h with
  | unasked fault => exact iff_of_false Bool.false_ne_true (by simp)
  | drained hreply => exact iff_of_true rfl (by simpa using hreply)
  | repeated hreply hdone => exact iff_of_false Bool.false_ne_true (by simp [hreply])
  | full hreply hnew => exact iff_of_false Bool.false_ne_true (by simp [hreply])
  | failed hreply hnew fault => exact iff_of_false Bool.false_ne_true (by simp)
  | executed hreply hnew hrest ih =>
      rw [ih, List.getLast?_cons_of_ne_nil (by simp), List.getLast?_cons_of_ne_nil hrest.ne_nil]

theorem reported?_eq_none_iff {binary : Value} {call : Call} {printed : Except Fault String}
    (hasks : call.asksNext = true)
    (hresult : call.result = printed.bind (call.request.decode binary)) :
    (call.IsAnswered ∧ call.reported? = none) ↔
      ∃ text, printed = .ok text ∧ PassesForEnd text.toList := by
  obtain ⟨request, result⟩ := call
  cases request with
  | tasksNext planRef =>
      cases printed with
      | error fault =>
          obtain rfl : result = .error fault := hresult
          exact iff_of_false (fun htold => Bool.false_ne_true htold.1) (by simp)
      | ok text =>
          obtain rfl : result = .ok (Reply.NextTask.decode text) := hresult
          have hreply := task?_decode_eq_none_iff text
          constructor
          · rintro ⟨-, hnone⟩
            exact ⟨text, rfl, hreply.mp hnone⟩
          · rintro ⟨_, ⟨⟩, hpasses⟩
            exact ⟨rfl, hreply.mpr hpasses⟩
  | _ => cases hasks

/-- If the phase returns, whatever else happens in its world, the tool's last reply passes for the
end of the queue and no earlier one did. Whatever the tool prints in reply to the calls, the phase
returns exactly if that is so. The reply need not say that all tasks are completed: a text without
the name of a task will do. -/
theorem agentExec_concludes (brief : Brief) (maxTasks : Int) :
    (∀ phaseId w w' value,
      (((agentExec maxTasks).action.activity brief).carryOut brief phaseId w).Ends w' (.ok value) →
        ∃ exchanges text, Made brief w exchanges w' ∧ Concludes brief exchanges text) ∧
    ∀ (texts : Nat → Except Fault String) (files : Workspace),
      (∃ calls stored r, ((agentExec maxTasks).action.activity brief).Plays files calls stored r ∧
        Call.Follow (heard brief.client texts) calls) ∧
      ∀ calls stored r, ((agentExec maxTasks).action.activity brief).Plays files calls stored r →
        Call.Follow (heard brief.client texts) calls →
          (r.isOk = true ↔ ∃ n call text, calls.length = n + 1 ∧ calls[n]? = some call ∧
            call.asksNext = true ∧ texts n = .ok text ∧ PassesForEnd text.toList) := by
  refine ⟨?_, fun texts files => ⟨Activity.exists_plays files _ _, ?_⟩⟩
  · intro phaseId w w' value hends
    obtain ⟨exchanges, hconverses, hmade⟩ := Activity.carryOut_exchanges hends
    obtain ⟨text, hconcludes⟩ := drainTasks_concludes hconverses
    exact ⟨exchanges, text, hmade, hconcludes⟩
  · intro calls stored r hplays hfollow
    have hdrains : Drains brief maxTasks maxTasks.toNat [] calls stored r := drains_of_plays hplays
    obtain ⟨n, hn⟩ := Nat.exists_eq_succ_of_ne_zero
      (Nat.ne_of_gt (List.length_pos_iff.mpr hdrains.ne_nil))
    rw [hdrains.isOk_iff, List.getLast?_eq_getElem?, hn, Nat.succ_sub_one]
    constructor
    · rintro ⟨call, hcall, hasks, htold⟩
      obtain ⟨text, htext, hpasses⟩ :=
        (reported?_eq_none_iff hasks (hfollow n call hcall)).mp htold
      exact ⟨n, call, text, rfl, hcall, hasks, htext, hpasses⟩
    · rintro ⟨m, call, text, hm, hcall, hasks, htext, hpasses⟩
      obtain rfl : n = m := Nat.succ.inj hm
      exact ⟨call, hcall, hasks,
        (reported?_eq_none_iff hasks (hfollow n call hcall)).mpr ⟨text, htext, hpasses⟩⟩

/-- A world in which the tool has nothing to say about tasks. -/
def idleTalk : World where
  responses := [.started { stdout := some [⟨0, "Some free text".toUTF8.toList⟩] }]

/-- The phase returns there, although it was not told that all tasks are completed. -/
theorem agentExec_concludes_of_idleTalk :
    (((agentExec 1).action.activity writer).carryOut writer "work" idleTalk).finish.2 =
        some (.ok (textList [])) ∧
      (∃ w' exchanges text, Made writer idleTalk exchanges w' ∧ Concludes writer exchanges text) ∧
      PassesForEnd "Some free text".toList ∧ ¬ SaysCompleted "Some free text".toList := by
  obtain ⟨hreturns, hreplies⟩ := agentExec_concludes writer 1
  have hfinish : (((agentExec 1).action.activity writer).carryOut writer "work"
      idleTalk).finish.2 = some (.ok (textList [])) := by
    decide +kernel
  have hunclear : Reply.NextTask.decode "Some free text" = .unclear "Some free text" := by
    decide +kernel
  have hplays : ((agentExec 1).action.activity writer).Plays idleTalk.files
      [question writer (.ok (.unclear "Some free text"))] [("exec_outputs", textList [])]
      (.ok (textList [])) := by
    change (drainTasks writer 1 1 []).Plays _ _ _ _
    unfold drainTasks
    exact Or.inr ⟨_, [], rfl, [], rfl, Or.inr ⟨rfl, rfl, rfl⟩⟩
  have hfollow : Call.Follow (heard writer.client fun _ => .ok "Some free text")
      [question writer (.ok (.unclear "Some free text"))] := by
    intro i call hcall
    cases i with
    | zero =>
        cases hcall
        exact congrArg Except.ok hunclear.symm
    | succ i => simp at hcall
  obtain ⟨n, call, text, -, -, -, htext, hpasses⟩ :=
    ((hreplies _ idleTalk.files).2 _ _ _ hplays hfollow).mp rfl
  cases htext
  refine ⟨hfinish, ⟨_, hreturns "work" idleTalk _ _ (Course.ends_of_finish hfinish)⟩, hpasses, ?_⟩
  rw [← isDrained_decode_iff, hunclear]
  exact Bool.false_ne_true

end StandardPhase

end Conductor
