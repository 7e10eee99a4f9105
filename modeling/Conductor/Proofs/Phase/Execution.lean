import Conductor.Phase.Standard
import Conductor.Proofs.Phase.Play

/-!
The phase that has an agent execute the tasks of a plan. Each round asks for the next task and has
it executed. The phase has room for only so many tasks, and what it remembers of the executed ones
keeps it from executing any of them again, so it comes to an end whatever the tool answers.
-/

namespace Conductor

open World

namespace Call

/-- The task that the call executes. -/
def task? : Call → Option String
  | ⟨.exec task _ _, _⟩ => some task
  | _ => none

/-- Whether the call asks for the next task. -/
def asksNext : Call → Bool
  | ⟨.tasksNext _, _⟩ => true
  | _ => false

/-- The task that is reported as the next one. -/
def reported? : Call → Option Reply.Task
  | ⟨.tasksNext _, .ok (reply : Reply.NextTask)⟩ => reply.task?
  | _ => none

/-- A task that was executed, with its output. -/
def executed? : Call → Option (String × String)
  | ⟨.exec task _ _, .ok (output : String)⟩ => some (task, output)
  | _ => none

/-- Among the calls, one reports a task for which `P` holds, given what was executed before. -/
def Reports (P : List (String × String) → Reply.Task → Prop) :
    List (String × String) → List Call → Prop
  | _, [] => False
  | executed, call :: rest =>
    (∃ task, call.reported? = some task ∧ P executed task) ∨
      Reports P (executed ++ call.executed?.toList) rest

end Call

namespace StandardPhase

section Calls

variable (brief : Brief) (task : String)

def question (result : Except Fault Reply.NextTask) : Call := ⟨.tasksNext brief.planRef, result⟩

def execution (result : Except Fault String) : Call :=
  ⟨.exec task brief.planRef brief.agent, result⟩

@[simp]
theorem question_task? (result : Except Fault Reply.NextTask) :
    (question brief result).task? = none := rfl

@[simp]
theorem question_asksNext (result : Except Fault Reply.NextTask) :
    (question brief result).asksNext = true := rfl

@[simp]
theorem question_executed? (result : Except Fault Reply.NextTask) :
    (question brief result).executed? = none := rfl

@[simp]
theorem question_reported?_ok (reply : Reply.NextTask) :
    (question brief (.ok reply)).reported? = reply.task? := rfl

@[simp]
theorem question_reported?_error (fault : Fault) :
    (question brief (.error fault)).reported? = none := rfl

@[simp]
theorem execution_task? (result : Except Fault String) :
    (execution brief task result).task? = some task := rfl

@[simp]
theorem execution_asksNext (result : Except Fault String) :
    (execution brief task result).asksNext = false := rfl

@[simp]
theorem execution_reported? (result : Except Fault String) :
    (execution brief task result).reported? = none := rfl

@[simp]
theorem execution_executed?_ok (output : String) :
    (execution brief task (.ok output)).executed? = some (task, output) := rfl

@[simp]
theorem execution_executed?_error (fault : Fault) :
    (execution brief task (.error fault)).executed? = none := rfl

@[simp]
theorem question_isAnswered (reply : Reply.NextTask) :
    (question brief (.ok reply)).IsAnswered := rfl

@[simp]
theorem question_not_isAnswered (fault : Fault) : ¬ (question brief (.error fault)).IsAnswered :=
  Bool.false_ne_true

@[simp]
theorem execution_isAnswered (output : String) :
    (execution brief task (.ok output)).IsAnswered := rfl

@[simp]
theorem execution_not_isAnswered (fault : Fault) :
    ¬ (execution brief task (.error fault)).IsAnswered := Bool.false_ne_true

end Calls

/-- How the rounds go on when there is room for `room` tasks and the tasks of `outputs` have been
executed. -/
inductive Drains (brief : Brief) (maxTasks : Int) : Nat → List (String × String) →
    List Call → List (String × Value) → Except Fault Value → Prop where
  | unasked {room : Nat} {outputs : List (String × String)} (fault : Fault) :
      Drains brief maxTasks room outputs [question brief (.error fault)] [] (.error fault)
  | drained {room : Nat} {outputs : List (String × String)} {reply : Reply.NextTask}
      (hreply : reply.task? = none) :
      Drains brief maxTasks room outputs [question brief (.ok reply)]
        [("exec_outputs", textList (outputs.map (·.2)))] (.ok (textList (outputs.map (·.2))))
  | repeated {room : Nat} {outputs : List (String × String)} {reply : Reply.NextTask}
      {task : Reply.Task} {output : String} (hreply : reply.task? = some task)
      (hdone : outputs.lookup task.id = some output) :
      Drains brief maxTasks room outputs [question brief (.ok reply)] []
        (.error (.stillPending task.id brief.agent.display output))
  | full {outputs : List (String × String)} {reply : Reply.NextTask} {task : Reply.Task}
      (hreply : reply.task? = some task) (hnew : outputs.lookup task.id = none) :
      Drains brief maxTasks 0 outputs [question brief (.ok reply)] []
        (.error (.queueNotDrained brief.planRef maxTasks))
  | failed {room : Nat} {outputs : List (String × String)} {reply : Reply.NextTask}
      {task : Reply.Task} (hreply : reply.task? = some task) (hnew : outputs.lookup task.id = none)
      (fault : Fault) :
      Drains brief maxTasks (room + 1) outputs
        [question brief (.ok reply), execution brief task.id (.error fault)] [] (.error fault)
  | executed {room : Nat} {outputs : List (String × String)} {reply : Reply.NextTask}
      {task : Reply.Task} {output : String} {rest : List Call} {stored : List (String × Value)}
      {r : Except Fault Value} (hreply : reply.task? = some task)
      (hnew : outputs.lookup task.id = none)
      (hrest : Drains brief maxTasks room (outputs ++ [(task.id, output)]) rest stored r) :
      Drains brief maxTasks (room + 1) outputs
        (question brief (.ok reply) :: execution brief task.id (.ok output) :: rest) stored r

variable {brief : Brief} {maxTasks : Int} {files : Workspace} {room : Nat}
  {outputs : List (String × String)} {calls : List Call} {stored : List (String × Value)}
  {r : Except Fault Value}

theorem concludeTasks_plays (h : (concludeTasks brief outputs).Plays files calls stored r) :
    calls = [] ∧ stored = [("exec_outputs", textList (outputs.map (·.2)))] ∧
      r = .ok (textList (outputs.map (·.2))) := by
  obtain ⟨rest, rfl, hlog⟩ := h
  obtain ⟨hlevel, -⟩ | ⟨rfl, rfl, rfl⟩ := hlog
  · cases hlevel
  · exact ⟨rfl, rfl, rfl⟩

/-- The plays of the phase are rounds. -/
theorem drains_of_plays (h : (drainTasks brief maxTasks room outputs).Plays files calls stored r) :
    Drains brief maxTasks room outputs calls stored r := by
  induction room using Nat.strongRecOn generalizing outputs calls with
  | _ room ih =>
      unfold drainTasks at h
      obtain ⟨fault, rfl, rfl, rfl⟩ | ⟨reply, rest, rfl, hrest⟩ := h
      · exact .unasked fault
      simp only at hrest
      split at hrest
      · next hreply =>
          obtain ⟨rfl, rfl, rfl⟩ := concludeTasks_plays hrest
          exact .drained hreply
      · next task hreply =>
          split at hrest
          · next output hdone =>
              obtain ⟨rfl, rfl, rfl⟩ := hrest
              exact .repeated hreply hdone
          · next hnew =>
              split at hrest
              · obtain ⟨rfl, rfl, rfl⟩ := hrest
                exact .full hreply hnew
              · next left =>
                  obtain ⟨hlevel, -⟩ | hexec := hrest
                  · cases hlevel
                  · obtain ⟨fault, rfl, rfl, rfl⟩ | ⟨output, later, rfl, hlater⟩ := hexec
                    · exact .failed hreply hnew fault
                    · exact .executed hreply hnew (ih left (Nat.lt_succ_self left) hlater)

/-- A task is executed only if it has not been, so no task is executed twice, and every execution
takes up room. -/
theorem Drains.attempts (h : Drains brief maxTasks room outputs calls stored r) :
    (calls.filterMap Call.task?).length ≤ room ∧ (calls.filterMap Call.task?).Nodup ∧
      ∀ task ∈ calls.filterMap Call.task?, outputs.lookup task = none := by
  induction h with
  | unasked fault => simp [List.filterMap_cons]
  | drained hreply => simp [List.filterMap_cons]
  | repeated hreply hdone => simp [List.filterMap_cons]
  | full hreply hnew => simp [List.filterMap_cons]
  | failed hreply hnew fault => simpa [List.filterMap_cons] using hnew
  | @executed room outputs reply task output rest stored r hreply hnew hrest ih =>
      obtain ⟨hroom, hnodup, hfresh⟩ := ih
      have hapart : ∀ other ∈ rest.filterMap Call.task?,
          outputs.lookup other = none ∧ other ≠ task.id := by
        intro other hother
        have hnone := hfresh other hother
        rw [List.lookup_append, Option.or_eq_none_iff] at hnone
        refine ⟨hnone.1, ?_⟩
        rintro rfl
        simp at hnone
      simp only [List.filterMap_cons, question_task?, execution_task?, List.length_cons,
        List.nodup_cons, List.mem_cons]
      refine ⟨by omega, ⟨?_, hnodup⟩, ?_⟩
      · intro hagain
        exact (hapart task.id hagain).2 rfl
      · rintro other (rfl | hother)
        · exact hnew
        · exact (hapart other hother).1

theorem Drains.questions (h : Drains brief maxTasks room outputs calls stored r) :
    (calls.filter Call.asksNext).length ≤ (calls.filterMap Call.task?).length + 1 := by
  induction h with
  | executed hreply hnew hrest ih =>
      simp only [List.filter_cons, List.filterMap_cons, question_asksNext, execution_asksNext,
        question_task?, execution_task?, List.length_cons, if_true, Bool.false_eq_true, if_false]
      omega
  | _ => simp [List.filter_cons]

theorem Drains.failure (h : Drains brief maxTasks room outputs calls stored r) :
    ∀ call ∈ calls, ∀ fault, call.result = .error fault → r = .error fault := by
  induction h with
  | unasked fault =>
      intro call hcall fault' hfault
      obtain rfl := List.mem_singleton.mp hcall
      cases hfault
      rfl
  | failed hreply hnew fault =>
      intro call hcall fault' hfault
      obtain rfl | rfl : call = _ ∨ call = _ := by simpa using hcall
      · cases hfault
      · cases hfault
        rfl
  | executed hreply hnew hrest ih => simpa [question, execution] using ih
  | _ => simp [question]

/-- Nothing is stored by a phase that fails. -/
theorem Drains.unstored (h : Drains brief maxTasks room outputs calls stored r) {fault : Fault}
    (hfault : r = .error fault) : stored = [] := by
  induction h with
  | drained hreply => cases hfault
  | executed hreply hnew hrest ih => exact ih hfault
  | _ => rfl

section Endings

variable {P : List (String × String) → Reply.Task → Prop} {reply : Reply.NextTask}
  {task : Reply.Task} {output : String} {rest : List Call}

theorem reports_single (hreply : reply.task? = some task) :
    Call.Reports P outputs [question brief (.ok reply)] ↔ P outputs task := by
  simp [Call.Reports, hreply]

theorem reports_failed (hreply : reply.task? = some task) (fault : Fault) :
    Call.Reports P outputs
        [question brief (.ok reply), execution brief task.id (.error fault)] ↔ P outputs task := by
  simp [Call.Reports, hreply]

theorem reports_round (hreply : reply.task? = some task) :
    Call.Reports P outputs
        (question brief (.ok reply) :: execution brief task.id (.ok output) :: rest) ↔
      P outputs task ∨ Call.Reports P (outputs ++ [(task.id, output)]) rest := by
  simp [Call.Reports, hreply]

theorem answered_round :
    (∀ call ∈ question brief (.ok reply) :: execution brief task.id (.ok output) :: rest,
        call.IsAnswered) ↔ ∀ call ∈ rest, call.IsAnswered := by
  simp

/-- With every call answered, the phase ends with a complaint exactly if a task is reported that
gives rise to it: one that has been executed, or a new one when no room is left. -/
theorem Drains.complaint_iff {limit : Nat} {complaint : Fault}
    (h : Drains brief maxTasks room outputs calls stored r) (hlimit : outputs.length + room = limit)
    (hdone : ∀ executed task output, executed.lookup task.id = some output →
      (P executed task ↔ Fault.stillPending task.id brief.agent.display output = complaint))
    (hnew : ∀ executed task, executed.lookup task.id = none →
      (P executed task ↔
        executed.length = limit ∧ Fault.queueNotDrained brief.planRef maxTasks = complaint)) :
    ((∀ call ∈ calls, call.IsAnswered) ∧ r = .error complaint) ↔ Call.Reports P outputs calls := by
  induction h with
  | unasked fault => simp [Call.Reports]
  | drained hreply => simp [Call.Reports, hreply]
  | repeated hreply hlookup =>
      rw [reports_single hreply, hdone _ _ _ hlookup]
      simp
  | full hreply hlookup =>
      rw [reports_single hreply, hnew _ _ hlookup]
      simp [← hlimit]
  | @failed room outputs reply task hreply hlookup fault =>
      have hroom : outputs.length ≠ limit := by omega
      rw [reports_failed hreply, hnew _ _ hlookup]
      simp [hroom]
  | @executed room outputs reply task output rest stored r hreply hlookup hrest ih =>
      have hroom : outputs.length ≠ limit := by omega
      have hnext : (outputs ++ [(task.id, output)]).length + room = limit := by
        rw [List.length_append, List.length_singleton]
        omega
      rw [answered_round, reports_round hreply, hnew _ _ hlookup, ih hnext]
      simp [hroom]

theorem lookup_eq_none {executed : List (String × String)} {id : String} :
    executed.lookup id = none ↔ id ∉ executed.map (·.1) := by
  rw [List.lookup_eq_none_iff, List.mem_map]
  constructor
  · rintro hnone ⟨entry, hentry, rfl⟩
    simpa using hnone entry hentry
  · intro hnot entry hentry
    rw [bne_iff_ne]
    rintro rfl
    exact hnot ⟨entry, hentry, rfl⟩

theorem Drains.pending_iff (h : Drains brief maxTasks room outputs calls stored r)
    (id output : String) :
    ((∀ call ∈ calls, call.IsAnswered) ∧
        r = .error (.stillPending id brief.agent.display output)) ↔
      Call.Reports (fun executed task => task.id = id ∧ executed.lookup id = some output)
        outputs calls := by
  refine h.complaint_iff rfl ?_ ?_
  · intro executed task output' hlookup
    rw [Fault.stillPending.injEq]
    constructor
    · rintro ⟨rfl, hagain⟩
      rw [hlookup, Option.some.injEq] at hagain
      exact ⟨rfl, rfl, hagain⟩
    · rintro ⟨rfl, -, rfl⟩
      exact ⟨rfl, hlookup⟩
  · intro executed task hlookup
    refine iff_of_false ?_ (by simp)
    rintro ⟨rfl, hagain⟩
    rw [hlookup] at hagain
    cases hagain

theorem Drains.overrun_iff (h : Drains brief maxTasks room outputs calls stored r) {limit : Nat}
    (hlimit : outputs.length + room = limit) :
    ((∀ call ∈ calls, call.IsAnswered) ∧ r = .error (.queueNotDrained brief.planRef maxTasks)) ↔
      Call.Reports (fun executed task =>
        task.id ∉ executed.map (·.1) ∧ executed.length = limit) outputs calls := by
  refine h.complaint_iff hlimit ?_ ?_
  · intro executed task output hlookup
    refine iff_of_false ?_ (by simp)
    rintro ⟨hnew, -⟩
    rw [lookup_eq_none.mpr hnew] at hlookup
    cases hlookup
  · intro executed task hlookup
    simp only [lookup_eq_none.mp hlookup, not_false_eq_true, true_and, and_true]

/-- With every call answered, the phase ends with a complaint, or with the outputs of all tasks. -/
theorem Drains.outcome (h : Drains brief maxTasks room outputs calls stored r)
    (hanswered : ∀ call ∈ calls, call.IsAnswered) :
    (∃ id output, r = .error (.stillPending id brief.agent.display output)) ∨
    r = .error (.queueNotDrained brief.planRef maxTasks) ∨
    r = .ok (textList ((outputs ++ calls.filterMap Call.executed?).map (·.2))) ∧
      stored = [("exec_outputs",
        textList ((outputs ++ calls.filterMap Call.executed?).map (·.2)))] := by
  induction h with
  | unasked fault => simp at hanswered
  | drained hreply => simp [List.filterMap_cons]
  | repeated hreply hlookup => exact Or.inl ⟨_, _, rfl⟩
  | full hreply hlookup => exact Or.inr (Or.inl rfl)
  | failed hreply hlookup fault => simp at hanswered
  | executed hreply hlookup hrest ih =>
      have hlater := ih (answered_round.mp hanswered)
      simpa [List.filterMap_cons] using hlater

end Endings

theorem drainTasks_isPatient (brief : Brief) (maxTasks : Int) (room : Nat)
    (outputs : List (String × String)) : (drainTasks brief maxTasks room outputs).IsPatient := by
  induction room using Nat.strongRecOn generalizing outputs with
  | _ room ih =>
      unfold drainTasks
      intro reply
      simp only
      split
      · trivial
      · split
        · trivial
        · split
          · trivial
          · next left => exact fun output => ih left (Nat.lt_succ_self left) _

/-- What the phase does with at most `maxTasks` tasks, by its calls: it executes no task twice, asks
at most once more than it executes, and stores the outputs only if it ends well. It complains of its
own accord exactly if a task is reported that has been executed, with the output it had then, or a
new one when no room is left. -/
structure Executes (brief : Brief) (maxTasks : Int) (calls : List Call)
    (stored : List (String × Value)) (r : Except Fault Value) : Prop where
  bounded : (calls.filterMap Call.task?).length ≤ maxTasks.toNat
  asked : (calls.filter Call.asksNext).length ≤ (calls.filterMap Call.task?).length + 1
  distinct : (calls.filterMap Call.task?).Nodup
  pending : ∀ id output, ((∀ call ∈ calls, call.IsAnswered) ∧
      r = .error (.stillPending id brief.agent.display output)) ↔
    Call.Reports (fun executed task => task.id = id ∧ executed.lookup id = some output) [] calls
  overrun : ((∀ call ∈ calls, call.IsAnswered) ∧
      r = .error (.queueNotDrained brief.planRef maxTasks)) ↔
    Call.Reports (fun executed task =>
      task.id ∉ executed.map (·.1) ∧ executed.length = maxTasks.toNat) [] calls
  drained : (∀ call ∈ calls, call.IsAnswered) →
    (¬ ∃ id output, Call.Reports (fun executed task =>
      task.id = id ∧ executed.lookup id = some output) [] calls) →
    (¬ Call.Reports (fun executed task =>
      task.id ∉ executed.map (·.1) ∧ executed.length = maxTasks.toNat) [] calls) →
    r = .ok (textList ((calls.filterMap Call.executed?).map (·.2))) ∧
      stored = [("exec_outputs", textList ((calls.filterMap Call.executed?).map (·.2)))]
  failure : ∀ call ∈ calls, ∀ fault, call.result = .error fault → r = .error fault
  unstored : ∀ fault, r = .error fault → stored = []

theorem Drains.executes (h : Drains brief maxTasks maxTasks.toNat [] calls stored r) :
    Executes brief maxTasks calls stored r where
  bounded := h.attempts.1
  asked := h.questions
  distinct := h.attempts.2.1
  pending := h.pending_iff
  overrun := h.overrun_iff (by simp)
  drained := by
    intro hanswered hnotPending hnotOverrun
    obtain ⟨id, output, hpending⟩ | hoverrun | hdrained := h.outcome hanswered
    · exact absurd ⟨id, output, (h.pending_iff id output).mp ⟨hanswered, hpending⟩⟩ hnotPending
    · exact absurd ((h.overrun_iff (by simp)).mp ⟨hanswered, hoverrun⟩) hnotOverrun
    · exact hdrained
  failure := h.failure
  unstored := fun _ => h.unstored

/-- Every play of the phase is as it should be. There is one for any answers to its calls, however
many of them the tool would have; where no subscriber fails, the phase goes through one of them
however it ends; and it does end if the programs that it starts exit. -/
theorem agentExec_executes (brief : Brief) (maxTasks : Int) :
    (∀ files calls stored r,
      ((agentExec maxTasks).action.activity brief).Plays files calls stored r →
        Executes brief maxTasks calls stored r) ∧
    (∀ files (answers : Nat → (request : Request) → Except Fault request.Answer),
      ∃ calls stored r, ((agentExec maxTasks).action.activity brief).Plays files calls stored r ∧
        Call.Follow answers calls) ∧
    (∀ phaseId w w' r, w.Quiet → Dated w w' →
      (((agentExec maxTasks).action.activity brief).carryOut brief phaseId w).Ends w' r →
        ∃ calls stored,
          ((agentExec maxTasks).action.activity brief).Plays w.files calls stored r ∧
            Activity.Enacts brief w calls stored w') ∧
    ∀ phaseId w, (∀ script, .started script ∈ w.responses → script.exit.isSome = true) →
      (((agentExec maxTasks).action.activity brief).carryOut brief phaseId w).finish.2.isSome
        = true := by
  refine ⟨?_, ?_, ?_, ?_⟩
  · intro files calls stored r hplays
    exact (drains_of_plays hplays).executes
  · intro files answers
    exact Activity.exists_plays files _ answers
  · intro phaseId w w' r hquiet hdated hends
    exact Activity.carryOut_plays hquiet hdated hends
  · intro phaseId w hexits
    exact Activity.carryOut_finishes (drainTasks_isPatient brief maxTasks _ _) hexits

/-- A world in which there is a task to execute, and no other after it. -/
def lastTask : World where
  responses := ["**Task ID**: task-1", "Written.", "All tasks completed"].map fun text =>
    .started { stdout := some [⟨0, text.toUTF8.toList⟩] }

def writer : Brief where
  planRef := "plan.md"
  agent := .text "agent"
  workspace := .ofString "/workspace"
  client := {}

theorem agentExec_executes_of_lastTask :
    ∃ w' calls stored, Executes writer 1 calls stored (.ok (textList ["Written."])) ∧
      Activity.Enacts writer lastTask calls stored w' := by
  obtain ⟨hsound, -, hplayed, -⟩ := agentExec_executes writer 1
  obtain ⟨hfinish, hnow⟩ :
      (((agentExec 1).action.activity writer).carryOut writer "work" lastTask).finish.2 =
          some (.ok (textList ["Written."])) ∧
        (((agentExec 1).action.activity writer).carryOut writer "work" lastTask).finish.1.now =
          0 := by
    decide +kernel
  have hquiet : lastTask.Quiet := by simp [World.Quiet, lastTask]
  obtain ⟨calls, stored, hplays, henacts⟩ :=
    hplayed "work" lastTask _ _ hquiet (dated_of_now rfl hnow) (Course.ends_of_finish hfinish)
  exact ⟨_, calls, stored, hsound _ _ _ _ hplays, henacts⟩

end StandardPhase

end Conductor
