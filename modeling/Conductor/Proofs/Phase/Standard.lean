import Conductor.Phase.Standard
import Conductor.Proofs.Conversation

/-!
What the standard phases ask. Each phase has requests that it makes in order, and it stops at the
first that is not answered; only the execution of tasks makes as many as the replies ask for.
-/

namespace Conductor

open World

/-! ### Requests in order -/

namespace Exchange

/-- The task that the tool has named as the next one. -/
def taskId? (client : Client) (exchange : Exchange) : Option String :=
  (client.printed? exchange.response).bind fun output =>
    (Reply.NextTask.decode output).task?.map (·.id)

/-- Every task that is executed is the one that was named just before. -/
def Linked (client : Client) (exchanges : List Exchange) : Prop :=
  ∀ i task planRef agent response,
    exchanges[i]? = some ⟨.exec task planRef agent, response⟩ →
      ∃ j previous, i = j + 1 ∧ exchanges[j]? = some previous ∧
        previous.request = .tasksNext planRef ∧ previous.taskId? client = some task

/-- The exchanges are those of the first ones of these requests. All but the last were answered, and
if the phase has returned, all were made and answered. -/
structure Covers (client : Client) (requests : List Request) (exchanges : List Exchange)
    (returned : Bool) : Prop where
  order : exchanges.map (·.request) <+: requests
  answered : ∀ exchange ∈ exchanges.dropLast, exchange.IsAnswered client
  complete : returned = true →
    exchanges.map (·.request) = requests ∧ ∀ exchange ∈ exchanges, exchange.IsAnswered client
  linked : Linked client exchanges

variable {client : Client} {requests others : List Request} {first second : List Exchange}
  {returned : Bool}

theorem linked_append (hfirst : Linked client first) (hsecond : Linked client second) :
    Linked client (first ++ second) := by
  intro i task planRef agent response hi
  by_cases hlt : i < first.length
  · rw [List.getElem?_append_left hlt] at hi
    obtain ⟨j, previous, rfl, hprevious, hrest⟩ := hfirst i task planRef agent response hi
    refine ⟨j, previous, rfl, ?_, hrest⟩
    rw [List.getElem?_append_left (by omega)]
    exact hprevious
  · rw [List.getElem?_append_right (by omega)] at hi
    obtain ⟨j, previous, hj, hprevious, hrest⟩ := hsecond _ task planRef agent response hi
    refine ⟨first.length + j, previous, by omega, ?_, hrest⟩
    rw [List.getElem?_append_right (by omega), Nat.add_sub_cancel_left]
    exact hprevious

theorem covers_nil (client : Client) (requests : List Request) : Covers client requests [] false :=
  ⟨by simp, by simp, by simp, by simp [Linked]⟩

theorem covers_none (client : Client) (returned : Bool) : Covers client [] [] returned :=
  ⟨by simp, by simp, by simp, by simp [Linked]⟩

/-- Requests after all those of a phase that has returned. -/
theorem Covers.append (hfirst : Covers client requests first true)
    (hsecond : Covers client others second returned) :
    Covers client (requests ++ others) (first ++ second) returned := by
  obtain ⟨hall, hanswered⟩ := hfirst.complete rfl
  refine ⟨?_, ?_, ?_, linked_append hfirst.linked hsecond.linked⟩
  · rw [List.map_append, hall, List.prefix_append_right_inj]
    exact hsecond.order
  · intro exchange hexchange
    cases hsecond' : second with
    | nil =>
        rw [hsecond', List.append_nil] at hexchange
        exact hfirst.answered exchange hexchange
    | cons next rest =>
        rw [List.dropLast_append_of_ne_nil (by simp [hsecond'])] at hexchange
        rcases List.mem_append.mp hexchange with hmem | hmem
        · exact hanswered exchange hmem
        · exact hsecond.answered exchange hmem
  · intro hreturned
    obtain ⟨hothers, hanswered'⟩ := hsecond.complete hreturned
    refine ⟨by rw [List.map_append, hall, hothers], ?_⟩
    intro exchange hexchange
    exact (List.mem_append.mp hexchange).elim (hanswered exchange) (hanswered' exchange)

/-- Where a phase does not return, what would come after it does not matter. -/
theorem Covers.cut (h : Covers client requests first false) (others : List Request) :
    Covers client (requests ++ others) first false :=
  ⟨h.order.trans (List.prefix_append _ _), h.answered, by simp, h.linked⟩

theorem covers_single (exchange : Exchange)
    (hplain : ∀ task planRef agent, exchange.request ≠ .exec task planRef agent)
    (hanswered : returned = true → exchange.IsAnswered client) :
    Covers client [exchange.request] [exchange] returned := by
  refine ⟨by simp, by simp, ?_, ?_⟩
  · intro hreturned
    exact ⟨rfl, by simpa using hanswered hreturned⟩
  · intro i task planRef agent response hi
    cases i with
    | zero =>
        obtain rfl : exchange = ⟨.exec task planRef agent, response⟩ := by simpa using hi
        exact absurd rfl (hplain task planRef agent)
    | succ i => simp at hi

/-- Two requests that belong together: the question for the next task, and its execution. -/
theorem covers_round {planRef task : String} {agent : Value} {next exec : Exchange}
    (hnext : next.request = .tasksNext planRef) (hexec : exec.request = .exec task planRef agent)
    (hanswered : next.IsAnswered client) (htask : next.taskId? client = some task)
    (hreturned : returned = true → exec.IsAnswered client) :
    Covers client [.tasksNext planRef, .exec task planRef agent] [next, exec] returned := by
  refine ⟨by simp [hnext, hexec], by simpa using hanswered, ?_, ?_⟩
  · intro h
    exact ⟨by simp [hnext, hexec], by simpa using ⟨hanswered, hreturned h⟩⟩
  · intro i task' planRef' agent' response hi
    match i with
    | 0 =>
        obtain rfl : next = ⟨.exec task' planRef' agent', response⟩ := by simpa using hi
        cases hnext
    | 1 =>
        obtain rfl : exec = ⟨.exec task' planRef' agent', response⟩ := by simpa using hi
        cases hexec
        exact ⟨0, next, rfl, rfl, hnext, htask⟩
    | i + 2 => simp at hi

end Exchange

/-! ### Activities -/

namespace Activity

open Exchange

/-- An activity that asks nothing. -/
def IsSilent : Activity → Prop
  | done _ => True
  | fail _ => True
  | log _ _ next => next.IsSilent
  | store _ _ next => next.IsSilent
  | sleep _ next => next.IsSilent
  | ask .. => False
  | read _ next => ∀ content, (next content).IsSilent

variable {client : Client} {files : Workspace} {activity : Activity} {exchanges : List Exchange}
  {returned : Bool} {requests : List Request}

theorem IsSilent.exchanges_eq (hsilent : activity.IsSilent)
    (h : activity.Converses client files exchanges returned) : exchanges = [] := by
  induction activity with
  | done result => exact h.1
  | fail fault => exact h.1
  | log message level next ih => exact h.elim (·.1) (ih hsilent)
  | store key value next ih => exact h.elim (·.1) (ih hsilent)
  | sleep span next ih => exact h.elim (·.1) (ih hsilent)
  | ask request echo next ih => exact hsilent.elim
  | read path next ih => exact ih _ (hsilent _) h

theorem IsSilent.covers (hsilent : activity.IsSilent)
    (h : activity.Converses client files exchanges returned) :
    Covers client [] exchanges returned := by
  rw [hsilent.exchanges_eq h]
  exact covers_none client returned

theorem covers_log {message : String} {level : Level}
    (hcovers : activity.Converses client files exchanges returned →
      Covers client requests exchanges returned)
    (h : (log message level activity).Converses client files exchanges returned) :
    Covers client requests exchanges returned := by
  rcases h with ⟨rfl, rfl⟩ | h
  · exact covers_nil client requests
  · exact hcovers h

theorem covers_ask {request : Request} {echo : Bool} {next : request.Answer → Activity}
    (hplain : ∀ task planRef agent, request ≠ .exec task planRef agent)
    (hsilent : ∀ answer, (next answer).IsSilent)
    (h : (ask request echo next).Converses client files exchanges returned) :
    Covers client [request] exchanges returned := by
  obtain ⟨response, ⟨rfl, rfl⟩ | ⟨answer, rest, hanswer, rfl, hrest⟩⟩ := h
  · exact covers_single ⟨request, response⟩ hplain (by simp)
  · rw [(hsilent answer).exchanges_eq hrest]
    refine covers_single ⟨request, response⟩ hplain ?_
    intro _
    simp [IsAnswered, hanswer]

end Activity

namespace StandardPhase

open Activity Exchange

theorem settle_isSilent {seconds : Binary64} {next : Activity} (hnext : next.IsSilent) :
    (settle seconds next).IsSilent := by
  unfold settle
  split
  · exact hnext
  · exact hnext

theorem keepPlan_isSilent (path : Path) (settleSeconds : Binary64) :
    (keepPlan path settleSeconds).IsSilent := by
  intro content
  cases content with
  | error problem => cases problem <;> trivial
  | ok content => exact settle_isSilent trivial

theorem loadPlanActivity_isSilent (plansDir : Value) (settleSeconds : Binary64) (brief : Brief) :
    (loadPlanActivity plansDir settleSeconds brief).IsSilent := by
  unfold loadPlanActivity
  simp only [IsSilent]
  split
  · trivial
  · exact keepPlan_isSilent _ _

theorem simulatedSteps_isSilent {span : Option Time} {next : Activity} (hnext : next.IsSilent)
    (steps : List String) : (simulatedSteps span next steps).IsSilent := by
  induction steps with
  | nil => exact hnext
  | cons step rest ih => exact ih

theorem simulatedActivity_isSilent (intro title : String) (span : Option Time)
    (steps : List String) : (simulatedActivity intro title span steps).IsSilent := by
  apply simulatedSteps_isSilent
  trivial

theorem concludeVerification_isSilent (report : Reply.Verification) :
    (concludeVerification report).IsSilent := by
  unfold concludeVerification
  split <;> trivial

/-- The requests that execute tasks: each is asked for and executed, until there is no other. -/
def rounds (planRef : String) (agent : Value) (tasks : List String) : List Request :=
  tasks.flatMap (fun task => [.tasksNext planRef, .exec task planRef agent]) ++ [.tasksNext planRef]

variable {brief : Brief} {files : Workspace} {exchanges : List Exchange} {returned : Bool}

theorem taskId?_of_answer {planRef : String} {response : Option Response} {reply : Reply.NextTask}
    (hanswer : brief.client.answer? (.tasksNext planRef) response = some reply) :
    taskId? brief.client ⟨.tasksNext planRef, response⟩ = reply.task?.map (·.id) := by
  obtain ⟨output, hprinted, hdecode⟩ := Option.bind_eq_some_iff.mp hanswer
  obtain rfl : Reply.NextTask.decode output = reply := Option.some.inj hdecode
  rw [taskId?, hprinted]
  rfl

theorem rounds_cons (planRef : String) (agent : Value) (task : String) (tasks : List String) :
    rounds planRef agent (task :: tasks) =
      [.tasksNext planRef, .exec task planRef agent] ++ rounds planRef agent tasks := rfl

theorem covers_lastQuestion {planRef : String} {response : Option Response} (agent : Value)
    (hanswered : returned = true → IsAnswered brief.client ⟨.tasksNext planRef, response⟩) :
    Covers brief.client (rounds planRef agent []) [⟨.tasksNext planRef, response⟩] returned :=
  covers_single ⟨.tasksNext planRef, response⟩ (by simp) hanswered

/-- After a question for the next task nothing else is asked, or the task that was named is
executed, and then everything starts again. -/
theorem drainTasks_cases {maxTasks : Int} {room : Nat} {outputs : List (String × String)}
    (h : (drainTasks brief maxTasks room outputs).Converses brief.client files exchanges returned) :
    ∃ response,
      exchanges = [⟨.tasksNext brief.planRef, response⟩] ∧
        (returned = true → IsAnswered brief.client ⟨.tasksNext brief.planRef, response⟩ ∧
          taskId? brief.client ⟨.tasksNext brief.planRef, response⟩ = none) ∨
      IsAnswered brief.client ⟨.tasksNext brief.planRef, response⟩ ∧
        ∃ task, taskId? brief.client ⟨.tasksNext brief.planRef, response⟩ = some task ∧
        ∃ response',
          exchanges = [⟨.tasksNext brief.planRef, response⟩,
            ⟨.exec task brief.planRef brief.agent, response'⟩] ∧ returned = false ∨
          IsAnswered brief.client ⟨.exec task brief.planRef brief.agent, response'⟩ ∧
            ∃ left output later, room = left + 1 ∧
              exchanges = ⟨.tasksNext brief.planRef, response⟩ ::
                ⟨.exec task brief.planRef brief.agent, response'⟩ :: later ∧
              (drainTasks brief maxTasks left (outputs ++ [(task, output)])).Converses brief.client
                files later returned := by
  unfold drainTasks at h
  obtain ⟨response, ⟨rfl, rfl⟩ | ⟨reply, rest, hanswer, rfl, hrest⟩⟩ := h
  · exact ⟨response, Or.inl ⟨rfl, by simp⟩⟩
  have hanswered : IsAnswered brief.client ⟨.tasksNext brief.planRef, response⟩ := by
    simp [IsAnswered, hanswer]
  have hname := taskId?_of_answer hanswer
  refine ⟨response, ?_⟩
  simp only at hrest
  split at hrest
  · next hnone =>
      obtain rfl := (show (concludeTasks brief outputs).IsSilent from trivial).exchanges_eq hrest
      rw [hnone] at hname
      exact Or.inl ⟨rfl, fun _ => ⟨hanswered, hname⟩⟩
  · next task htask =>
      rw [htask] at hname
      split at hrest
      · obtain ⟨rfl, rfl⟩ := hrest
        exact Or.inl ⟨rfl, by simp⟩
      · split at hrest
        · obtain ⟨rfl, rfl⟩ := hrest
          exact Or.inl ⟨rfl, by simp⟩
        · rcases hrest with
            ⟨rfl, rfl⟩ | ⟨response', ⟨rfl, rfl⟩ | ⟨output, later, hexec, rfl, hlater⟩⟩
          · exact Or.inl ⟨rfl, by simp⟩
          · exact Or.inr ⟨hanswered, task.id, hname, response', Or.inl ⟨rfl, rfl⟩⟩
          · refine Or.inr ⟨hanswered, task.id, hname, response',
              Or.inr ⟨?_, _, output, later, rfl, rfl, hlater⟩⟩
            simp [IsAnswered, hexec]

/-- However many tasks there are, their requests come in rounds. -/
theorem drainTasks_covers {maxTasks : Int} {room : Nat} {outputs : List (String × String)}
    (h : (drainTasks brief maxTasks room outputs).Converses brief.client files exchanges returned) :
    ∃ tasks, Covers brief.client (rounds brief.planRef brief.agent tasks) exchanges returned := by
  induction room using Nat.strongRecOn generalizing outputs exchanges with
  | _ room ih =>
      obtain ⟨response, ⟨rfl, hanswered⟩ | ⟨hanswered, task, hname, response', hexec⟩⟩ :=
        drainTasks_cases h
      · exact ⟨[], covers_lastQuestion _ fun hreturned => (hanswered hreturned).1⟩
      rcases hexec with ⟨rfl, rfl⟩ | ⟨hexec, left, output, later, rfl, rfl, hlater⟩
      · refine ⟨[task], ?_⟩
        rw [rounds_cons]
        exact (covers_round rfl rfl hanswered hname (by simp)).cut _
      · obtain ⟨tasks, hcovers⟩ := ih left (Nat.lt_succ_self left) hlater
        refine ⟨task :: tasks, ?_⟩
        rw [rounds_cons]
        have hround : Covers brief.client
            [.tasksNext brief.planRef, .exec task brief.planRef brief.agent]
            [⟨.tasksNext brief.planRef, response⟩,
              ⟨.exec task brief.planRef brief.agent, response'⟩]
            true := covers_round rfl rfl hanswered hname fun _ => hexec
        exact hround.append hcovers

/-- The requests of a phase that returns. -/
inductive Asks (brief : Brief) : StandardPhase → List Request → Prop where
  | loadPlan (plansDir : Value) (settleSeconds : Binary64) :
      Asks brief (loadPlan plansDir settleSeconds) []
  | generatePrompt (settleSeconds : Binary64) :
      Asks brief (generatePrompt settleSeconds) [.prompt "plan" brief.planRef]
  | research (stepSeconds : Binary64) : Asks brief (research stepSeconds) []
  | implementation (stepSeconds : Binary64) : Asks brief (implementation stepSeconds) []
  | simulated (stepSeconds : Binary64) : Asks brief (simulated stepSeconds) []
  | agentExec (maxTasks : Int) (tasks : List String) :
      Asks brief (agentExec maxTasks) (rounds brief.planRef brief.agent tasks)
  | verify : Asks brief verify [.verify brief.planRef]

theorem exists_asks (brief : Brief) (phase : StandardPhase) :
    ∃ requests, phase.Asks brief requests := by
  cases phase with
  | agentExec maxTasks => exact ⟨_, .agentExec maxTasks []⟩
  | _ => exact ⟨_, by constructor⟩

/-- What a phase asks is part of what it asks when it returns. -/
theorem covers_action {phase : StandardPhase}
    (h : (phase.action.activity brief).Converses brief.client files exchanges returned) :
    ∃ requests, phase.Asks brief requests ∧ Covers brief.client requests exchanges returned := by
  cases phase with
  | loadPlan plansDir settleSeconds =>
      exact ⟨[], .loadPlan .., (loadPlanActivity_isSilent plansDir settleSeconds brief).covers h⟩
  | generatePrompt settleSeconds =>
      refine ⟨_, .generatePrompt settleSeconds, covers_log (covers_ask (by simp) ?_) h⟩
      intro prompt
      exact settle_isSilent (show (Activity.done (.text prompt)).IsSilent from trivial)
  | research stepSeconds =>
      exact ⟨[], .research .., (simulatedActivity_isSilent _ _ _ _).covers h⟩
  | implementation stepSeconds =>
      exact ⟨[], .implementation .., (simulatedActivity_isSilent _ _ _ _).covers h⟩
  | simulated stepSeconds =>
      exact ⟨[], .simulated .., (simulatedActivity_isSilent _ _ _ _).covers h⟩
  | agentExec maxTasks =>
      obtain ⟨tasks, hcovers⟩ := drainTasks_covers h
      exact ⟨_, .agentExec maxTasks tasks, hcovers⟩
  | verify =>
      refine ⟨_, .verify, covers_log (covers_log (covers_ask (by simp) ?_)) h⟩
      intro report content
      cases content with
      | ok content => exact concludeVerification_isSilent report
      | error problem =>
          cases problem <;> first | trivial | exact concludeVerification_isSilent report

/-- A plan is loaded only if there is one, and it can be read. -/
theorem readText_of_loadPlan {plansDir : Value} {settleSeconds : Binary64}
    (h : (loadPlanActivity plansDir settleSeconds brief).Converses brief.client files exchanges
      true) :
    ∃ path content, planPath brief.workspace plansDir brief.planRef = .ok path ∧
      files.readText path = .ok content := by
  unfold loadPlanActivity at h
  rcases h with ⟨-, hnot⟩ | h
  · cases hnot
  cases hpath : planPath brief.workspace plansDir brief.planRef with
  | error fault =>
      rw [hpath] at h
      cases h.2
  | ok path =>
      rw [hpath] at h
      cases hread : files.readText path with
      | error problem =>
          simp only [keepPlan, Converses, hread] at h
          cases problem <;> cases h.2
      | ok content => exact ⟨path, content, rfl, hread⟩

end StandardPhase

end Conductor
