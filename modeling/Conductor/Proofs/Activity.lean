import Conductor.Proofs.Course
import Conductor.Proofs.World

/-!
Whatever an activity does is a sequence of steps. This is shown once, layer by layer: for a program
that is followed to its end, for a request to the planning tool, which launches exactly once, and
for the tree of instructions itself. It holds however the activity ends, and also when it is stopped
on the way.
-/

namespace Conductor

open World

/-- A sink that launches nothing. -/
def Sink.Steady (sink : Sink) : Prop := ∀ text w, Stirs w (sink text w).1

namespace World

theorem stirs_pass (w : World) (t : Time) : Stirs w (w.advanceTo t) := .single (.pass w t)

theorem stirs_enter (w : World) {entry : Entry} (haside : entry.isAside = true) :
    Stirs w (w.enter entry) := .single (.enter w haside)

theorem stirs_log (w : World) (severity : Severity) (logger message : String) :
    Stirs w (w.log severity logger message) := stirs_enter w rfl

theorem stirs_announce (w : World) {event : Stamp → Event}
    (hwork : ∀ stamp, (event stamp).kind.IsWork) : Stirs w (w.announce event).1 := by
  unfold announce
  cases w.stamp with
  | ok stamp => exact .single (.publish w (hwork stamp))
  | error fault => exact .refl

end World

theorem Activity.logChunk_steady (phaseId : String) : (logChunk phaseId).Steady := by
  intro text w
  simp only [logChunk]
  split
  · exact .refl
  · exact stirs_announce w fun _ => Or.inl rfl

theorem Sink.hand_stirs {sink : Option Sink} (hsink : ∀ s, sink = some s → s.Steady)
    (chunks : List (List Char)) (w : World) : Stirs w (Sink.hand sink chunks w).1 := by
  fun_induction Sink.hand sink chunks w with
  | case1 => exact .refl
  | case2 => exact .refl
  | case3 sink chunk rest w v hchunk ih =>
      have hfirst := hsink sink rfl (String.ofList chunk) w
      rw [hchunk] at hfirst
      exact hfirst.trans (ih hsink)
  | case4 sink chunk rest w v fault hchunk =>
      have hfirst := hsink sink rfl (String.ofList chunk) w
      rw [hchunk] at hfirst
      exact hfirst

/-- The sinks of an order launch nothing. -/
def Order.Steady (order : Order) : Prop :=
  (∀ s, order.onStdout = some s → s.Steady) ∧ ∀ s, order.onStderr = some s → s.Steady

namespace Child

variable {child : Child} {pumps : Pumps} {w w' : World} {r : Except Fault Outcome}

theorem read_stirs (hsteady : child.order.Steady) (turn : Turn) (pumps : Pumps) (w : World) :
    Stirs w (child.read turn pumps w).2.1 := by
  unfold read
  exact (Sink.hand_stirs hsteady.1 _ w).trans (Sink.hand_stirs hsteady.2 _ _)

theorem abandon_stirs {fault : Fault} (hends : (child.abandon fault w).Ends w' r) :
    Stirs w w' ∧ r = .error fault := by
  obtain ⟨rfl, rfl⟩ := Course.ends_ended.mp hends
  refine ⟨?_, rfl⟩
  have htold : Stirs w (w.enter (.launch (.killed child.order.program child.pid fault.name))) :=
    stirs_enter w rfl
  split
  · exact htold.trans (stirs_log _ _ _ _)
  · exact (htold.trans (stirs_log _ _ _ _)).trans (stirs_enter _ rfl)

theorem stopped_stirs {message : String} (hends : (child.stopped w message).Ends w' r) :
    Stirs w w' ∧ r = .error (.cancelled message) := abandon_stirs hends

theorem conclude_stirs (hends : (child.conclude pumps w).Ends w' r) : Stirs w w' := by
  obtain ⟨rfl, rfl⟩ := Course.ends_ended.mp hends
  exact stirs_enter w rfl

theorem reap_stirs (hends : (child.reap pumps w).Ends w' r) : Stirs w w' := by
  unfold reap at hends
  split at hends
  · exact conclude_stirs hends
  · split at hends
    · rcases Course.ends_waiting.mp hends with hgo | ⟨t, message, hstop⟩
      · exact (stirs_pass w _).trans (conclude_stirs hgo)
      · exact (stirs_pass w t).trans (stopped_stirs hstop).1
    · obtain ⟨t, message, hstop⟩ := Course.ends_hanging.mp hends
      exact (stirs_pass w t).trans (stopped_stirs hstop).1

theorem follow_stirs (hsteady : child.order.Steady) {turns : List Turn}
    (hends : (child.follow pumps turns w).Ends w' r) : Stirs w w' := by
  induction turns generalizing pumps w with
  | nil =>
      obtain ⟨t, message, hstop⟩ := Course.ends_hanging.mp hends
      exact (stirs_pass w t).trans (stopped_stirs hstop).1
  | cons turn rest ih =>
      have hread := read_stirs hsteady turn pumps w
      unfold follow at hends
      cases hturn : child.read turn pumps w with
      | mk pumps' after =>
          obtain ⟨v, fault⟩ := after
          rw [hturn] at hread hends
          refine hread.trans ?_
          cases fault with
          | some fault => exact (abandon_stirs hends).1
          | none =>
              simp only at hends
              split at hends
              · rcases Course.ends_waiting.mp hends with hgo | ⟨t, message, hstop⟩
                · exact (stirs_pass v _).trans (reap_stirs hgo)
                · exact (stirs_pass v t).trans (stopped_stirs hstop).1
              · cases rest with
                | nil =>
                    obtain ⟨t, message, hstop⟩ := Course.ends_hanging.mp hends
                    exact (stirs_pass v t).trans (stopped_stirs hstop).1
                | cons next more =>
                    rcases Course.ends_waiting.mp hends with hgo | ⟨t, message, hstop⟩
                    · exact (stirs_pass v _).trans (ih hgo)
                    · exact (stirs_pass v t).trans (stopped_stirs hstop).1

end Child

namespace Order

/-- What a launch of the order asks of the system. -/
def spawn (order : Order) : Spawn := ⟨order.command, order.directory, order.env⟩

/-- The world in which the system is asked. -/
def begun (order : Order) (w : World) : World :=
  (w.enter (.launch (.started order.command order.directory))).log .debug Child.logger
    ("Launching " ++ (Value.list order.command).shown)

theorem begun_stirs (order : Order) (w : World) : Stirs w (order.begun w) :=
  (stirs_enter w rfl).trans (stirs_log _ _ _ _)

/-- The program that a launch in this world starts, if its script is as given. -/
def child (order : Order) (script : Script) (w : World) : Child :=
  { order, pid := w.nextPid, born := w.now, script }

/-- The world in which that program has been started. -/
def started (order : Order) (w : World) : World :=
  (order.begun w).launching order.spawn (some w.nextPid) (w.nextPid + 1)

/-- The world in which the system has refused to start a program. -/
def refused (order : Order) (w : World) : World :=
  (order.begun w).launching order.spawn none w.nextPid

variable {order : Order} {w w' : World} {r : Except Fault Outcome}

theorem refuse_ends {reason : String} {rest : List Response} (hrest : w.responses.tail = rest)
    (hends : (order.refuse reason { order.begun w with responses := rest }).Ends w' r) :
    r = .error (.launchFailed order.program reason) ∧ Stirs (order.refused w) w' := by
  obtain ⟨rfl, rfl⟩ := Course.ends_ended.mp hends
  subst hrest
  exact ⟨rfl, stirs_enter (order.refused w) rfl⟩

theorem launch_of_nil (hall : w.responses = []) :
    order.launch w =
      order.refuse "no scripted response" { order.begun w with responses := [] } := by
  cases w
  subst hall
  rfl

theorem launch_of_refused {reason : String} {rest : List Response}
    (hall : w.responses = .refused reason :: rest) :
    order.launch w = order.refuse reason { order.begun w with responses := rest } := by
  cases w
  subst hall
  rfl

theorem launch_of_started {script : Script} {rest : List Response}
    (hall : w.responses = .started script :: rest) :
    order.launch w = .waiting (order.started w) w.now
      ((order.child script w).follow (.ofScript script) script.turns)
      (order.child script w).stopped := by
  cases w
  subst hall
  rfl

/-- The system is asked exactly once. It either refuses, or the program it has started is read to
its end unless the call is told to stop before. -/
theorem launch_cases (hends : (order.launch w).Ends w' r) :
    (∃ reason, (∀ script, w.responses.head? ≠ some (.started script)) ∧
      r = .error (.launchFailed order.program reason) ∧ Stirs (order.refused w) w') ∨
    ∃ script, w.responses.head? = some (.started script) ∧
      (((order.child script w).follow (.ofScript script) script.turns
          ((order.started w).advanceTo w.now)).Ends w' r ∨
        ∃ t message,
          ((order.child script w).stopped ((order.started w).advanceTo t) message).Ends w' r) := by
  cases hall : w.responses with
  | nil =>
      rw [launch_of_nil hall] at hends
      exact Or.inl ⟨_, by simp, refuse_ends (by rw [hall]; rfl) hends⟩
  | cons response rest =>
      cases response with
      | refused reason =>
          rw [launch_of_refused hall] at hends
          exact Or.inl ⟨reason, by simp, refuse_ends (by rw [hall]; rfl) hends⟩
      | started script =>
          rw [launch_of_started hall] at hends
          exact Or.inr ⟨script, rfl, Course.ends_waiting.mp hends⟩

/-- Around asking the system nothing is launched. -/
theorem launch_stirs (hsteady : order.Steady) (hends : (order.launch w).Ends w' r) :
    ∃ pid nextPid, Stirs ((order.begun w).launching order.spawn pid nextPid) w' := by
  rcases launch_cases hends with ⟨reason, -, -, hrefused⟩ | ⟨script, -, hgo | ⟨t, message, hstop⟩⟩
  · exact ⟨_, _, hrefused⟩
  · exact ⟨_, _, (stirs_pass (order.started w) _).trans (Child.follow_stirs hsteady hgo)⟩
  · exact ⟨_, _, (stirs_pass (order.started w) _).trans (Child.stopped_stirs hstop).1⟩

end Order

namespace Client

variable {client : Client} {args : List Value} {cwd : Option String} {sink : Option Sink}
  {w w' : World}

/-- What becomes of the result of a launch: only a clean exit counts as one. -/
def verdict (client : Client) (args : List Value) : Except Fault Outcome → Except Fault Outcome
  | .error (.launchFailed ..) => .error (.toolNotFound (client.binary :: args))
  | .error fault => .error fault
  | .ok outcome =>
    if outcome.succeeded then .ok outcome
    else
      (Request.checkWords (client.binary :: args)).bind fun _ =>
        .error (.commandFailed (client.binary :: args) outcome.exitCode outcome.stderr)

theorem run_cases {r : Except Fault Outcome} (hends : (client.run args cwd sink w).Ends w' r) :
    ∃ v s, ((client.order args cwd sink).launch (w.enter (.client (.started args)))).Ends v s ∧
      Stirs v w' ∧ r = client.verdict args s := by
  unfold run at hends
  obtain ⟨v, s, hlaunch, hrest⟩ := Course.ends_andThen.mp hends
  refine ⟨v, s, hlaunch, ?_⟩
  cases s with
  | error fault =>
      cases fault
      case launchFailed program reason =>
        obtain ⟨rfl, rfl⟩ := Course.ends_ended.mp hrest
        exact ⟨(stirs_enter v rfl).trans (stirs_log _ _ _ _), rfl⟩
      all_goals
        obtain ⟨rfl, rfl⟩ := Course.ends_ended.mp hrest
        exact ⟨.refl, rfl⟩
  | ok outcome =>
      simp only at hrest
      simp only [verdict]
      by_cases hclean : outcome.succeeded = true
      · rw [if_pos hclean] at hrest ⊢
        obtain ⟨rfl, rfl⟩ := Course.ends_ended.mp hrest
        exact ⟨stirs_enter v rfl, rfl⟩
      · rw [if_neg hclean] at hrest ⊢
        cases hwords : Request.checkWords (client.binary :: args) with
        | error fault =>
            rw [hwords] at hrest
            obtain ⟨rfl, rfl⟩ := Course.ends_ended.mp hrest
            exact ⟨stirs_enter v rfl, rfl⟩
        | ok _ =>
            rw [hwords] at hrest
            obtain ⟨rfl, rfl⟩ := Course.ends_ended.mp hrest
            exact ⟨stirs_enter v rfl, rfl⟩

/-- A request is one launch; what the program leaves behind decides the answer. -/
theorem ask_cases {request : Request} {r : Except Fault request.Answer}
    (hends : (client.ask request cwd sink w).Ends w' r) :
    ∃ v s, ((client.order request.words cwd sink).launch
        (w.enter (.client (.started request.words)))).Ends v s ∧
      Stirs v w' ∧
      r = (client.verdict request.words s).bind fun outcome =>
        request.decode client.binary outcome.stdout := by
  unfold ask at hends
  rcases Course.ends_bind.mp hends with ⟨v, outcome, hrun, hdecode⟩ | ⟨fault, hrun, rfl⟩
  · obtain ⟨u, s, hlaunch, hstirs, hverdict⟩ := run_cases hrun
    have hreport : Stirs v (reportExec request v) := by
      unfold reportExec
      split
      · exact stirs_enter v rfl
      · exact .refl
    refine ⟨u, s, hlaunch, ?_⟩
    rw [← hverdict]
    split at hdecode
    · next answer hanswer =>
        obtain ⟨rfl, rfl⟩ := Course.ends_ended.mp hdecode
        exact ⟨hstirs, hanswer.symm⟩
    · next fault hanswer =>
        obtain ⟨rfl, rfl⟩ := Course.ends_ended.mp hdecode
        exact ⟨hstirs.trans hreport, hanswer.symm⟩
  · obtain ⟨u, s, hlaunch, hstirs, hverdict⟩ := run_cases hrun
    refine ⟨u, s, hlaunch, hstirs, ?_⟩
    rw [← hverdict]
    rfl

/-- A request launches the tool once and nothing else. -/
theorem ask_stirs (hsteady : ∀ s, sink = some s → s.Steady) {request : Request}
    {r : Except Fault request.Answer} (hends : (client.ask request cwd sink w).Ends w' r) :
    ∃ u pid nextPid, Stirs w u ∧
      Stirs (u.launching (client.order request.words cwd sink).spawn pid nextPid) w' := by
  obtain ⟨v, s, hlaunch, hstirs, -⟩ := ask_cases hends
  have hboth : (client.order request.words cwd sink).Steady := ⟨hsteady, hsteady⟩
  obtain ⟨pid, nextPid, hrest⟩ := Order.launch_stirs hboth hlaunch
  exact ⟨_, pid, nextPid, (stirs_enter w rfl).trans (Order.begun_stirs _ _), hrest.trans hstirs⟩

theorem ask_steps (hsteady : ∀ s, sink = some s → s.Steady) {request : Request}
    {r : Except Fault request.Answer} (hends : (client.ask request cwd sink w).Ends w' r) :
    Steps w w' := by
  obtain ⟨u, pid, nextPid, hbefore, hafter⟩ := ask_stirs hsteady hends
  exact (hbefore.steps.tail (.launch u _ pid nextPid)).trans hafter.steps

end Client

namespace Activity

variable {brief : Brief} {phaseId : String} {w w' : World}

theorem step_stirs {act : World → World × Option Fault} {r : Except Fault Unit}
    (hends : (Flow.step act w).Ends w' r) (hact : Stirs w (act w).1) : Stirs w w' := by
  rw [(Flow.ends_step.mp hends).1]
  exact hact

theorem keep_stirs (phaseId key : String) (value : Value) (w : World) :
    Stirs w (keep phaseId key value w).1 :=
  (Relation.ReflTransGen.single (.store w key value)).trans
    (stirs_announce _ fun _ => Or.inr rfl)

theorem pause_stirs {span : Option Time} {r : Except Fault Unit}
    (hends : (pause span w).Ends w' r) : Stirs w w' := by
  cases span with
  | none =>
      obtain ⟨t, message, hstop⟩ := Course.ends_hanging.mp hends
      rw [(Course.ends_ended.mp hstop).1]
      exact stirs_pass w t
  | some span =>
      rcases Course.ends_waiting.mp hends with hgo | ⟨t, message, hstop⟩
      · rw [(Course.ends_ended.mp hgo).1]
        exact stirs_pass w _
      · rw [(Course.ends_ended.mp hstop).1]
        exact stirs_pass w t

theorem sink_steady {echo : Bool} :
    ∀ s, (if echo then some (logChunk phaseId) else none) = some s → s.Steady := by
  intro s hs
  cases echo with
  | false => simp at hs
  | true =>
      have hlog : logChunk phaseId = s := by simpa using hs
      rw [← hlog]
      exact logChunk_steady phaseId

/-- Whatever an activity does, it does step by step. -/
theorem carryOut_steps {activity : Activity} {r : Except Fault Value}
    (hends : (activity.carryOut brief phaseId w).Ends w' r) : Steps w w' := by
  induction activity generalizing w with
  | done result =>
      obtain ⟨rfl, rfl⟩ := Course.ends_ended.mp hends
      exact .refl
  | fail fault =>
      obtain ⟨rfl, rfl⟩ := Course.ends_ended.mp hends
      exact .refl
  | log message level next ih =>
      have hlog : Stirs w (w.announce (logEvent phaseId message level)).1 :=
        stirs_announce w fun _ => Or.inl rfl
      rw [carryOut, Flow.ends_seq] at hends
      rcases hends with ⟨v, a, hfirst, hrest⟩ | ⟨fault, hfirst, rfl⟩
      · exact (step_stirs hfirst hlog).steps.trans (ih hrest)
      · exact (step_stirs hfirst hlog).steps
  | store key value next ih =>
      have hkeep := keep_stirs phaseId key value w
      rw [carryOut, Flow.ends_seq] at hends
      rcases hends with ⟨v, a, hfirst, hrest⟩ | ⟨fault, hfirst, rfl⟩
      · exact (step_stirs hfirst hkeep).steps.trans (ih hrest)
      · exact (step_stirs hfirst hkeep).steps
  | sleep span next ih =>
      rw [carryOut, Flow.ends_seq] at hends
      rcases hends with ⟨v, a, hfirst, hrest⟩ | ⟨fault, hfirst, rfl⟩
      · exact (pause_stirs hfirst).steps.trans (ih hrest)
      · exact (pause_stirs hfirst).steps
  | ask request echo next ih =>
      rw [carryOut, Flow.ends_seq] at hends
      rcases hends with ⟨v, a, hfirst, hrest⟩ | ⟨fault, hfirst, rfl⟩
      · exact (Client.ask_steps sink_steady hfirst).trans (ih a hrest)
      · exact Client.ask_steps sink_steady hfirst
  | read path next ih => exact ih _ hends

/-- In a run an activity ends as it does elsewhere, but for what it gives. -/
theorem perform_ends {activity : Activity} {r : Except Fault Unit}
    (hends : (activity.perform brief phaseId w).Ends w' r) :
    ∃ s, (activity.carryOut brief phaseId w).Ends w' s ∧ r = s.map fun _ => () := by
  rcases Flow.ends_seq.mp hends with ⟨v, value, hfirst, hlast⟩ | ⟨fault, hfirst, rfl⟩
  · obtain ⟨rfl, rfl⟩ := Course.ends_ended.mp hlast
    exact ⟨_, hfirst, rfl⟩
  · exact ⟨_, hfirst, rfl⟩

theorem perform_steps {activity : Activity} {r : Except Fault Unit}
    (hends : (activity.perform brief phaseId w).Ends w' r) : Steps w w' := by
  obtain ⟨s, hcarried, -⟩ := perform_ends hends
  exact carryOut_steps hcarried

end Activity

end Conductor
