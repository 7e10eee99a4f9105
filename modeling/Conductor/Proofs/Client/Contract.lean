import Conductor.Proofs.Launch.Ending

/-!
What a request to the planning tool comes to. A request is one launch, and how that launch ends
decides everything: a launch that the system refuses and an exit other than a clean one are told as
faults that carry all there is to know, and only after a clean exit is the output read.
-/

namespace Conductor

open World

/-! ### What a fault carries -/

namespace Fault

/-- The command that a fault of the tool is about. -/
def command? : Fault → Option (List Value)
  | toolNotFound command => some command
  | commandFailed command _ _ => some command
  | execReported command _ _ _ => some command
  | _ => none

def exitCode? : Fault → Option Int
  | commandFailed _ exitCode _ => exitCode
  | toolReported _ _ exitCode => exitCode
  | _ => none

def stderr? : Fault → Option String
  | commandFailed _ _ stderr => some stderr
  | toolReported _ stderr _ => stderr
  | _ => none

end Fault

namespace Request

/-- A request that only acts and has no answer. -/
def IsDeed : Request → Prop
  | tasksComplete .. | tasksStart .. | workflowStart _ | workflowTransition .. => True
  | _ => False

/-- A command of texts can always be told of. -/
theorem checkWords_of_texts {command : List Value} (htexts : ∀ word ∈ command, word.isText = true) :
    checkWords command = .ok () := by
  have hnone : command.find? (fun word => word.isTruthy && !word.isText) = none := by
    rw [List.find?_eq_none]
    intro word hword
    simp [htexts word hword]
  rw [checkWords, hnone]

end Request

namespace Client

variable {client : Client} {request : Request} {cwd : Option String} {sink : Option Sink}
  {v w : World}

/-- What is done after the launch takes no time and launches nothing. -/
theorem run_finish_of_launch {args : List Value} {s : Except Fault Outcome}
    (hlaunch : ((client.order args cwd sink).launch (w.enter (.client (.started args)))).finish =
      (v, some s)) :
    ∃ w', (client.run args cwd sink w).finish = (w', some (client.verdict args s)) ∧
      Still v w' := by
  unfold run
  rw [Course.finish_andThen, hlaunch]
  cases s with
  | error fault =>
      cases fault
      case launchFailed program reason =>
        exact ⟨_, rfl, (still_enter v rfl).trans (still_enter _ rfl)⟩
      all_goals exact ⟨_, rfl, .refl v⟩
  | ok outcome =>
      simp only [verdict]
      by_cases hclean : outcome.succeeded = true
      · rw [if_pos hclean, if_pos hclean]
        exact ⟨_, rfl, still_enter v rfl⟩
      · rw [if_neg hclean, if_neg hclean]
        cases Request.checkWords (client.binary :: args) with
        | error fault => exact ⟨_, rfl, still_enter v rfl⟩
        | ok _ => exact ⟨_, rfl, still_enter v rfl⟩

theorem ask_finish_of_launch {s : Except Fault Outcome}
    (hlaunch : ((client.order request.words cwd sink).launch
      (w.enter (.client (.started request.words)))).finish = (v, some s)) :
    ∃ w', (client.ask request cwd sink w).finish =
        (w', some ((client.verdict request.words s).bind fun outcome =>
          request.decode client.binary outcome.stdout)) ∧ Still v w' := by
  obtain ⟨u, hrun, hstill⟩ := run_finish_of_launch hlaunch
  unfold ask
  rw [Course.bind, Course.finish_andThen, hrun]
  cases hverdict : client.verdict request.words s with
  | error fault => exact ⟨u, rfl, hstill⟩
  | ok outcome =>
      have hreport : Still u (reportExec request u) := by
        unfold reportExec
        split
        · exact still_enter u rfl
        · exact .refl u
      cases hdecode : request.decode client.binary outcome.stdout with
      | ok answer =>
          refine ⟨u, ?_, hstill⟩
          simp only [Except.bind, hdecode]
          rfl
      | error fault =>
          refine ⟨reportExec request u, ?_, hstill.trans hreport⟩
          simp only [Except.bind, hdecode]
          rfl

/-- The words of a request are texts if the agent that it may name is one. -/
theorem texts_of_agent (hbinary : client.binary.isText = true)
    (hagent : ∀ task planRef agent, request = .exec task planRef agent → agent.isText = true) :
    ∀ word ∈ client.binary :: request.words, word.isText = true := by
  intro word hword
  rcases List.mem_cons.mp hword with rfl | hword
  · exact hbinary
  · rcases List.mem_append.mp hword with htext | hlast
    · obtain ⟨text, -, rfl⟩ := List.mem_map.mp htext
      rfl
    · cases request with
      | exec task planRef agent =>
          rw [List.mem_singleton.mp hlast]
          exact hagent task planRef agent rfl
      | _ => simp at hlast

/-- What the tool has printed to a pipe, as the client reads it. -/
def printed (client : Client) (script : Script) (channel : Channel) : String :=
  String.ofList (client.readSize.decode (script.sent channel))

theorem printed_eq_decode (hreads : client.readSize ≠ .nothing) (script : Script)
    (channel : Channel) :
    client.printed script channel = String.ofList (Utf8.decode (script.sent channel)) := by
  rw [printed, ReadSize.decode_of_ne_nothing hreads]

theorem order_harmless (hsink : ∀ s, sink = some s → s.Harmless) (args : List Value) :
    (client.order args cwd sink).Harmless := by
  intro channel s hs
  cases channel with
  | stdout => exact hsink s hs
  | stderr => exact hsink s hs

/-- How a request ends is decided by how its one launch ends. -/
theorem ask_finish (hsink : ∀ s, sink = some s → s.Harmless)
    (hexits : ∀ script, w.responses.head? = some (.started script) → script.exit.isSome = true) :
    ∃ w' s, (client.ask request cwd sink w).finish =
        (w', some ((client.verdict request.words s).bind fun outcome =>
          request.decode client.binary outcome.stdout)) ∧
      (client.order request.words cwd sink).Launched w w' ∧
      ((∀ script, w.responses.head? ≠ some (.started script)) →
        ∃ reason, s = .error (.launchFailed client.binary reason)) ∧
      ∀ script, w.responses.head? = some (.started script) →
        s = .ok ((client.order request.words cwd sink).outcome script) := by
  let order := client.order request.words cwd sink
  let u := w.enter (.client (.started request.words))
  have hbegun : Spares w u := (still_enter w rfl).toSpares
  have hdone {v w' : World} (hlaunched : order.Launched u v) (hstill : Still v w') :
      order.Launched w w' := by
    have hlast := hlaunched.spares hstill.toSpares
    exact ⟨hlast.responses.trans (by rw [hbegun.responses]),
      hlast.launched.trans (by rw [hbegun.launched])⟩
  obtain ⟨script, hscript⟩ | hnot := Response.started_or_not w.responses.head?
  · obtain ⟨moment, hmoment⟩ := Response.exists_overAt hexits w.now
    rw [hscript] at hmoment
    obtain ⟨v, hfinish, -, hlaunched⟩ :=
      Order.launch_finish_of_started (w := u) (order_harmless hsink request.words) hscript hmoment
    obtain ⟨w', hask, hstill⟩ := ask_finish_of_launch hfinish
    refine ⟨w', _, hask, hdone hlaunched hstill, fun hnot => absurd hscript (hnot script), ?_⟩
    intro script' hscript'
    rw [hscript] at hscript'
    cases hscript'
    rfl
  · obtain ⟨v, reason, hlaunch, -, hlaunched⟩ :=
      Order.launch_of_not_started (w := u) order hnot
    obtain ⟨w', hask, hstill⟩ := ask_finish_of_launch (by rw [hlaunch]; rfl)
    exact ⟨w', _, hask, hdone hlaunched hstill, fun _ => ⟨reason, rfl⟩,
      fun script hscript => absurd hscript (hnot script)⟩

theorem verdict_of_refused (args : List Value) (reason : String) :
    client.verdict args (.error (.launchFailed client.binary reason)) =
      .error (.toolNotFound (client.binary :: args)) := rfl

theorem verdict_of_clean {args : List Value} {outcome : Outcome}
    (hclean : outcome.succeeded = true) : client.verdict args (.ok outcome) = .ok outcome := by
  rw [verdict, if_pos hclean]

theorem verdict_of_failed {args : List Value} {outcome : Outcome}
    (htexts : ∀ word ∈ client.binary :: args, word.isText = true)
    (hfailed : ¬ outcome.succeeded = true) :
    client.verdict args (.ok outcome) =
      .error (.commandFailed (client.binary :: args) outcome.exitCode outcome.stderr) := by
  rw [verdict, if_neg hfailed, Request.checkWords_of_texts htexts]
  rfl

/-- A report of a failed task is passed on with everything that the tool has printed; without one
the output is the answer. -/
theorem decode_exec {binary : Value} {task planRef : String} {agent : Value} (out : String)
    (htexts : ∀ word ∈ binary :: (Request.exec task planRef agent).words, word.isText = true) :
    (∀ failure, Reply.ExecFailure.decode out = some failure ↔
      Request.decode binary (.exec task planRef agent) out =
        .error (.execReported (binary :: (Request.exec task planRef agent).words) task out
          failure)) ∧
    (Reply.ExecFailure.decode out = none ↔
      (Request.decode binary (.exec task planRef agent) out).map
        (Request.exec task planRef agent).answerValue = .ok (.text out)) := by
  simp only [Request.decode, Request.checkWords_of_texts htexts]
  cases Reply.ExecFailure.decode out with
  | none =>
      refine ⟨?_, fun _ => rfl, fun _ => rfl⟩
      intro failure
      constructor
      · intro hsome
        cases hsome
      · intro herror
        cases herror
  | some failure =>
      refine ⟨?_, ?_, ?_⟩
      · intro failure'
        constructor
        · intro hsome
          cases hsome
          rfl
        · intro herror
          cases herror
          rfl
      · intro hnone
        cases hnone
      · intro hok
        cases hok

/-- A request whose words are texts, with a sink that does no harm, launches the tool exactly once,
in the given directory or else in the client's own. If the tool cannot be launched, the request
fails with the same words whatever the system said; if it exits other than cleanly, with its exit
code and all of its error output; and after a clean exit the answer is what its output is read as,
where only the execution of a task can still turn out to have failed. -/
theorem ask_outcome (hbinary : client.binary.isText = true)
    (hagent : ∀ task planRef agent, request = .exec task planRef agent → agent.isText = true)
    (hsink : ∀ s, sink = some s → s.Harmless)
    (hexits : ∀ script, w.responses.head? = some (.started script) → script.exit.isSome = true) :
    ∃ w' result, (client.ask request cwd sink w).finish = (w', some result) ∧
      w'.journal.launched = w.journal.launched ++ [{
        command := client.binary :: request.words
        cwd := (cwd.or client.workingDirectory).filter fun dir => !dir.isEmpty }] ∧
      ((∀ script, w.responses.head? ≠ some (.started script)) →
        ∃ fault, result = .error fault ∧ fault.name = "CLIError" ∧
          fault.message = Fault.toolNotFoundMessage ∧
          fault.command? = some (client.binary :: request.words) ∧ fault.exitCode? = none) ∧
      ∀ script, w.responses.head? = some (.started script) →
        (client.readSize ≠ .nothing → ∀ channel,
          client.printed script channel = String.ofList (Utf8.decode (script.sent channel))) ∧
        (script.exitCode ≠ 0 →
          ∃ fault, result = .error fault ∧ fault.name = "CLIError" ∧
            fault.exitCode? = Script.visibleExitCode (some script.exitCode) ∧
            fault.stderr? = some (client.printed script .stderr) ∧
            fault.command? = some (client.binary :: request.words)) ∧
        (script.exitCode = 0 →
          result = request.decode client.binary (client.printed script .stdout) ∧
          (request.IsDeed → result.map request.answerValue = .ok .null) ∧
          (∀ planFile specFile, request = .verifyPrompt planFile specFile →
            result.map request.answerValue = .ok (.text (client.printed script .stdout))) ∧
          ∀ task planRef agent, request = .exec task planRef agent →
            (∀ failure, Reply.ExecFailure.decode (client.printed script .stdout) = some failure ↔
              result = .error (.execReported (client.binary :: request.words) task
                (client.printed script .stdout) failure)) ∧
            (Reply.ExecFailure.decode (client.printed script .stdout) = none ↔
              result.map request.answerValue =
                .ok (.text (client.printed script .stdout)))) := by
  have htexts := texts_of_agent hbinary hagent
  obtain ⟨w', s, hask, hlaunched, hrefused, hstarted⟩ :=
    @ask_finish client request cwd sink w hsink hexits
  refine ⟨w', _, hask, hlaunched.launched, ?_, ?_⟩
  · intro hnot
    obtain ⟨reason, rfl⟩ := hrefused hnot
    rw [verdict_of_refused]
    exact ⟨_, rfl, rfl, rfl, rfl, rfl⟩
  · intro script hscript
    obtain rfl := hstarted script hscript
    refine ⟨fun hreads => printed_eq_decode hreads script, ?_, ?_⟩
    · intro hcode
      rw [verdict_of_failed htexts (mt (Order.outcome_succeeded _ script).mp hcode)]
      exact ⟨_, rfl, rfl, rfl, rfl, rfl⟩
    · intro hcode
      rw [verdict_of_clean ((Order.outcome_succeeded _ script).mpr hcode)]
      refine ⟨rfl, ?_, ?_, ?_⟩
      · intro hdeed
        cases request <;> first | rfl | exact hdeed.elim
      · rintro planFile specFile rfl
        rfl
      · rintro task planRef agent rfl
        exact decode_exec (client.printed script .stdout) htexts

/-- A tool that is killed after it has complained. -/
def complaining : World where
  responses := [.started
    { stderr := some [⟨1, [0xa9]⟩, ⟨0, [0xc3]⟩], exitCode := -9, exit := some 2 }]

theorem ask_outcome_of_complaining :
    ∃ w' fault, (({} : Client).ask (.exec "task-1" "plan.md" (.text "agent")) (some "")
        (some (.recording .stderr fun _ => none)) complaining).finish =
          (w', some (.error fault)) ∧
      w'.journal.launched = [{
        command := ["opusflow", "exec", "task-1", "plan.md", "--agent", "agent"].map Value.text
        cwd := none }] ∧
      fault.exitCode? = none ∧ fault.stderr? = some "é" := by
  have hagent : ∀ task planRef agent,
      Request.exec "task-1" "plan.md" (.text "agent") = .exec task planRef agent →
        agent.isText = true := by
    rintro task planRef agent ⟨⟩
    rfl
  have hsink : ∀ s, some (Sink.recording .stderr fun _ => none) = some s → s.Harmless := by
    rintro s ⟨⟩
    exact Sink.recording_harmless .stderr
  have hexits : ∀ script, complaining.responses.head? = some (.started script) →
      script.exit.isSome = true := by
    rintro script ⟨⟩
    rfl
  obtain ⟨w', result, hfinish, hlaunched, -, hstarted⟩ :=
    @ask_outcome {} _ (some "") _ complaining rfl hagent hsink hexits
  obtain ⟨-, hfailed, -⟩ := hstarted _ rfl
  obtain ⟨fault, rfl, -, hcode, hstderr, -⟩ := hfailed (by decide)
  refine ⟨w', fault, hfinish, hlaunched, hcode, ?_⟩
  rw [hstderr]
  decide +kernel

end Client

end Conductor
