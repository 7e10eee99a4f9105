import Conductor.Proofs.Launch.Output

/-!
What a phase has to say to the planning tool. Every request is one launch, and the answers come from
the system in the order of the launches. So an activity, however it ends, goes through a list of
exchanges, and it goes on after one of them only if that one was answered: the program was launched,
has exited cleanly, and what it printed could be read.
-/

namespace Conductor

open World

/-- A request, and the system's answer to its launch; there is none if the system has run out of
answers. -/
structure Exchange where
  request : Request
  response : Option Response

namespace Client

/-- What the tool has printed, if it was launched and has exited cleanly. -/
def printed? (client : Client) : Option Response → Option String
  | some (.started script) =>
    if script.exit.isSome ∧ script.exitCode = 0 then
      some (String.ofList (client.readSize.decode (script.sent .stdout)))
    else none
  | _ => none

/-- The answer to a request, if the tool has given one. -/
def answer? (client : Client) (request : Request) (response : Option Response) :
    Option request.Answer :=
  (client.printed? response).bind fun output =>
    (request.decode client.binary output).toOption

variable {client : Client} {request : Request} {cwd : Option String} {sink : Option Sink}
  {w w' : World}

theorem exitCode_of_succeeded {script : Script} {outcome : Outcome}
    (hexit : script.ExitsWith outcome.exitCode) (hclean : outcome.succeeded = true) :
    script.exit.isSome = true ∧ script.exitCode = 0 := by
  refine ⟨hexit.1, ?_⟩
  have hcode : outcome.exitCode = some 0 := by simpa [Outcome.succeeded] using hclean
  rw [hexit.2, Script.visibleExitCode] at hcode
  exact Option.some.inj (Option.filter_eq_some_iff.mp hcode).1

/-- A request that is answered was answered by the program that its launch has started. -/
theorem answer?_of_ask {answer : request.Answer}
    (hends : (client.ask request cwd sink w).Ends w' (.ok answer)) :
    client.answer? request w.responses.head? = some answer := by
  obtain ⟨v, s, hlaunch, -, hanswer⟩ := ask_cases hends
  cases s with
  | error fault =>
      cases fault <;> cases hanswer
  | ok outcome =>
      obtain ⟨script, hscript, hexit, houtput⟩ := Order.launch_output hlaunch
      by_cases hclean : outcome.succeeded = true
      · rw [verdict, if_pos hclean] at hanswer
        have hresponse : w.responses.head? = some (.started script) := hscript
        have htext : outcome.stdout =
            String.ofList (client.readSize.decode (script.sent .stdout)) := (houtput .stdout).1
        have hdecode : request.decode client.binary outcome.stdout = .ok answer := hanswer.symm
        rw [answer?, hresponse, printed?]
        simp only [exitCode_of_succeeded hexit hclean, and_self, if_true, Option.bind_some]
        rw [← htext, hdecode]
        rfl
      · rw [verdict, if_neg hclean] at hanswer
        cases hwords : Request.checkWords (client.binary :: request.words) with
        | error fault =>
            rw [hwords] at hanswer
            cases hanswer
        | ok _ =>
            rw [hwords] at hanswer
            cases hanswer

end Client

namespace Exchange

/-- What is asked of the system in an exchange. -/
def spawn (brief : Brief) (exchange : Exchange) : Spawn :=
  (brief.client.order exchange.request.words (some brief.workspace.toString) none).spawn

def IsAnswered (client : Client) (exchange : Exchange) : Prop :=
  (client.answer? exchange.request exchange.response).isSome = true

/-- The exchanges have the system's answers, one after the other. -/
def Served : List Response → List Exchange → Prop
  | _, [] => True
  | responses, exchange :: rest =>
    exchange.response = responses.head? ∧ Served responses.tail rest

theorem served_append {responses : List Response} {first second : List Exchange}
    (hfirst : Served responses first) (hsecond : Served (responses.drop first.length) second) :
    Served responses (first ++ second) := by
  induction first generalizing responses with
  | nil => exact hsecond
  | cons exchange rest ih =>
      refine ⟨hfirst.1, ih hfirst.2 ?_⟩
      rw [List.drop_tail]
      exact hsecond

/-- Between two worlds there were these launches and no others. -/
structure Made (brief : Brief) (u : World) (exchanges : List Exchange) (v : World) : Prop where
  launched : v.journal.launched = u.journal.launched ++ exchanges.map (spawn brief)
  served : Served u.responses exchanges
  left : v.responses = u.responses.drop exchanges.length

variable {brief : Brief} {u v w : World} {first second : List Exchange}

theorem Made.none (hlaunched : v.journal.launched = u.journal.launched)
    (hresponses : v.responses = u.responses) : Made brief u [] v :=
  ⟨by simpa using hlaunched, trivial, hresponses⟩

theorem Made.append (hfirst : Made brief u first v) (hsecond : Made brief v second w) :
    Made brief u (first ++ second) w := by
  refine ⟨?_, served_append hfirst.served ?_, ?_⟩
  · rw [hsecond.launched, hfirst.launched, List.map_append, List.append_assoc]
  · rw [← hfirst.left]
    exact hsecond.served
  · rw [hsecond.left, hfirst.left, List.drop_drop, List.length_append]

theorem made_of_stirs (h : Stirs u v) : Made brief u [] v :=
  .none (Stirs.launches h).2 (Stirs.launches h).1

/-- A request is one exchange. -/
theorem made_of_ask {request : Request} {sink : Option Sink} {r : Except Fault request.Answer}
    (hsteady : ∀ s, sink = some s → s.Steady)
    (hends : (brief.client.ask request (some brief.workspace.toString) sink u).Ends v r) :
    Made brief u [⟨request, u.responses.head?⟩] v := by
  obtain ⟨before, pid, nextPid, hbefore, hafter⟩ := Client.ask_stirs hsteady hends
  obtain ⟨hresponses, hlaunched⟩ := Stirs.launches hbefore
  obtain ⟨hresponses', hlaunched'⟩ := Stirs.launches hafter
  refine ⟨?_, ⟨rfl, trivial⟩, ?_⟩
  · rw [hlaunched', launching_launched, hlaunched]
    rfl
  · rw [hresponses', List.length_singleton, List.drop_one, ← hresponses]
    rfl

end Exchange

namespace Activity

/-- Where an activity can have got to: the exchanges that it has gone through, and whether it has
returned after them. -/
def Converses (client : Client) (files : Workspace) :
    Activity → List Exchange → Bool → Prop
  | done _, exchanges, returned => exchanges = [] ∧ returned = true
  | fail _, exchanges, returned => exchanges = [] ∧ returned = false
  | log _ _ next, exchanges, returned =>
    exchanges = [] ∧ returned = false ∨ next.Converses client files exchanges returned
  | store _ _ next, exchanges, returned =>
    exchanges = [] ∧ returned = false ∨ next.Converses client files exchanges returned
  | sleep _ next, exchanges, returned =>
    exchanges = [] ∧ returned = false ∨ next.Converses client files exchanges returned
  | ask request _ next, exchanges, returned =>
    ∃ response,
      exchanges = [⟨request, response⟩] ∧ returned = false ∨
        ∃ answer rest, client.answer? request response = some answer ∧
          exchanges = ⟨request, response⟩ :: rest ∧
            (next answer).Converses client files rest returned
  | read path next, exchanges, returned =>
    (next (files.readText path)).Converses client files exchanges returned

variable {brief : Brief} {phaseId : String} {w w' : World}

/-- A step without a launch comes before the rest of an activity, or ends it. -/
theorem exchanges_of_seq {first : Flow Unit} {next : Activity} {r : Except Fault Value}
    (hfirst : ∀ v s, (first w).Ends v s → Stirs w v)
    (hnext : ∀ v r, (next.carryOut brief phaseId v).Ends w' r →
      ∃ exchanges, next.Converses brief.client v.files exchanges r.isOk ∧
        Exchange.Made brief v exchanges w')
    (hends : (Flow.seq first (fun _ => next.carryOut brief phaseId) w).Ends w' r) :
    ∃ exchanges, (exchanges = [] ∧ r.isOk = false ∨
        next.Converses brief.client w.files exchanges r.isOk) ∧
      Exchange.Made brief w exchanges w' := by
  rcases Flow.ends_seq.mp hends with ⟨v, a, hstep, hrest⟩ | ⟨fault, hstep, rfl⟩
  · obtain ⟨exchanges, hconverses, hmade⟩ := hnext v r hrest
    have hstirs := hfirst v _ hstep
    rw [(Steps.onward hstirs.steps).files] at hconverses
    exact ⟨exchanges, Or.inr hconverses, (Exchange.made_of_stirs hstirs).append hmade⟩
  · exact ⟨[], Or.inl ⟨rfl, rfl⟩, Exchange.made_of_stirs (hfirst w' _ hstep)⟩

/-- However an activity ends, its launches are those of exchanges that it can have gone through. -/
theorem carryOut_exchanges {activity : Activity} {r : Except Fault Value}
    (hends : (activity.carryOut brief phaseId w).Ends w' r) :
    ∃ exchanges, activity.Converses brief.client w.files exchanges r.isOk ∧
      Exchange.Made brief w exchanges w' := by
  induction activity generalizing w r with
  | done result =>
      obtain ⟨rfl, rfl⟩ := Course.ends_ended.mp hends
      exact ⟨[], ⟨rfl, rfl⟩, .none rfl rfl⟩
  | fail fault =>
      obtain ⟨rfl, rfl⟩ := Course.ends_ended.mp hends
      exact ⟨[], ⟨rfl, rfl⟩, .none rfl rfl⟩
  | log message level next ih =>
      refine exchanges_of_seq ?_ (fun v r h => ih h) hends
      intro v s hstep
      exact step_stirs hstep (stirs_announce w fun _ => Or.inl rfl)
  | store key value next ih =>
      refine exchanges_of_seq ?_ (fun v r h => ih h) hends
      intro v s hstep
      exact step_stirs hstep (keep_stirs phaseId key value w)
  | sleep span next ih =>
      refine exchanges_of_seq ?_ (fun v r h => ih h) hends
      intro v s hstep
      exact pause_stirs hstep
  | ask request echo next ih =>
      rw [carryOut, Flow.ends_seq] at hends
      rcases hends with ⟨v, answer, hask, hrest⟩ | ⟨fault, hask, rfl⟩
      · obtain ⟨exchanges, hconverses, hmade⟩ := ih answer hrest
        have hfirst := Exchange.made_of_ask sink_steady hask
        have hanswer := Client.answer?_of_ask hask
        rw [(Steps.onward (Client.ask_steps sink_steady hask)).files] at hconverses
        exact ⟨_, ⟨_, Or.inr ⟨answer, exchanges, hanswer, rfl, hconverses⟩⟩, hfirst.append hmade⟩
      · exact ⟨_, ⟨_, Or.inl ⟨rfl, rfl⟩⟩, Exchange.made_of_ask sink_steady hask⟩
  | read path next ih => exact ih _ hends

theorem perform_exchanges {activity : Activity} {r : Except Fault Unit}
    (hends : (activity.perform brief phaseId w).Ends w' r) :
    ∃ exchanges, activity.Converses brief.client w.files exchanges r.isOk ∧
      Exchange.Made brief w exchanges w' := by
  obtain ⟨s, hcarried, rfl⟩ := perform_ends hends
  obtain ⟨exchanges, hconverses, hmade⟩ := carryOut_exchanges hcarried
  refine ⟨exchanges, ?_, hmade⟩
  cases s with
  | ok value => exact hconverses
  | error fault => exact hconverses

end Activity

end Conductor
