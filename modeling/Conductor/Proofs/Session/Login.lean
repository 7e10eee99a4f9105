import Conductor.Session
import Conductor.Proofs.Launch.Ending

/-!
What a login comes to if nobody calls it off. Up to three launches decide it: a status check, the
agent's own login, which is waited for until a deadline, and a second status check. What each of
them does can be told from the answer of the system and the moment of the launch, and the outcome of
the whole is read off from that.
-/

namespace Conductor

open World

/-- Everything that a program writes to a pipe, as text. -/
def Script.written (script : Script) (channel : Channel) : String :=
  String.ofList (Utf8.decode (script.sent channel))

namespace Session

/-! ### Waiting until a limit -/

section Within

variable {c : Course Outcome} {r : Except Fault Outcome} {child : Child} {t : Time} {v : World}

theorem within_none_finish (c : Course Outcome) :
    (within none c).finish = (c.finish.1, c.finish.2.map fun r => .ok (.over r)) := by
  induction c with
  | ended w r => rfl
  | waiting w due go stop ihgo ihstop => exact ihgo _
  | hanging w stop ihstop => rfl

/-- What has ended before the limit is not called off. -/
theorem within_finish_of_ended (hbefore : c.before t = .ended v r) :
    (within (some t) c).finish = (v, some (.ok (.over r))) := by
  induction c with
  | ended w s =>
      obtain ⟨rfl, rfl⟩ : w = v ∧ s = r := by simpa [Course.before] using hbefore
      rfl
  | waiting w due go stop ihgo ihstop =>
      by_cases hlt : due < t
      · rw [Course.before_waiting_of_lt hlt] at hbefore
        rw [within, if_pos hlt]
        exact ihgo _ hbefore
      · rw [Course.before_waiting_of_not_lt hlt] at hbefore
        cases hbefore
  | hanging w stop ihstop => cases hbefore

theorem callOff_stopped_finish (child : Child) (last : Except Fault Waited) (w : World) :
    ∃ v, (callOff child.stopped last w).finish = (v, some last) ∧ Still w v := by
  obtain ⟨v, habandon, hstill⟩ := child.abandon_ended (.cancelled "") w
  refine ⟨v, ?_, hstill⟩
  rw [callOff, Child.stopped, habandon]
  rfl

/-- A program that is still waited for at the limit is called off then. -/
theorem within_finish_of_awaits (hawaits : child.Awaits v (c.before t)) :
    ∃ v', (within (some t) c).finish = (v', some (.ok .cutOff)) ∧ Still v v' := by
  induction c with
  | ended w s =>
      obtain ⟨due, go, hwaiting⟩ | hhanging := hawaits
      · cases hwaiting
      · cases hhanging
  | waiting w due go stop ihgo ihstop =>
      by_cases hlt : due < t
      · rw [Course.before_waiting_of_lt hlt] at hawaits
        rw [within, if_pos hlt]
        exact ihgo _ hawaits
      · rw [Course.before_waiting_of_not_lt hlt] at hawaits
        rw [within, if_neg hlt]
        obtain ⟨due', go', hwaiting⟩ | hhanging := hawaits
        · cases hwaiting
          exact callOff_stopped_finish child _ _
        · cases hhanging
  | hanging w stop ihstop =>
      obtain ⟨due, go, hwaiting⟩ | hhanging := hawaits
      · cases hwaiting
      · cases hhanging
        exact callOff_stopped_finish child _ _

end Within

/-! ### How a launch ends that is waited for -/

/-- How a launch ends for whoever waits for it until a limit. -/
inductive Fate where
  | refused
  | exited (script : Script)
  /-- The program was still there at the limit. -/
  | late
  deriving DecidableEq

def Fate.isClean : Fate → Bool
  | exited script => script.exitCode == 0
  | _ => false

/-- A program that is launched at `now` exits, and before the limit if there is one. -/
def ExitsBefore (limit : Option Time) (now : Time) (script : Script) : Prop :=
  ∃ moment ∈ script.exitMoment? now, ∀ t ∈ limit, moment < t

instance (limit : Option Time) (now : Time) (script : Script) :
    Decidable (ExitsBefore limit now script) :=
  inferInstanceAs (Decidable (∃ moment ∈ script.exitMoment? now, ∀ t ∈ limit, moment < t))

/-- The fate of a launch at `now`, by the answer of the system. -/
def fate (limit : Option Time) (now : Time) : Option Response → Fate
  | some (.started script) => if ExitsBefore limit now script then .exited script else .late
  | _ => .refused

section Wait

variable {limit : Option Time} {now t : Time} {response : Option Response} {script : Script}
  {order : Order} {w : World}

theorem fate_of_not_started (hnot : ∀ script, response ≠ some (.started script)) :
    fate limit now response = .refused := by
  unfold fate
  split
  · next script => exact absurd rfl (hnot script)
  · rfl

theorem fate_of_exits (hexits : ExitsBefore limit now script) :
    fate limit now (some (.started script)) = .exited script := by
  rw [fate, if_pos hexits]

theorem fate_of_not_exits (hlate : ¬ ExitsBefore limit now script) :
    fate limit now (some (.started script)) = .late := by
  rw [fate, if_neg hlate]

theorem firstTurn_launch (hstarted : w.responses.head? = some (.started script)) :
    firstTurn (order.launch w) =
      (order.child script w).follow (.ofScript script) script.turns (order.started w) := by
  rw [Order.launch_of_head hstarted]
  exact if_pos (Nat.le_refl w.now)

theorem wait_of_not_started (order : Order)
    (hnot : ∀ script, w.responses.head? ≠ some (.started script)) :
    ∃ v reason, (∀ limit, (within limit (firstTurn (order.launch w))).finish =
        (v, some (.ok (.over (.error (.launchFailed order.program reason)))))) ∧
      v.now = w.now ∧ order.Launched w v := by
  obtain ⟨v, reason, hlaunch, hnow, hlaunched⟩ := Order.launch_of_not_started order hnot
  refine ⟨v, reason, fun limit => ?_, hnow, hlaunched⟩
  rw [hlaunch]
  rfl

/-- A program that exits before the limit leaves the same world behind whatever the limit is. -/
theorem wait_of_exits (hsinks : order.Harmless)
    (hstarted : w.responses.head? = some (.started script))
    {moment : Time} (hmoment : script.exitMoment? w.now = some moment) :
    ∃ v, (∀ limit, (∀ t ∈ limit, moment < t) →
        (within limit (firstTurn (order.launch w))).finish =
          (v, some (.ok (.over (.ok (order.outcome script)))))) ∧
      v.now = moment ∧ order.Launched w v := by
  obtain ⟨v, hfinish, hnow, hlaunched⟩ := Order.launch_finish_of_started hsinks hstarted hmoment
  have hfollow : (firstTurn (order.launch w)).finish = (order.launch w).finish := by
    rw [firstTurn_launch hstarted, Order.launch_of_head hstarted, Course.finish,
      advanceTo_of_le (w := order.started w) (Nat.le_refl w.now)]
  refine ⟨v, fun limit hlimit => ?_, hnow, hlaunched⟩
  cases limit with
  | none => rw [within_none_finish, hfollow, hfinish]; rfl
  | some t =>
      obtain ⟨v', hbefore, -, -⟩ :=
        Order.follow_before_of_exitMoment hsinks hstarted hmoment (hlimit t rfl)
      rw [← firstTurn_launch hstarted] at hbefore
      have hsame : v' = v := by
        have hends := Course.finish_of_before hbefore
        rw [hfollow, hfinish] at hends
        exact (congrArg Prod.fst hends).symm
      rw [within_finish_of_ended hbefore, hsame]

theorem wait_of_late (hsinks : order.Harmless)
    (hstarted : w.responses.head? = some (.started script))
    (hlate : ¬ ExitsBefore (some t) w.now script) :
    ∃ v, (within (some t) (firstTurn (order.launch w))).finish = (v, some (.ok .cutOff)) ∧
      v.now = max w.now t ∧ order.Launched w v := by
  have htill : ∀ moment, script.exitMoment? w.now = some moment → t ≤ moment := by
    intro moment hmoment
    refine Nat.le_of_not_lt fun hlt => hlate ⟨moment, hmoment, ?_⟩
    rintro t' ⟨⟩
    exact hlt
  obtain ⟨v, hawaits, hnow, hlaunched⟩ := Order.follow_before_of_late hsinks htill
  rw [← firstTurn_launch hstarted] at hawaits
  obtain ⟨v', hfinish, hstill⟩ := within_finish_of_awaits hawaits
  exact ⟨v', hfinish, hstill.now.trans hnow, hlaunched.spares hstill.toSpares⟩

/-- What is seen of each fate by whoever has waited. -/
inductive Waits (order : Order) : Fate → Waited → Prop where
  | refused (reason : String) :
      Waits order .refused (.over (.error (.launchFailed order.program reason)))
  | exited (script : Script) : Waits order (.exited script) (.over (.ok (order.outcome script)))
  | late : Waits order .late .cutOff

theorem wait_fate (hsinks : order.Harmless)
    (hends : limit.isSome = true ∨ (Response.overAt w.now w.responses.head?).isSome = true) :
    ∃ v waited, (within limit (firstTurn (order.launch w))).finish = (v, some (.ok waited)) ∧
      Waits order (fate limit w.now w.responses.head?) waited ∧ order.Launched w v := by
  obtain ⟨script, hscript⟩ | hnot := Response.started_or_not w.responses.head?
  · by_cases hexits : ExitsBefore limit w.now script
    · rw [hscript, fate_of_exits hexits]
      obtain ⟨moment, hmoment, htime⟩ := hexits
      obtain ⟨v, hwait, -, hlaunched⟩ := wait_of_exits hsinks hscript hmoment
      exact ⟨v, _, hwait limit htime, .exited script, hlaunched⟩
    · rw [hscript, fate_of_not_exits hexits]
      cases limit with
      | some t =>
          obtain ⟨v, hwait, -, hlaunched⟩ := wait_of_late hsinks hscript hexits
          exact ⟨v, _, hwait, .late, hlaunched⟩
      | none =>
          -- With nothing to end the wait, a program that exits at all exits in time.
          rw [hscript] at hends
          obtain hlimit | hmoment := hends
          · cases hlimit
          · obtain ⟨moment, hmoment⟩ := Option.isSome_iff_exists.mp hmoment
            exact absurd ⟨moment, hmoment, by simp⟩ hexits
  · rw [fate_of_not_started hnot]
    obtain ⟨v, reason, hwait, -, hlaunched⟩ := wait_of_not_started order hnot
    exact ⟨v, _, hwait limit, .refused reason, hlaunched⟩

end Wait

/-! ### Status checks -/

variable {session : Session} {args : List Value} {sink : Option Sink} {u v w : World}

def statusOrder (session : Session) (args : List Value) : Order where
  program := session.binary
  args

def loginOrder (session : Session) (args : List Value) (sink : Option Sink) : Order where
  program := session.binary
  args
  onStdout := sink
  onStderr := sink

/-- Whether a status check finds a session, by the answer of the system to its launch. -/
def passes (session : Session) : Option Response → Bool
  | some (.started script) =>
    script.exitCode == 0 && session.reportsAuthenticated (script.written .stdout)
  | _ => false

theorem passes_of_not_started {response : Option Response}
    (hnot : ∀ script, response ≠ some (.started script)) : session.passes response = false := by
  unfold passes
  split
  · next script => exact absurd rfl (hnot script)
  · rfl

theorem statusOrder_harmless (session : Session) (args : List Value) :
    (session.statusOrder args).Harmless := by
  intro channel s hs
  cases channel <;> cases hs

theorem loginOrder_harmless (hsink : ∀ s, sink = some s → s.Harmless) (args : List Value) :
    (session.loginOrder args sink).Harmless := by
  intro channel s hs
  cases channel with
  | stdout => exact hsink s hs
  | stderr => exact hsink s hs

theorem succeeded_outcome (order : Order) (script : Script) :
    (order.outcome script).succeeded = (script.exitCode == 0) := by
  rw [Bool.eq_iff_iff, Order.outcome_succeeded, beq_iff_eq]

theorem checkStatus_finish {moment : Time} (hargs : session.statusArgs = .ok args)
    (hmoment : Response.overAt w.now w.responses.head? = some moment) :
    ∃ v, (session.checkStatus w).finish = (v, some (.ok (session.passes w.responses.head?))) ∧
      v.now = moment ∧ (session.statusOrder args).Launched w v := by
  unfold checkStatus
  rw [hargs]
  obtain ⟨script, hscript⟩ | hnot := Response.started_or_not w.responses.head?
  · rw [hscript] at hmoment
    obtain ⟨v, hfinish, hnow, hlaunched⟩ :=
      Order.launch_finish_of_started (session.statusOrder_harmless args) hscript hmoment
    have htold : Still v (v.enter (.session (.status (session.passes w.responses.head?)))) :=
      still_enter v rfl
    refine ⟨_, ?_, htold.now.trans hnow, hlaunched.spares htold.toSpares⟩
    change (((session.statusOrder args).launch w).andThen _).finish = _
    rw [Course.finish_andThen, hfinish, hscript]
    simp only [Course.finish, succeeded_outcome]
    rfl
  · rw [Response.overAt_of_not_started hnot, Option.some.injEq] at hmoment
    obtain ⟨v, reason, hlaunch, hnow, hlaunched⟩ :=
      Order.launch_of_not_started (session.statusOrder args) hnot
    refine ⟨v, ?_, hnow.trans hmoment, hlaunched⟩
    change (((session.statusOrder args).launch w).andThen _).finish = _
    rw [hlaunch, passes_of_not_started hnot]
    rfl

/-! ### After the wait -/

section Settle

variable {patience : Patience} {script : Script}

/-- What is done once the login is no longer waited for. -/
def settle (session : Session) (patience : Patience) (w : World) : Waited → Course LoginMethod
  | .cutOff =>
    fail (.timedOut session.binary.display patience.text)
      (w.enter (.session (.loginTimedOut session.binary)))
  | .over result => session.confirm result w

def calledOff (session : Session) (w : World) : Course LoginMethod :=
  fail (.cancelled session.binary.display)
    ((w.enter (.session (.loginCancelled session.binary))).log .info logger
      (session.binary.display ++ " login cancelled"))

theorem interactive_finish (switch : Option Time) {waited : Waited}
    (hargs : session.loginArgs = .ok args) (hpatience : session.patience = .ok patience)
    (hwait : (within (earlier (patience.deadline w.now) switch) (firstTurn
      ((session.loginOrder args sink).launch
        (w.enter (.session (.loginStarted session.binary)))))).finish = (v, some (.ok waited))) :
    (session.interactive switch sink w).finish =
      (if isThrown switch v then session.calledOff v
        else session.settle patience v waited).finish := by
  unfold interactive
  rw [hargs, hpatience]
  change (Course.bind (within (earlier (patience.deadline w.now) switch) (firstTurn
    ((session.loginOrder args sink).launch
      (w.enter (.session (.loginStarted session.binary)))))) _).finish = _
  rw [Course.bind, Course.finish_andThen, hwait]
  cases waited <;> rfl

theorem settle_refused (program : Value) (reason : String) (w : World) :
    ∃ v, (session.settle patience w (.over (.error (.launchFailed program reason)))).finish =
        (v, some (.error (.login (.manualRequired session.binary.display session.hint)))) ∧
      Still w v :=
  ⟨_, rfl, still_enter w rfl⟩

theorem settle_late (w : World) :
    ∃ v, (session.settle patience w .cutOff).finish =
        (v, some (.error (.login (.timedOut session.binary.display patience.text)))) ∧
      Still w v :=
  ⟨_, rfl, still_enter w rfl⟩

theorem settle_failed (hcode : script.exitCode ≠ 0) (w : World) :
    (session.settle patience w
        (.over (.ok ((session.loginOrder args sink).outcome script)))).finish =
      (w, some (.error (.login (.exited session.binary.display
        (Script.visibleExitCode (some script.exitCode)) (script.written .stderr))))) := by
  have hfailed : ¬ ((session.loginOrder args sink).outcome script).succeeded = true :=
    mt (Order.outcome_succeeded _ script).mp hcode
  rw [settle, confirm]
  rw [if_neg hfailed]
  rfl

/-- A clean exit is followed by the second status check, which has the last word. -/
theorem settle_clean {statusArgs : List Value} {moment : Time} (hcode : script.exitCode = 0)
    (hstatus : session.statusArgs = .ok statusArgs)
    (hmoment : Response.overAt w.now w.responses.head? = some moment) :
    ∃ v, (session.settle patience w
        (.over (.ok ((session.loginOrder args sink).outcome script)))).finish =
          (v, some (if session.passes w.responses.head? then .ok .interactive else
            .error (.login (.notConfirmed session.binary.display (script.written .stderr))))) ∧
      v.now = moment ∧ (session.statusOrder statusArgs).Launched w v := by
  have hclean : ((session.loginOrder args sink).outcome script).succeeded = true :=
    (Order.outcome_succeeded _ script).mpr hcode
  obtain ⟨v, hcheck, hnow, hlaunched⟩ := checkStatus_finish hstatus hmoment
  rw [settle, confirm]
  rw [if_pos hclean, Course.bind, Course.finish_andThen, hcheck]
  cases session.passes w.responses.head? with
  | false => exact ⟨v, rfl, hnow, hlaunched⟩
  | true =>
      have htold : Still v (v.enter (.session (.loginSucceeded session.binary))) :=
        still_enter v rfl
      exact ⟨_, rfl, htold.now.trans hnow, hlaunched.spares htold.toSpares⟩

end Settle

/-! ### The outcome -/

section Outcome

variable {patience : Patience} {statusArgs loginArgs : List Value} {checked : Time}

/-- What a login comes to after a status check that found no session, by the fate of the agent's own
login and the answer of the system to the second check. -/
def conclusion (session : Session) (patience : Patience) (second : Option Response) :
    Fate → Except Fault LoginMethod
  | .refused => .error (.login (.manualRequired session.binary.display session.hint))
  | .late => .error (.login (.timedOut session.binary.display patience.text))
  | .exited script =>
    if script.exitCode ≠ 0 then
      .error (.login (.exited session.binary.display
        (Script.visibleExitCode (some script.exitCode)) (script.written .stderr)))
    else if session.passes second then .ok .interactive
    else .error (.login (.notConfirmed session.binary.display (script.written .stderr)))

theorem conclusion_ne_existing (second : Option Response) (fate : Fate) :
    session.conclusion patience second fate ≠ .ok .existing := by
  cases fate with
  | refused => simp [conclusion]
  | late => simp [conclusion]
  | exited script =>
      rw [conclusion]
      split
      · simp
      · split <;> simp

theorem conclusion_eq_interactive {second : Option Response} {fate : Fate} :
    session.conclusion patience second fate = .ok .interactive ↔
      fate.isClean = true ∧ session.passes second = true := by
  cases fate with
  | refused => simp [conclusion, Fate.isClean]
  | late => simp [conclusion, Fate.isClean]
  | exited script =>
      rw [conclusion, Fate.isClean, beq_iff_eq]
      by_cases hcode : script.exitCode = 0
      · rw [if_neg (not_not_intro hcode)]
        cases session.passes second <;> simp [hcode]
      · rw [if_pos hcode]
        simp [hcode]

theorem settle_conclusion (patience : Patience) {fate : Fate} {waited : Waited}
    (hstatus : session.statusArgs = .ok statusArgs)
    (hwaits : Waits (session.loginOrder loginArgs sink) fate waited)
    (hsecond : ∀ script, w.responses.head? = some (.started script) → script.exit.isSome = true) :
    ∃ w', (session.settle patience w waited).finish =
        (w', some (session.conclusion patience w.responses.head? fate)) ∧
      w'.journal.launched = w.journal.launched ++
        if fate.isClean then [(session.statusOrder statusArgs).spawn] else [] := by
  cases hwaits with
  | refused reason =>
      obtain ⟨w', hsettle, hstill⟩ := settle_refused session.binary reason w
      exact ⟨w', hsettle, by simp [hstill.launched, Fate.isClean]⟩
  | late =>
      obtain ⟨w', hsettle, hstill⟩ := settle_late w
      exact ⟨w', hsettle, by simp [hstill.launched, Fate.isClean]⟩
  | exited script =>
      by_cases hcode : script.exitCode = 0
      · obtain ⟨moment, hmoment⟩ := Response.exists_overAt hsecond w.now
        obtain ⟨w', hsettle, -, hlaunched⟩ := settle_clean hcode hstatus hmoment
        refine ⟨w', ?_, ?_⟩
        · rw [hsettle, conclusion, if_neg (not_not_intro hcode)]
        · simp [hlaunched.launched, Fate.isClean, hcode]
      · refine ⟨w, ?_, ?_⟩
        · rw [settle_failed hcode, conclusion, if_pos hcode]
        · simp [Fate.isClean, hcode]

/-- With nobody to call the login off, its own fate and the second status check decide. -/
theorem interactive_conclusion (hstatus : session.statusArgs = .ok statusArgs)
    (hlogin : session.loginArgs = .ok loginArgs) (hpatience : session.patience = .ok patience)
    (hsink : ∀ s, sink = some s → s.Harmless)
    (hends : (patience.deadline w.now).isSome = true ∨
      (Response.overAt w.now w.responses.head?).isSome = true)
    (hsecond : ∀ script, w.responses[1]? = some (.started script) → script.exit.isSome = true) :
    ∃ w', (session.interactive none sink w).finish = (w', some (session.conclusion patience
        w.responses[1]? (fate (patience.deadline w.now) w.now w.responses.head?))) ∧
      w'.journal.launched = w.journal.launched ++ (session.loginOrder loginArgs sink).spawn ::
        if (fate (patience.deadline w.now) w.now w.responses.head?).isClean then
          [(session.statusOrder statusArgs).spawn]
        else [] := by
  have hbegun : Still w (w.enter (.session (.loginStarted session.binary))) := still_enter w rfl
  obtain ⟨v, waited, hwait, hwaits, hlaunched⟩ := wait_fate
    (w := w.enter (.session (.loginStarted session.binary)))
    (loginOrder_harmless hsink loginArgs) hends
  have hnext : v.responses.head? = w.responses[1]? := by
    rw [hlaunched.responses, hbegun.responses, List.head?_tail]
  rw [← hnext] at hsecond ⊢
  obtain ⟨w', hsettle, hconfirmed⟩ :=
    settle_conclusion patience hstatus hwaits hsecond
  refine ⟨w', ?_, ?_⟩
  · have hlimit : earlier (patience.deadline w.now) none = patience.deadline w.now := by
      cases patience.deadline w.now <;> rfl
    rw [interactive_finish none hlogin hpatience (by rw [hlimit]; exact hwait)]
    exact hsettle
  · rw [hconfirmed, hlaunched.launched, hbegun.launched, List.append_assoc]
    rfl

/-- A login that nobody calls off, whose status checks return and whose wait comes to an end. It
launches nothing but the status check, the login if that found no session, and the check again if
the login exited cleanly. There is a session exactly if one of the checks found it, and otherwise
the fault tells what was in the way. A login that exits at the very moment of the deadline is
late. -/
theorem login_outcome (hstatus : session.statusArgs = .ok statusArgs)
    (hlogin : session.loginArgs = .ok loginArgs) (hpatience : session.patience = .ok patience)
    (hsink : ∀ s, sink = some s → s.Harmless)
    (hfirst : Response.overAt w.now w.responses[0]? = some checked)
    (hends : (patience.deadline checked).isSome = true ∨
      (Response.overAt checked w.responses[1]?).isSome = true)
    (hsecond : ∀ script, w.responses[2]? = some (.started script) → script.exit.isSome = true) :
    ∃ w' result, (session.login none sink w).finish = (w', some result) ∧
      (w'.journal.launched = w.journal.launched ++
        { command := session.binary :: statusArgs, cwd := none } ::
          if session.passes w.responses[0]? then []
          else { command := session.binary :: loginArgs, cwd := none } ::
            if (fate (patience.deadline checked) checked w.responses[1]?).isClean then
              [{ command := session.binary :: statusArgs, cwd := none }]
            else []) ∧
      (result = .ok .existing ↔ session.passes w.responses[0]? = true) ∧
      (result = .ok .interactive ↔ session.passes w.responses[0]? = false ∧
        (fate (patience.deadline checked) checked w.responses[1]?).isClean = true ∧
        session.passes w.responses[2]? = true) ∧
      (session.passes w.responses[0]? = false →
        (fate (patience.deadline checked) checked w.responses[1]? = .refused →
          result = .error (.login (.manualRequired session.binary.display session.hint))) ∧
        (fate (patience.deadline checked) checked w.responses[1]? = .late →
          result = .error (.login (.timedOut session.binary.display patience.text))) ∧
        ∀ script, fate (patience.deadline checked) checked w.responses[1]? = .exited script →
          (script.exitCode ≠ 0 →
            result = .error (.login (.exited session.binary.display
              (Script.visibleExitCode (some script.exitCode)) (script.written .stderr)))) ∧
          (script.exitCode = 0 → session.passes w.responses[2]? = false →
            result = .error (.login (.notConfirmed session.binary.display
              (script.written .stderr))))) := by
  rw [← List.head?_eq_getElem?] at hfirst ⊢
  obtain ⟨v, hcheck, hnow, hlaunched⟩ := checkStatus_finish hstatus hfirst
  unfold login
  rw [Course.bind, Course.finish_andThen, hcheck]
  cases hpasses : session.passes w.responses.head? with
  | true => exact ⟨v, .ok .existing, rfl, hlaunched.launched, by simp, by simp, by simp⟩
  | false =>
      have hnext (i : Nat) : v.responses[i]? = w.responses[i + 1]? := by
        rw [hlaunched.responses, List.getElem?_tail]
      rw [← hnow, ← hnext 0] at hends
      rw [← hnext 1] at hsecond
      obtain ⟨w', hinteractive, hrest⟩ :=
        interactive_conclusion hstatus hlogin hpatience hsink
          (by rw [List.head?_eq_getElem?]; exact hends) hsecond
      rw [List.head?_eq_getElem?, hnext 0, hnext 1, hnow] at hinteractive
      rw [List.head?_eq_getElem?, hnext 0, hnow] at hrest
      refine ⟨w', _, hinteractive, ?_, ?_, ?_, ?_⟩
      · rw [hrest, hlaunched.launched, List.append_assoc]
        rfl
      · exact iff_of_false (conclusion_ne_existing _ _) Bool.false_ne_true
      · rw [conclusion_eq_interactive]
        simp
      · intro _
        refine ⟨?_, ?_, ?_⟩
        · intro hfate
          rw [hfate, conclusion]
        · intro hfate
          rw [hfate, conclusion]
        · intro script hfate
          rw [hfate, conclusion]
          constructor
          · intro hcode
            rw [if_pos hcode]
          · intro hcode hunconfirmed
            rw [if_neg (not_not_intro hcode), hunconfirmed]
            rfl

/-- A session that a status check reports with the word `ok`. -/
def agent : Session where
  binary := .text "agent"
  statusArgs := .ok [.text "status"]
  loginArgs := .ok [.text "login"]
  patience := .ok (.seconds (.ofNat 120))
  authenticated := .both (.char 'o') (.char 'k')
  unauthenticated := some (.both (.char 'n') (.char 'o'))
  hint := .null

/-- The first status check fails and the login exits cleanly; the second check takes its time to
report a session. -/
def newcomer : World where
  responses := [.refused "busy", .started { exit := some (Time.milliseconds 100) },
    .started { stdout := some [⟨0, [0x4f, 0x4b]⟩], exit := some (Time.milliseconds 100) }]

theorem login_outcome_of_newcomer :
    ∃ w', (agent.login none (some (.recording .stdout fun _ => none)) newcomer).finish =
        (w', some (.ok .interactive)) ∧
      w'.journal.launched = [["agent", "status"], ["agent", "login"], ["agent", "status"]].map
        fun words => { command := words.map Value.text, cwd := none } := by
  have hsink : ∀ s, some (Sink.recording .stdout fun _ => none) = some s → s.Harmless := by
    rintro s ⟨⟩
    exact Sink.recording_harmless .stdout
  have hends : ((Patience.seconds (.ofNat 120)).deadline 0).isSome = true ∨
      (Response.overAt 0 newcomer.responses[1]?).isSome = true := Or.inl (by decide +kernel)
  have hsecond : ∀ script, newcomer.responses[2]? = some (.started script) →
      script.exit.isSome = true := by
    rintro script ⟨⟩
    rfl
  obtain ⟨w', result, hfinish, hlaunched, -, hinteractive, -⟩ :=
    @login_outcome agent _ newcomer _ _ _ 0 rfl rfl rfl hsink rfl hends hsecond
  have hclean : (fate ((Patience.seconds (.ofNat 120)).deadline 0) 0
      newcomer.responses[1]?).isClean = true := by decide +kernel
  have hfound : agent.passes newcomer.responses[2]? = true := by decide +kernel
  obtain rfl := hinteractive.mpr ⟨rfl, hclean, hfound⟩
  refine ⟨w', hfinish, ?_⟩
  rw [hlaunched, hclean]
  rfl

end Outcome

end Session

end Conductor
