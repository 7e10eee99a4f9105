import Conductor.Proofs.Session.Login

/-!
Calling a login off. The switch is looked at after the first status check and once the login is no
longer waited for, and it ends the wait; nobody looks at it after that. So a switch calls the login
off if it is thrown while that is waited for, and goes unnoticed if it is thrown later, when only
the second status check may still be running.
-/

namespace Conductor

open World

namespace Session

variable {session : Session} {patience : Patience} {statusArgs loginArgs : List Value}
  {sink : Option Sink} {checked switch : Time} {w : World}

theorem forall_mem_earlier {s : Time} (a b : Option Time) :
    (∀ t ∈ earlier a b, s ≤ t) ↔ (∀ t ∈ a, s ≤ t) ∧ ∀ t ∈ b, s ≤ t := by
  cases a <;> cases b <;> simp [earlier]

theorem exists_mem_earlier {s : Time} (a b : Option Time) :
    (∃ t ∈ earlier a b, t < s) ↔ (∃ t ∈ a, t < s) ∨ ∃ t ∈ b, t < s := by
  cases a <;> cases b <;> simp [earlier]

/-- The moment until which a login is waited for that starts at `now`: until it is over, or until
patience runs out. -/
def waitEnd (patience : Patience) (now : Time) (response : Option Response) : Option Time :=
  earlier (Response.overAt now response) ((patience.deadline now).map (max now))

/-- If the wait ends before the switch is thrown, it ends as it would without the switch. -/
theorem wait_unnoticed (hnow : w.now < switch)
    (hlater : ∃ t ∈ waitEnd patience w.now w.responses.head?, t < switch) (order : Order)
    (hsinks : order.Harmless) :
    ∃ v waited,
      (within (earlier (patience.deadline w.now) (some switch))
        (firstTurn (order.launch w))).finish = (v, some (.ok waited)) ∧
      (within (patience.deadline w.now) (firstTurn (order.launch w))).finish =
        (v, some (.ok waited)) ∧
      v.now < switch ∧
      Waits order (fate (patience.deadline w.now) w.now w.responses.head?) waited := by
  obtain ⟨script, hscript⟩ | hnot := Response.started_or_not w.responses.head?
  · rw [hscript]
    by_cases hsoon : ∃ d ∈ patience.deadline w.now, max w.now d < switch
    · -- Patience runs out first, so the switch does not shorten the wait.
      obtain ⟨d, hd, hlt⟩ := hsoon
      rw [Option.mem_def.mp hd]
      have hlimit : earlier (some d) (some switch) = some d := by
        rw [earlier, Nat.min_eq_left (Nat.le_of_lt (Nat.max_lt.mp hlt).2)]
      rw [hlimit]
      by_cases hexits : ExitsBefore (some d) w.now script
      · rw [fate_of_exits hexits]
        obtain ⟨moment, hmoment, hbefore⟩ := hexits
        obtain ⟨v, hwait, hend, -⟩ := wait_of_exits hsinks hscript hmoment
        refine ⟨v, _, hwait _ hbefore, hwait _ hbefore, ?_, .exited script⟩
        rw [hend]
        exact Nat.lt_trans (hbefore d rfl) (Nat.max_lt.mp hlt).2
      · rw [fate_of_not_exits hexits]
        obtain ⟨v, hwait, hend, -⟩ := wait_of_late hsinks hscript hexits
        exact ⟨v, _, hwait, hwait, by rw [hend]; exact hlt, .late⟩
    · -- The program exits first, and neither limit comes before that.
      have hpatient : ∀ d ∈ patience.deadline w.now, switch ≤ d := by
        intro d hd
        have hle : switch ≤ max w.now d := Nat.le_of_not_lt fun hlt => hsoon ⟨d, hd, hlt⟩
        exact (le_max_iff.mp hle).resolve_left (Nat.not_le_of_lt hnow)
      obtain ⟨moment, hmoment, hlt⟩ : ∃ moment ∈ script.exitMoment? w.now, moment < switch := by
        obtain hmoment | ⟨t, ht, hlt⟩ := (exists_mem_earlier _ _).mp hlater
        · rw [hscript] at hmoment
          exact hmoment
        · obtain ⟨d, hd, rfl⟩ := Option.map_eq_some_iff.mp ht
          exact absurd ⟨d, hd, hlt⟩ hsoon
      have hbefore : ∀ d ∈ patience.deadline w.now, moment < d := by
        intro d hd
        exact Nat.lt_of_lt_of_le hlt (hpatient d hd)
      have hbefore' : ∀ t ∈ earlier (patience.deadline w.now) (some switch), moment < t := by
        refine (forall_mem_earlier (s := moment + 1) _ _).mpr ⟨hbefore, ?_⟩
        rintro t ⟨⟩
        exact hlt
      rw [fate_of_exits ⟨moment, hmoment, hbefore⟩]
      obtain ⟨v, hwait, hend, -⟩ := wait_of_exits hsinks hscript hmoment
      exact ⟨v, _, hwait _ hbefore', hwait _ hbefore, by rw [hend]; exact hlt, .exited script⟩
  · rw [fate_of_not_started hnot]
    obtain ⟨v, reason, hwait, hend, -⟩ := wait_of_not_started order hnot
    exact ⟨v, _, hwait _, hwait _, by rw [hend]; exact hnow, .refused reason⟩

/-- Only a clean exit is followed by anything that takes time. -/
theorem settle_now {fate : Fate} {waited : Waited}
    (hwaits : Waits (session.loginOrder loginArgs sink) fate waited)
    (hclean : fate.isClean = false) :
    (session.settle patience w waited).finish.1.now = w.now := by
  cases hwaits with
  | refused reason => rfl
  | late => rfl
  | exited script =>
      have hcode : script.exitCode ≠ 0 := by simpa [Fate.isClean] using hclean
      rw [settle_failed hcode]

section Interactive

variable (hlogin : session.loginArgs = .ok loginArgs) (hpatience : session.patience = .ok patience)
  (hsink : ∀ s, sink = some s → s.Harmless)

include hlogin hpatience hsink

/-- A switch that is thrown no later than the wait would end is what ends it. -/
theorem interactive_cancelled (hnow : w.now < switch)
    (hearly : ∀ t ∈ waitEnd patience w.now w.responses.head?, switch ≤ t) :
    ∃ w', (session.interactive (some switch) sink w).finish =
      (w', some (.error (.login (.cancelled session.binary.display)))) := by
  obtain ⟨hmoment, hdeadline⟩ := (forall_mem_earlier _ _).mp hearly
  obtain ⟨script, hscript⟩ | hnot := Response.started_or_not w.responses.head?
  · have hlate : ¬ ExitsBefore (some switch) w.now script := by
      rintro ⟨moment, hexit, hbefore⟩
      rw [hscript] at hmoment
      exact Nat.not_lt_of_le (hmoment moment hexit) (hbefore switch rfl)
    have hlimit : earlier (patience.deadline w.now) (some switch) = some switch := by
      cases hd : patience.deadline w.now with
      | none => rfl
      | some d =>
          have hle : switch ≤ max w.now d := hdeadline _ (by rw [hd]; rfl)
          have hle' : switch ≤ d := (le_max_iff.mp hle).resolve_left (Nat.not_le_of_lt hnow)
          rw [earlier, Nat.min_eq_right hle']
    obtain ⟨v, hwait, hend, -⟩ := wait_of_late
      (w := w.enter (.session (.loginStarted session.binary)))
      (loginOrder_harmless hsink loginArgs) hscript hlate
    have hthrown : isThrown (some switch) v = true := by
      rw [isThrown, hend]
      simp
    rw [interactive_finish (some switch) hlogin hpatience (by rw [hlimit]; exact hwait),
      if_pos hthrown]
    exact ⟨_, rfl⟩
  · rw [Response.overAt_of_not_started hnot] at hmoment
    exact absurd (hmoment w.now rfl) (Nat.not_le_of_lt hnow)

theorem interactive_unnoticed (hnow : w.now < switch)
    (hlater : ∃ t ∈ waitEnd patience w.now w.responses.head?, t < switch) :
    (session.interactive (some switch) sink w).finish =
        (session.interactive none sink w).finish ∧
      ((fate (patience.deadline w.now) w.now w.responses.head?).isClean = false →
        (session.interactive none sink w).finish.1.now < switch) := by
  obtain ⟨v, waited, hwait, hwait', hend, hwaits⟩ := wait_unnoticed
    (w := w.enter (.session (.loginStarted session.binary))) hnow hlater
    (session.loginOrder loginArgs sink) (loginOrder_harmless hsink loginArgs)
  have hlimit : earlier (patience.deadline w.now) none = patience.deadline w.now := by
    cases patience.deadline w.now <;> rfl
  have hunthrown : ¬ isThrown (some switch) v = true := by
    simpa [isThrown] using hend
  have hnothing : ¬ isThrown none v = true := Bool.false_ne_true
  rw [interactive_finish (w := w) (some switch) hlogin hpatience hwait, if_neg hunthrown,
    interactive_finish (w := w) none hlogin hpatience (by rw [hlimit]; exact hwait'),
    if_neg hnothing]
  refine ⟨rfl, ?_⟩
  intro hclean
  rw [settle_now hwaits hclean]
  exact hend

end Interactive

theorem le_waitEnd {now t : Time} {response : Option Response}
    (ht : t ∈ waitEnd patience now response) : now ≤ t := by
  have hall : ∀ t ∈ waitEnd patience now response, now ≤ t := by
    refine (forall_mem_earlier _ _).mpr ⟨?_, ?_⟩
    · intro moment hmoment
      obtain ⟨script, rfl⟩ | hnot := Response.started_or_not response
      · obtain ⟨time, -, rfl⟩ := Option.map_eq_some_iff.mp hmoment
        exact Nat.le_max_left _ _
      · rw [Response.overAt_of_not_started hnot] at hmoment
        exact Nat.le_of_eq (Option.some.inj hmoment)
    · intro d hd
      obtain ⟨d', -, rfl⟩ := Option.map_eq_some_iff.mp hd
      exact Nat.le_max_left _ _
  exact hall t ht

/-- What a switch does to a login whose first status check has found no session. Thrown no later
than the wait for the agent's own login ends, it calls the login off, and there is no session.
Thrown later it changes nothing at all: unless the login has exited cleanly the call is over by
then, and if it has, the second status check decides as it would have done without the switch. -/
theorem login_switch (switch : Time) (hstatus : session.statusArgs = .ok statusArgs)
    (hlogin : session.loginArgs = .ok loginArgs) (hpatience : session.patience = .ok patience)
    (hsink : ∀ s, sink = some s → s.Harmless)
    (hfirst : Response.overAt w.now w.responses[0]? = some checked)
    (hnone : session.passes w.responses[0]? = false) :
    ((∀ t ∈ waitEnd patience checked w.responses[1]?, switch ≤ t) →
      ∃ w', (session.login (some switch) sink w).finish =
        (w', some (.error (.login (.cancelled session.binary.display))))) ∧
    ((∃ t ∈ waitEnd patience checked w.responses[1]?, t < switch) →
      (session.login (some switch) sink w).finish = (session.login none sink w).finish ∧
      ((fate (patience.deadline checked) checked w.responses[1]?).isClean = false →
        (session.login none sink w).finish.1.now < switch)) := by
  rw [← List.head?_eq_getElem?] at hfirst hnone
  obtain ⟨v, hcheck, rfl, hlaunched⟩ := checkStatus_finish hstatus hfirst
  have hnext : w.responses[1]? = v.responses.head? := by
    rw [hlaunched.responses, List.head?_tail]
  have hgoes (switch : Option Time) : (session.login switch sink w).finish =
      (if isThrown switch v then fail (.cancelled session.binary.display) v
        else session.interactive switch sink v).finish := by
    unfold login
    rw [Course.bind, Course.finish_andThen, hcheck, hnone]
    rfl
  rw [hnext]
  constructor
  · intro hearly
    rw [hgoes]
    by_cases hthrown : isThrown (some switch) v = true
    · rw [if_pos hthrown]
      exact ⟨v, rfl⟩
    · rw [if_neg hthrown]
      have hnow : v.now < switch := by simpa [isThrown] using hthrown
      exact interactive_cancelled hlogin hpatience hsink hnow hearly
  · intro hlater
    obtain ⟨t, ht, hlt⟩ := hlater
    have hnow : v.now < switch := Nat.lt_of_le_of_lt (le_waitEnd ht) hlt
    have hunthrown : ¬ isThrown (some switch) v = true := by simpa [isThrown] using hnow
    have hnothing : ¬ isThrown none v = true := Bool.false_ne_true
    rw [hgoes, hgoes, if_neg hunthrown, if_neg hnothing]
    exact interactive_unnoticed hlogin hpatience hsink hnow ⟨t, ht, hlt⟩

/-- The switch is thrown while the second status check runs, and there is a session all the same. -/
theorem login_switch_of_newcomer :
    (agent.login (some (Time.milliseconds 150)) none newcomer).finish.2 = some (.ok .interactive) ∧
      Time.milliseconds 150 <
        (agent.login (some (Time.milliseconds 150)) none newcomer).finish.1.now := by
  have hsink : ∀ s, (none : Option Sink) = some s → s.Harmless := by simp
  have hlater : ∃ t ∈ waitEnd (.seconds (.ofNat 120)) 0 newcomer.responses[1]?,
      t < Time.milliseconds 150 := by decide +kernel
  obtain ⟨hsame, -⟩ := (@login_switch agent _ _ _ none 0 newcomer (Time.milliseconds 150)
    rfl rfl rfl hsink rfl rfl).2 hlater
  rw [hsame]
  decide +kernel

end Session

end Conductor
