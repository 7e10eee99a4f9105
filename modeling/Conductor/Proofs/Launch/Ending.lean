import Conductor.Proofs.Launch.Output
import Conductor.Proofs.Time.Elapsed
import Mathlib.Order.MinMax

/-!
How a launch ends that nobody interferes with. A program that exits is read to its end, and the
launch is over at the moment of the exit; a program that does not exit keeps its caller waiting. So
whether a launch is over before a given moment can be told from the script alone.
-/

namespace Conductor

open World

/-! ### Courses left alone -/

namespace Course

variable {α β : Type} {t : Time} {v w : World} {due : Time} {go : World → Course α}
  {stop : World → String → Course α}

theorem finish_andThen (c : Course α) (next : World → Except Fault α → Course β) :
    (c.andThen next).finish =
      match c.finish with
      | (w, some r) => (next w r).finish
      | (w, none) => (w, none) := by
  induction c with
  | ended w r => rfl
  | waiting w due go stop ihgo ihstop => exact ihgo _
  | hanging w stop ihstop => rfl

theorem before_waiting_of_lt (hlt : due < t) :
    (waiting w due go stop).before t = (go (w.advanceTo due)).before t := by
  rw [before, if_pos hlt]

theorem before_waiting_of_not_lt (hnot : ¬ due < t) :
    (waiting w due go stop).before t = waiting (w.advanceTo t) due go stop := by
  rw [before, if_neg hnot]

/-- What has ended before some moment has ended for good. -/
theorem finish_of_before {c : Course α} {r : Except Fault α} (hbefore : c.before t = ended v r) :
    c.finish = (v, some r) := by
  induction c with
  | ended w s =>
      obtain ⟨rfl, rfl⟩ : w = v ∧ s = r := by simpa [before] using hbefore
      rfl
  | waiting w due go stop ihgo ihstop =>
      by_cases hlt : due < t
      · rw [before_waiting_of_lt hlt] at hbefore
        exact ihgo _ hbefore
      · rw [before_waiting_of_not_lt hlt] at hbefore
        cases hbefore
  | hanging w stop ihstop => cases hbefore

end Course

/-! ### What a launch leaves alone -/

namespace World

/-- From the first world to the second nothing was launched. -/
structure Spares (u v : World) : Prop where
  responses : v.responses = u.responses
  launched : v.journal.launched = u.journal.launched

/-- Nothing was launched, and no time has passed. -/
structure Still (u v : World) : Prop extends Spares u v where
  now : v.now = u.now

theorem Spares.trans {u v w : World} (huv : Spares u v) (hvw : Spares v w) : Spares u w :=
  ⟨hvw.responses.trans huv.responses, hvw.launched.trans huv.launched⟩

theorem Still.refl (w : World) : Still w w := ⟨⟨rfl, rfl⟩, rfl⟩

theorem Still.trans {u v w : World} (huv : Still u v) (hvw : Still v w) : Still u w :=
  ⟨huv.toSpares.trans hvw.toSpares, hvw.now.trans huv.now⟩

theorem still_enter (w : World) {entry : Entry} (hentry : entry.spawn? = none) :
    Still w (w.enter entry) := by
  refine ⟨⟨rfl, ?_⟩, rfl⟩
  simp [enter, Journal.launched, Journal.seen_cons, hentry]

theorem spares_advanceTo (w : World) (t : Time) : Spares w (w.advanceTo t) := ⟨rfl, rfl⟩

theorem advanceTo_of_le {w : World} {t : Time} (hle : t ≤ w.now) : w.advanceTo t = w := by
  cases w
  simp [advanceTo, Nat.max_eq_left hle]

end World

namespace Sink

/-- A sink that does not fail, takes no time and launches nothing. -/
structure Harmless (sink : Sink) : Prop where
  quiet : ∀ text w, (sink text w).2 = none
  still : ∀ text w, Still w (sink text w).1

theorem recording_harmless (channel : Channel) : (recording channel fun _ => none).Harmless :=
  ⟨fun _ _ => rfl, fun _ w => still_enter w rfl⟩

theorem hand_harmless {sink : Option Sink} (hsink : ∀ s, sink = some s → s.Harmless)
    (chunks : List (List Char)) (w : World) :
    (hand sink chunks w).2 = none ∧ Still w (hand sink chunks w).1 := by
  fun_induction hand sink chunks w with
  | case1 => exact ⟨rfl, .refl _⟩
  | case2 => exact ⟨rfl, .refl _⟩
  | case3 sink chunk rest w v hchunk ih =>
      have hfirst := (hsink sink rfl).still (String.ofList chunk) w
      rw [hchunk] at hfirst
      exact ⟨(ih hsink).1, hfirst.trans (ih hsink).2⟩
  | case4 sink chunk rest w v fault hchunk =>
      have hquiet := (hsink sink rfl).quiet (String.ofList chunk) w
      rw [hchunk] at hquiet
      cases hquiet

end Sink

/-- The sinks of an order are harmless. -/
def Order.Harmless (order : Order) : Prop :=
  ∀ channel s, order.sink channel = some s → s.Harmless

/-! ### Following a program to its exit -/

namespace Script

theorem exists_isLast {script : Script} {exit : Time} (hexit : script.exitTime? = some exit) :
    ∃ turn ∈ script.turns, turn.isLast = true := by
  refine ⟨script.turnAt exit, ?_, by simp [turnAt, hexit]⟩
  rw [turns_eq, times, hexit]
  exact List.mem_map_of_mem (mem_insertTime.mpr (Or.inl rfl))

theorem turn_le_exit {script : Script} {exit : Time} (hexit : script.exitTime? = some exit)
    {turn : Turn} (hturn : turn ∈ script.turns) : turn.time ≤ exit := by
  rw [turns_eq] at hturn
  obtain ⟨t, ht, rfl⟩ := List.mem_map.mp hturn
  exact le_exitTime hexit ht

/-- The moment at which a program that is launched at `now` is seen to have exited. -/
def exitMoment? (script : Script) (now : Time) : Option Time :=
  script.exitTime?.map fun t => max now (Time.after now t)

end Script

theorem Pump.turn_closes (size : ReadSize) (bytes : List UInt8) (pump : Pump) :
    (pump.turn size bytes true).1.isOpen = false := by
  unfold turn
  cases hopen : pump.isOpen with
  | false => simpa using hopen
  | true => cases size <;> simp

namespace Child

variable {child : Child} {pumps : Pumps} {t exit : Time} {v w : World} {c : Course Outcome}

/-- When the program exits, if it does. -/
def exit? (child : Child) : Option Time := child.script.exitTime?.map (Time.after child.born)

theorem hasExited_iff :
    child.hasExited w = true ↔ ∃ exit, child.exit? = some exit ∧ exit ≤ w.now := by
  unfold hasExited exit?
  cases child.script.exitTime? <;> simp

/-- The course has come to the world `v`, where it waits for the program. -/
def Awaits (child : Child) (v : World) (c : Course Outcome) : Prop :=
  (∃ due go, c = .waiting v due go child.stopped) ∨ c = .hanging v child.stopped

theorem abandon_ended (child : Child) (fault : Fault) (w : World) :
    ∃ v, child.abandon fault w = .ended v (.error fault) ∧ Still w v := by
  have htold : Still w (w.enter (.launch (.killed child.order.program child.pid fault.name))) :=
    still_enter w rfl
  refine ⟨_, rfl, ?_⟩
  split
  · exact htold.trans (still_enter _ rfl)
  · exact (htold.trans (still_enter _ rfl)).trans (still_enter _ rfl)

theorem conclude_ended (child : Child) (pumps : Pumps) (w : World) :
    ∃ v outcome, child.conclude pumps w = .ended v (.ok outcome) ∧ Still w v :=
  ⟨_, _, rfl, still_enter w rfl⟩

theorem read_harmless (hsinks : child.order.Harmless) (turn : Turn) (pumps : Pumps) (w : World) :
    (child.read turn pumps w).2.2 = none ∧ Still w (child.read turn pumps w).2.1 := by
  have hstdout : ∀ s, child.order.onStdout = some s → s.Harmless := hsinks .stdout
  have hstderr : ∀ s, child.order.onStderr = some s → s.Harmless := hsinks .stderr
  obtain ⟨hnone, hfirst⟩ := Sink.hand_harmless hstdout (child.fresh turn pumps .stdout) w
  obtain ⟨hnone', hsecond⟩ := Sink.hand_harmless hstderr (child.fresh turn pumps .stderr)
    (Sink.hand child.order.onStdout (child.fresh turn pumps .stdout) w).1
  rw [read_sinks]
  exact ⟨by rw [hnone, hnone']; rfl, hfirst.trans hsecond⟩

theorem read_isDone {turn : Turn} (hlast : turn.isLast = true) :
    (child.read turn pumps w).1.isDone = true := by
  have hclosed (channel : Channel) : ((child.read turn pumps w).1.pump channel).isOpen = false := by
    rw [read_pump, hlast]
    exact Pump.turn_closes _ _ _
  have hstdout : (child.read turn pumps w).1.stdout.isOpen = false := hclosed .stdout
  have hstderr : (child.read turn pumps w).1.stderr.isOpen = false := hclosed .stderr
  simp [Pumps.isDone, hstdout, hstderr]

/-- What is left to wait for after a turn of the readers. -/
def afterTurn (child : Child) (pumps : Pumps) (rest : List Turn) (u : World) : Course Outcome :=
  if pumps.isDone then .waiting u u.now (child.reap pumps) child.stopped
  else
    match rest with
    | [] => .hanging u child.stopped
    | next :: _ =>
      .waiting u (Time.after child.born next.time) (fun w => child.follow pumps rest w)
        child.stopped

/-- With harmless sinks, a turn takes no time and launches nothing. -/
theorem follow_cons (hsinks : child.order.Harmless) (pumps : Pumps) (turn : Turn)
    (rest : List Turn) (w : World) :
    ∃ pumps' u, child.follow pumps (turn :: rest) w = child.afterTurn pumps' rest u ∧ Still w u ∧
      (turn.isLast = true → pumps'.isDone = true) := by
  obtain ⟨hnone, hstill⟩ := read_harmless hsinks turn pumps w
  refine ⟨(child.read turn pumps w).1, (child.read turn pumps w).2.1, ?_, hstill, read_isDone⟩
  unfold follow
  cases hread : child.read turn pumps w with
  | mk pumps' after =>
      obtain ⟨u, fault⟩ := after
      rw [hread] at hnone
      cases hnone
      cases rest <;> rfl

theorem reap_before_of_exit (pumps : Pumps) (hexit : child.exit? = some exit)
    (hlt : max w.now exit < t) :
    ∃ v outcome, (child.reap pumps w).before t = .ended v (.ok outcome) ∧
      v.now = max w.now exit ∧ Spares w v := by
  unfold reap
  by_cases hgone : child.hasExited w = true
  · obtain ⟨exit', hexit', hle⟩ := hasExited_iff.mp hgone
    rw [hexit] at hexit'
    cases hexit'
    obtain ⟨v, outcome, hconclude, hstill⟩ := child.conclude_ended pumps w
    rw [if_pos hgone, hconclude]
    exact ⟨v, outcome, rfl, by rw [hstill.now, Nat.max_eq_left hle], hstill.toSpares⟩
  · obtain ⟨time, htime, rfl⟩ := Option.map_eq_some_iff.mp hexit
    obtain ⟨v, outcome, hconclude, hstill⟩ :=
      child.conclude_ended pumps (w.advanceTo (Time.after child.born time))
    rw [if_neg hgone, htime]
    refine ⟨v, outcome, ?_, hstill.now, (spares_advanceTo w _).trans hstill.toSpares⟩
    simp only
    rw [Course.before_waiting_of_lt (Nat.max_lt.mp hlt).2, hconclude]
    rfl

theorem reap_before_of_late (pumps : Pumps) (hnow : w.now < t)
    (hlate : ∀ exit, child.exit? = some exit → t ≤ max w.now exit) :
    child.Awaits (w.advanceTo t) ((child.reap pumps w).before t) := by
  have hhere : ¬ child.hasExited w = true := by
    intro hgone
    obtain ⟨exit, hexit, hle⟩ := hasExited_iff.mp hgone
    have htill : t ≤ w.now := Nat.max_eq_left hle ▸ hlate exit hexit
    exact Nat.not_lt_of_le htill hnow
  unfold reap
  rw [if_neg hhere]
  cases htime : child.script.exitTime? with
  | none => exact Or.inr rfl
  | some time =>
      have hdue : ¬ Time.after child.born time < t := by
        intro hlt
        have htill := hlate (Time.after child.born time) (by rw [exit?, htime]; rfl)
        exact Nat.not_lt_of_le htill (Nat.max_lt.mpr ⟨hnow, hlt⟩)
      simp only
      rw [Course.before_waiting_of_not_lt hdue]
      exact Or.inl ⟨_, _, rfl⟩

/-- A program that exits before the moment `t` has been read to its end by then. -/
theorem follow_before_of_exit (hsinks : child.order.Harmless) (pumps : Pumps) {turns : List Turn}
    {time : Time} (htime : child.script.exitTime? = some time)
    (hturns : ∀ turn ∈ turns, turn.time ≤ time) (hlast : ∃ turn ∈ turns, turn.isLast = true)
    (hlt : max w.now (Time.after child.born time) < t) :
    ∃ v outcome, (child.follow pumps turns w).before t = .ended v (.ok outcome) ∧
      v.now = max w.now (Time.after child.born time) ∧ Spares w v := by
  have hexit : child.exit? = some (Time.after child.born time) := by rw [exit?, htime]; rfl
  induction turns generalizing pumps w with
  | nil => simp at hlast
  | cons turn rest ih =>
      obtain ⟨pumps', u, hfollow, hstill, hdone⟩ := follow_cons hsinks pumps turn rest w
      rw [hfollow]
      unfold afterTurn
      by_cases hclosed : pumps'.isDone = true
      · have hnow : u.now < t := hstill.now ▸ (Nat.max_lt.mp hlt).1
        obtain ⟨v, outcome, hreap, hend, hspares⟩ :=
          reap_before_of_exit (w := u) (t := t) pumps' hexit (by rw [hstill.now]; exact hlt)
        refine ⟨v, outcome, ?_, by rw [hend, hstill.now], hstill.toSpares.trans hspares⟩
        rw [if_pos hclosed, Course.before_waiting_of_lt hnow, advanceTo_of_le (Nat.le_refl _),
          hreap]
      · -- The pipes are open, so the last turn is still to come.
        have hlater : ∃ later ∈ rest, later.isLast = true := by
          obtain ⟨last, hmem, htrue⟩ := hlast
          rcases List.mem_cons.mp hmem with rfl | hmem
          · exact absurd (hdone htrue) hclosed
          · exact ⟨last, hmem, htrue⟩
        rw [if_neg hclosed]
        cases rest with
        | nil => simp at hlater
        | cons next more =>
            have hdue : Time.after child.born next.time ≤ Time.after child.born time :=
              Time.after_mono _ (hturns next (by simp))
            have hmax : max (u.advanceTo (Time.after child.born next.time)).now
                (Time.after child.born time) = max w.now (Time.after child.born time) := by
              simp only [advanceTo, hstill.now]
              rw [Nat.max_assoc, Nat.max_eq_right hdue]
            obtain ⟨v, outcome, hrest, hend, hspares⟩ :=
              ih pumps' (fun later hmem => hturns later (List.mem_cons_of_mem _ hmem)) hlater
                (by rw [hmax]; exact hlt)
            have hsoon := Nat.lt_of_le_of_lt hdue (Nat.max_lt.mp hlt).2
            refine ⟨v, outcome, ?_, by rw [hend, hmax],
              hstill.toSpares.trans ((spares_advanceTo u _).trans hspares)⟩
            simp only
            rw [Course.before_waiting_of_lt hsoon, hrest]

/-- A program that does not exit before the moment `t` is still waited for then. -/
theorem follow_before_of_late (hsinks : child.order.Harmless) (pumps : Pumps) (turns : List Turn)
    (hlate : ∀ exit, child.exit? = some exit → t ≤ max w.now exit) :
    ∃ v, child.Awaits v ((child.follow pumps turns w).before t) ∧ v.now = max w.now t ∧
      Spares w v := by
  induction turns generalizing pumps w with
  | nil => exact ⟨_, Or.inr rfl, rfl, spares_advanceTo w t⟩
  | cons turn rest ih =>
      obtain ⟨pumps', u, hfollow, hstill, -⟩ := follow_cons hsinks pumps turn rest w
      have hpause : (u.advanceTo t).now = max w.now t ∧ Spares w (u.advanceTo t) :=
        ⟨by simp [advanceTo, hstill.now], hstill.toSpares.trans (spares_advanceTo u t)⟩
      rw [hfollow]
      unfold afterTurn
      split
      · by_cases hlt : u.now < t
        · rw [Course.before_waiting_of_lt hlt, advanceTo_of_le (Nat.le_refl _)]
          refine ⟨_, reap_before_of_late pumps' hlt ?_, hpause⟩
          rw [hstill.now]
          exact hlate
        · rw [Course.before_waiting_of_not_lt hlt]
          exact ⟨_, Or.inl ⟨_, _, rfl⟩, hpause⟩
      · cases rest with
        | nil => exact ⟨_, Or.inr rfl, hpause⟩
        | cons next more =>
            simp only
            by_cases hlt : Time.after child.born next.time < t
            · have hlate' : ∀ exit, child.exit? = some exit →
                  t ≤ max (u.advanceTo (Time.after child.born next.time)).now exit := by
                intro exit hexit
                simp only [advanceTo, hstill.now, Nat.max_assoc]
                exact Nat.le_trans (hlate exit hexit)
                  (max_le_max (Nat.le_refl _) (Nat.le_max_right _ _))
              obtain ⟨v, hawaits, hend, hspares⟩ := ih pumps' hlate'
              rw [Course.before_waiting_of_lt hlt]
              refine ⟨v, hawaits, ?_, hstill.toSpares.trans ((spares_advanceTo u _).trans hspares)⟩
              rw [hend]
              simp only [advanceTo, hstill.now]
              rw [Nat.max_assoc, Nat.max_eq_right (Nat.le_of_lt hlt)]
            · rw [Course.before_waiting_of_not_lt hlt]
              exact ⟨_, Or.inl ⟨_, _, rfl⟩, hpause⟩

end Child

/-! ### Launches -/

namespace Response

variable {response : Option Response}

theorem started_or_not (response : Option Response) :
    (∃ script, response = some (.started script)) ∨
      ∀ script, response ≠ some (.started script) := by
  by_cases hstarted : ∃ script, response = some (.started script)
  · exact Or.inl hstarted
  · exact Or.inr fun script hscript => hstarted ⟨script, hscript⟩

/-- The moment at which a launch at `now` is over if it is left alone: at once if the system
refuses, and never if the program does not exit. -/
def overAt (now : Time) : Option Response → Option Time
  | some (.started script) => script.exitMoment? now
  | _ => some now

theorem overAt_of_not_started (hnot : ∀ script, response ≠ some (.started script)) (now : Time) :
    overAt now response = some now := by
  unfold overAt
  split
  · next script => exact absurd rfl (hnot script)
  · rfl

theorem exists_overAt
    (hexits : ∀ script, response = some (.started script) → script.exit.isSome = true)
    (now : Time) :
    ∃ moment, overAt now response = some moment := by
  obtain ⟨script, rfl⟩ | hnot := started_or_not response
  · obtain ⟨exit, hexit⟩ := Option.isSome_iff_exists.mp (hexits script rfl)
    exact ⟨_, by rw [overAt, Script.exitMoment?, Script.exitTime?, hexit]; rfl⟩
  · exact ⟨now, overAt_of_not_started hnot now⟩

end Response

theorem Script.visibleExitCode_eq_zero {code : Int} :
    visibleExitCode (some code) = some 0 ↔ code = 0 := by
  rw [visibleExitCode, Option.filter_eq_some_iff, Option.some.injEq]
  exact ⟨fun h => h.1, fun h => ⟨h, by decide⟩⟩

namespace Order

variable {order : Order} {script : Script} {t moment : Time} {w : World}

/-- What a program that exits leaves behind, by what it has written. -/
def outcome (order : Order) (script : Script) : Outcome where
  stdout := String.ofList (order.readSize.decode (script.sent .stdout))
  stderr := String.ofList (order.readSize.decode (script.sent .stderr))
  exitCode := Script.visibleExitCode (some script.exitCode)

theorem outcome_succeeded (order : Order) (script : Script) :
    (order.outcome script).succeeded = true ↔ script.exitCode = 0 := by
  rw [← Script.visibleExitCode_eq_zero]
  simp [Outcome.succeeded, outcome]

/-- From the first world to the second the order was launched, and nothing else. -/
structure Launched (order : Order) (u v : World) : Prop where
  responses : v.responses = u.responses.tail
  launched : v.journal.launched = u.journal.launched ++ [order.spawn]

theorem launching_launched (order : Order) (w : World) (pid : Option Nat) (nextPid : Nat) :
    order.Launched w ((order.begun w).launching order.spawn pid nextPid) := by
  obtain ⟨hresponses, hlaunched⟩ := Stirs.launches (order.begun_stirs w)
  refine ⟨by rw [← hresponses]; rfl, ?_⟩
  rw [World.launching_launched, hlaunched]

theorem Launched.spares {u v v' : World} (h : order.Launched u v) (hspares : Spares v v') :
    order.Launched u v' :=
  ⟨hspares.responses.trans h.responses, hspares.launched.trans h.launched⟩

/-- A launch that the system refuses is over at once. -/
theorem launch_of_not_started (order : Order)
    (hnot : ∀ script, w.responses.head? ≠ some (.started script)) :
    ∃ v reason, order.launch w = .ended v (.error (.launchFailed order.program reason)) ∧
      v.now = w.now ∧ order.Launched w v := by
  have hrefuse (reason : String) (rest : List Response) (hrest : w.responses.tail = rest) :
      ∃ v, order.refuse reason { order.begun w with responses := rest } =
        .ended v (.error (.launchFailed order.program reason)) ∧ v.now = w.now ∧
        order.Launched w v := by
    subst hrest
    exact ⟨(order.refused w).enter (.launch (.failed order.program reason)), rfl, rfl,
      (launching_launched order w none w.nextPid).spares (still_enter _ rfl).toSpares⟩
  cases hall : w.responses with
  | nil =>
      rw [launch_of_nil hall]
      obtain ⟨v, hv⟩ := hrefuse "no scripted response" [] (by rw [hall]; rfl)
      exact ⟨v, _, hv⟩
  | cons response rest =>
      cases response with
      | started script => exact absurd (by rw [hall]; rfl) (hnot script)
      | refused reason =>
          rw [launch_of_refused hall]
          obtain ⟨v, hv⟩ := hrefuse reason rest (by rw [hall]; rfl)
          exact ⟨v, _, hv⟩

/-- The course of a program that has been started, from the first turn of its readers. -/
theorem launch_of_head (hstarted : w.responses.head? = some (.started script)) :
    order.launch w = .waiting (order.started w) w.now
      ((order.child script w).follow (.ofScript script) script.turns)
      (order.child script w).stopped := by
  obtain ⟨rest, hall⟩ := List.head?_eq_some_iff.mp hstarted
  exact launch_of_started hall

theorem eq_outcome_of_launch {w' : World} {outcome : Outcome}
    (hstarted : w.responses.head? = some (.started script))
    (hends : (order.launch w).Ends w' (.ok outcome)) : outcome = order.outcome script := by
  obtain ⟨script', hscript, hexit, htext⟩ := launch_output hends
  rw [hstarted] at hscript
  cases hscript
  have hstdout : outcome.stdout = (order.outcome script).stdout := (htext .stdout).1
  have hstderr : outcome.stderr = (order.outcome script).stderr := (htext .stderr).1
  have hcode : outcome.exitCode = (order.outcome script).exitCode := hexit.2
  cases outcome
  simp_all

/-- A program that exits before the moment `t` has left everything behind by then. -/
theorem follow_before_of_exitMoment (hsinks : order.Harmless)
    (hstarted : w.responses.head? = some (.started script))
    (hmoment : script.exitMoment? w.now = some moment) (hlt : moment < t) :
    ∃ v, ((order.child script w).follow (.ofScript script) script.turns
        (order.started w)).before t = .ended v (.ok (order.outcome script)) ∧
      v.now = moment ∧ order.Launched w v := by
  obtain ⟨time, htime, rfl⟩ := Option.map_eq_some_iff.mp hmoment
  obtain ⟨v, outcome, hbefore, hnow, hspares⟩ :=
    (order.child script w).follow_before_of_exit (w := order.started w) hsinks (.ofScript script)
      htime (fun _ hturn => Script.turn_le_exit htime hturn) (Script.exists_isLast htime) hlt
  have hfinish : (order.launch w).finish = (v, some (.ok outcome)) := by
    rw [launch_of_head hstarted, Course.finish,
      advanceTo_of_le (w := order.started w) (Nat.le_refl w.now)]
    exact Course.finish_of_before hbefore
  have hends := Course.ends_of_finish (c := order.launch w) (r := .ok outcome) (by rw [hfinish])
  rw [eq_outcome_of_launch hstarted hends] at hbefore
  exact ⟨v, hbefore, hnow, (launching_launched order w _ _).spares hspares⟩

theorem follow_before_of_late (hsinks : order.Harmless)
    (hlate : ∀ moment, script.exitMoment? w.now = some moment → t ≤ moment) :
    ∃ v, (order.child script w).Awaits v (((order.child script w).follow (.ofScript script)
        script.turns (order.started w)).before t) ∧ v.now = max w.now t ∧ order.Launched w v := by
  have hlate' : ∀ exit, (order.child script w).exit? = some exit →
      t ≤ max (order.started w).now exit := by
    intro exit hexit
    obtain ⟨time, htime, rfl⟩ := Option.map_eq_some_iff.mp hexit
    exact hlate _ (by rw [Script.exitMoment?, show script.exitTime? = some time from htime]; rfl)
  obtain ⟨v, hawaits, hnow, hspares⟩ :=
    Child.follow_before_of_late hsinks (.ofScript script) script.turns hlate'
  exact ⟨v, hawaits, hnow, (launching_launched order w _ _).spares hspares⟩

/-- A launch that nobody interferes with is over when the program has exited, and its result is what
the program has left behind. -/
theorem launch_finish_of_started (hsinks : order.Harmless)
    (hstarted : w.responses.head? = some (.started script))
    (hmoment : script.exitMoment? w.now = some moment) :
    ∃ v, (order.launch w).finish = (v, some (.ok (order.outcome script))) ∧ v.now = moment ∧
      order.Launched w v := by
  obtain ⟨v, hbefore, hnow, hlaunched⟩ :=
    follow_before_of_exitMoment hsinks hstarted hmoment (Nat.lt_succ_self moment)
  refine ⟨v, ?_, hnow, hlaunched⟩
  rw [launch_of_head hstarted, Course.finish,
    advanceTo_of_le (w := order.started w) (Nat.le_refl w.now)]
  exact Course.finish_of_before hbefore

end Order

end Conductor
