import Conductor.Proofs.Orchestrator.Stint
import Mathlib.Control.Monad.Basic

/-!
When a run that is over counts as over. Subscribers may fail on any event. Wherever a run is told of
within a phase, and at its end, this makes the run fail; but its start and its progress are told of
outside of the phases. A subscriber that fails there ends the call, and the run stays under way, so
that no other one can be started any more. These are the only such places.
-/

namespace Conductor

open World

namespace World

/-- The current run is over, and the moment of its end is known. -/
def IsSettled (w : World) : Prop :=
  ∃ status finish, (status = .completed ∨ status = .failed) ∧
    w.progress? = some (status, some finish)

/-- The current run has not come to an end. -/
def IsUnderWay (w : World) : Prop := w.progress? = some (.running, none)

theorem IsUnderWay.not_settled {w : World} (h : w.IsUnderWay) : ¬w.IsSettled := by
  rintro ⟨status, finish, -, hsettled⟩
  rw [h] at hsettled
  cases hsettled

theorem isBusy_of_progress? {w : World} {status : RunStatus} {finish : Option Stamp}
    (h : w.progress? = some (status, finish)) :
    Orchestrator.isBusy w = (status == .running) := by
  obtain ⟨run, hcurrent, hrun⟩ := Option.map_eq_some_iff.mp h
  have hstatus : run.status = status := congrArg Prod.fst hrun
  simp [Orchestrator.isBusy, hcurrent, hstatus]

theorem IsUnderWay.isBusy {w : World} (h : w.IsUnderWay) : Orchestrator.isBusy w = true := by
  rw [isBusy_of_progress? h]
  rfl

theorem IsSettled.not_busy {w : World} (h : w.IsSettled) : Orchestrator.isBusy w = false := by
  obtain ⟨status, finish, hstatus, hprogress⟩ := h
  rw [isBusy_of_progress? hprogress]
  rcases hstatus with rfl | rfl <;> rfl

/-- A subscriber has just failed where no phase is under way. -/
def FailedOutside (fault : Fault) (w : World) : Prop :=
  w.FailedOn .runStarted fault ∨ w.FailedOn .progress fault

/-- After an event of another kind was told of, nobody has just failed outside of the phases. -/
theorem not_failedOutside_of_publish {event : Event} {severity : Severity}
    (hlevel : event.level.severity? = some severity) (hstarted : event.kind ≠ .runStarted)
    (hprogress : event.kind ≠ .progress) (w : World) (fault : Fault) :
    ¬FailedOutside fault (w.publish event).1 := by
  obtain ⟨notice, hnotice⟩ := Event.notice_of_severity event hlevel
  rintro (h | h)
  · exact not_failedOn_of_publish hnotice hstarted fault h
  · exact not_failedOn_of_publish hnotice hprogress fault h

end World

namespace Orchestrator

variable {brief : Brief} {action : PhaseAction} {w w' : World} {r : Except Fault Unit}

/-- A run that fails is settled, whoever fails on hearing of it. -/
theorem failRun_settled {fault : Fault} {stamp : Stamp} (hstamp : w.stamp = .ok stamp)
    (hunder : w.IsUnderWay) (hends : (failRun action fault w).Ends w' r) :
    w'.IsSettled ∧ ∀ other, ¬FailedOutside other w' := by
  rcases failRun_cases hends with ⟨stamp', -, rfl, -⟩ | ⟨other, hother, -, -⟩
  · refine ⟨⟨.failed, stamp', Or.inr rfl, ?_⟩, ?_⟩
    · rw [publish_progress?, modifyRun_closed_progress?, hunder]
      rfl
    · exact not_failedOutside_of_publish rfl (by simp [failedEvent]) (by simp [failedEvent]) _
  · rw [hstamp] at hother
    cases hother

theorem completeRun_settled {start stamp : Stamp} (hstamp : w.stamp = .ok stamp)
    (hunder : w.IsUnderWay) (hends : (completeRun start w).Ends w' r) :
    w'.IsSettled ∧ ∀ other, ¬FailedOutside other w' := by
  rcases completeRun_cases hends with ⟨stamp', -, rfl, -⟩ | ⟨other, hother, -, -⟩
  · refine ⟨⟨.completed, stamp', Or.inl rfl, ?_⟩, ?_⟩
    · rw [publish_progress?, modifyRun_closed_progress?, hunder]
      rfl
    · exact not_failedOutside_of_publish rfl (by simp [completedEvent]) (by simp [completedEvent]) _
  · rw [hstamp] at hother
    cases hother

/-- Phases that do not all return settle the run, unless somebody fails on hearing of progress. -/
theorem phasesFrom_settled {total index : Nat} {actions : List PhaseAction} (hdated : Dated w w')
    (hends : (phasesFrom brief total index actions w).Ends w' r)
    (hplain : ∀ fault, r = .error fault → fault.isFatal = false) (hunder : w.IsUnderWay) :
    (r = .ok () ∧ w'.IsUnderWay) ∨
      ∃ fault, r = .error fault ∧
        (FailedOutside fault w' ∧ w'.IsUnderWay ∨
          w'.IsSettled ∧ ∀ other, ¬FailedOutside other w') := by
  induction actions generalizing index w with
  | nil =>
      obtain ⟨rfl, rfl⟩ := Course.ends_ended.mp hends
      exact Or.inl ⟨rfl, hunder⟩
  | cons action rest ih =>
      obtain ⟨v, s, hphase, hproceeds⟩ := phasesFrom_cons.mp hends
      obtain ⟨stints, hchain, -⟩ := executePhase_chain hphase
      have hv : Elapses w v := (atIndex_books index w).elapses.trans hchain.elapses
      have hlater := hdated.mono hv (.refl w')
      obtain ⟨stamp, hstamp⟩ := hlater.stamp hproceeds.elapses
      have hunder' : v.IsUnderWay := by
        rw [IsUnderWay, executePhase_progress hphase, atIndex_progress?]
        exact hunder
      have hannounce := announce_of_stamp hstamp (progressEvent action (index + 1) total)
      have hbooks := announce_books (progressEvent action (index + 1) total) v
      have hstill := (announce_progress? (progressEvent action (index + 1) total) v).trans hunder'
      cases hproceeds with
      | returned hnone hgo => exact ih (hlater.mono hbooks.elapses (.refl w')) hgo hstill
      | untold hsome =>
          refine Or.inr ⟨_, rfl, Or.inl ⟨Or.inr ?_, hstill⟩⟩
          rw [hannounce] at hsome ⊢
          obtain ⟨notice, hnotice⟩ := Event.notice_of_severity
            (progressEvent action (index + 1) total stamp) rfl
          exact failedOn_of_publish hnotice hsome
      | failed hordinary hfail =>
          obtain ⟨-, fault, rfl⟩ := failRun_books hfail
          exact Or.inr ⟨fault, rfl, Or.inr (failRun_settled hstamp hunder' hfail)⟩
      | fatal hfatal =>
          rw [hplain _ rfl] at hfatal
          cases hfatal

variable {o : Orchestrator} {planRef : String} {agent : Value} {result : Except Fault Nat}

theorem completeRun_settled_of_phases {start : Stamp} {v : World} {s : Except Fault Unit}
    {actions : List PhaseAction} {total index : Nat} (hdated : Dated w w') (hunder : w.IsUnderWay)
    (hphases : (phasesFrom brief total index actions w).Ends v (.ok ()))
    (hcomplete : (completeRun start v).Ends w' s) :
    w'.IsSettled ∧ ∀ other, ¬FailedOutside other w' := by
  obtain ⟨stints, hchain, -⟩ := phasesFrom_chain hphases
  have hlast := (completeRun_books hcomplete).elapses
  obtain ⟨stamp, hstamp⟩ := (hdated.mono hchain.elapses (.refl w')).stamp hlast
  rcases phasesFrom_settled (hdated.mono (.refl w) hlast) hphases (by simp) hunder with
    ⟨-, hunder'⟩ | ⟨fault, hfault, -⟩
  · exact completeRun_settled hstamp hunder' hcomplete
  · cases hfault

/-- A call that was not refused settles the run, or it ends outside of the phases. -/
theorem run_settled_or_underWay (hidle : isBusy w = false)
    (hends : (o.run planRef agent w).Ends w' result) (hdated : Dated w w')
    (hplain : ∀ fault, result = .error fault → fault.isFatal = false) :
    (w'.IsSettled ∧ ∀ other, ¬FailedOutside other w') ∨
      w'.IsUnderWay ∧ ∃ fault, result = .error fault ∧ FailedOutside fault w' := by
  rcases run_cases hidle hends with ⟨start, -, hcases⟩ | ⟨other, hother, -, -⟩
  · have hlaunched := launched_books o planRef agent start w
    have hunder := launched_progress o planRef agent start w
    rcases hcases with ⟨fault, hsome, rfl, rfl⟩ | ⟨-, v, s, hphases, hrest⟩
    · refine Or.inr ⟨hunder, fault, rfl, Or.inl ?_⟩
      obtain ⟨notice, hnotice⟩ := Event.notice_of_severity
        (startedEvent (o.newRun planRef agent start w) start) rfl
      exact failedOn_of_publish hnotice hsome
    have hdated' := hdated.mono hlaunched.elapses (.refl w')
    rcases hrest with ⟨fault, rfl, rfl, rfl⟩ | ⟨rfl, s', hcomplete, rfl⟩
    · have hplain' : ∀ other, Except.error fault = (.error other : Except Fault Unit) →
          other.isFatal = false := by
        rintro other ⟨⟩
        exact hplain fault rfl
      rcases phasesFrom_settled hdated' hphases hplain' hunder with
        ⟨hok, -⟩ | ⟨fault', hfault, hout | hsettled⟩
      · cases hok
      · cases hfault
        exact Or.inr ⟨hout.2, fault, rfl, hout.1⟩
      · exact Or.inl hsettled
    · exact Or.inl (completeRun_settled_of_phases hdated' hunder hphases hcomplete)
  · obtain ⟨stints, hchain, -⟩ := run_chain hidle hends
    obtain ⟨start, hstart⟩ := hdated.stamp hchain.elapses
    rw [hstart] at hother
    cases hother

/-- A call that was not refused leaves the run settled, and the next one is not refused either,
unless it ended with a subscriber that failed on hearing of the start of the run or of its progress.
Then the run stays under way, and every further call is refused. -/
theorem run_settled_iff (hidle : isBusy w = false)
    (hends : (o.run planRef agent w).Ends w' result) (hdated : Dated w w')
    (hplain : ∀ fault, result = .error fault → fault.isFatal = false) :
    (w'.IsSettled ↔ ∀ fault, result = .error fault → ¬FailedOutside fault w') ∧
      (w'.IsSettled → isBusy w' = false) ∧
      (¬w'.IsSettled → w'.IsUnderWay ∧ ∀ planRef agent,
        o.run planRef agent w' = .ended w' (.error .runInProgress)) := by
  rcases run_settled_or_underWay hidle hends hdated hplain with
    ⟨hsettled, hnobody⟩ | ⟨hunder, fault, rfl, hsomebody⟩
  · refine ⟨⟨fun _ fault _ => hnobody fault, fun _ => hsettled⟩, fun h => h.not_busy, ?_⟩
    exact fun hnot => absurd hsettled hnot
  · refine ⟨⟨fun h => absurd h hunder.not_settled, ?_⟩, fun h => h.not_busy, ?_⟩
    · exact fun h => absurd hsomebody (h fault rfl)
    · intro _
      refine ⟨hunder, ?_⟩
      intro planRef agent
      rw [run, if_pos hunder.isBusy]

/-- One phase that returns. -/
def onePhase : Orchestrator where
  client := {}
  workspace := .ofString "/workspace"
  actions := [⟨"only", "Only", "", fun _ => .done⟩]

/-- A world with somebody who fails on hearing of progress. -/
def touchy : World where
  bus := { subscribers := [⟨"touchy", fun _ event =>
    if event.kind = .progress then some (.foreign ⟨"ValueError", "boom", false⟩) else none⟩] }

theorem run_stuck_of_touchy :
    ∃ w', (onePhase.run "plan.md" (.text "agent") touchy).Ends w'
        (.error (.foreign ⟨"ValueError", "boom", false⟩)) ∧
      ¬w'.IsSettled ∧
      onePhase.run "plan.md" (.text "agent") w' = .ended w' (.error .runInProgress) := by
  have hends := Course.ends_of_finish (c := onePhase.run "plan.md" (.text "agent") touchy)
    (r := .error (.foreign ⟨"ValueError", "boom", false⟩)) (by decide +kernel)
  have hdated : Dated touchy (onePhase.run "plan.md" (.text "agent") touchy).finish.1 :=
    dated_of_now rfl (by decide +kernel)
  obtain ⟨-, hfree, hstuck⟩ := run_settled_iff rfl hends hdated fun fault hfault => by
    cases hfault
    rfl
  have hbusy : isBusy (onePhase.run "plan.md" (.text "agent") touchy).finish.1 = true := by
    decide +kernel
  have hnot : ¬(onePhase.run "plan.md" (.text "agent") touchy).finish.1.IsSettled := by
    intro hsettled
    rw [hfree hsettled] at hbusy
    cases hbusy
  exact ⟨_, hends, hnot, (hstuck hnot).2 "plan.md" (.text "agent")⟩

end Orchestrator

end Conductor
