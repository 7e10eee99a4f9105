import Conductor.Proofs.Orchestrator.Stint

/-!
The stages of a run while the clock stays within the calendar. Between two stages the record of the
run is changed once and an event is published, so what is said here about the stages is said about
all that subscribers are shown of a run.
-/

namespace Conductor

open World

namespace Orchestrator

variable {brief : Brief} {action : PhaseAction} {fault : Fault} {w w' : World}
  {r : Except Fault Unit}

/-- The completion of the current phase, and what is told of it. -/
def toldCompleted (action : PhaseAction) (start finish : Stamp) (w : World) :
    World × Option Fault :=
  (w.modifyPhase (·.completed finish)).publish (phaseCompletedEvent action start finish)

/-- The failure of the current phase, and what is told of it. -/
def toldBroken (action : PhaseAction) (fault : Fault) (finish : Stamp) (w : World) :
    World × Option Fault :=
  (broken fault finish w).publish (phaseFailedEvent action fault.summary finish)

/-- The ends of a phase. Once its activity is performed, the phase is completed or has failed,
unless the fault is fatal. -/
inductive PhaseEnds (action : PhaseAction) (w : World) : World → Except Fault Unit → Prop where
  /-- Somebody fails on hearing that the phase has started. -/
  | unheard {start : Stamp} {fault : Fault} (hstart : w.stamp = .ok start)
      (hsome : (opened action start w).2 = some fault) :
      PhaseEnds action w (opened action start w).1 (.error fault)
  | returned {start finish : Stamp} {v : World} (hstart : w.stamp = .ok start)
      (hnone : (opened action start w).2 = none) (hsteps : Steps (opened action start w).1 v)
      (hfinish : v.stamp = .ok finish) :
      PhaseEnds action w (toldCompleted action start finish v).1
        ((toldCompleted action start finish v).2.elim (.ok ()) .error)
  | failed {start finish : Stamp} {v : World} {fault : Fault} (hstart : w.stamp = .ok start)
      (hnone : (opened action start w).2 = none) (hsteps : Steps (opened action start w).1 v)
      (hfinish : v.stamp = .ok finish) :
      PhaseEnds action w (toldBroken action fault finish v).1
        (.error ((toldBroken action fault finish v).2.getD fault))
  | fatal {start : Stamp} {v : World} {fault : Fault} (hstart : w.stamp = .ok start)
      (hnone : (opened action start w).2 = none) (hsteps : Steps (opened action start w).1 v)
      (hfatal : fault.isFatal = true) : PhaseEnds action w v (.error fault)

theorem executePhase_ends (hdated : Dated w w') (hends : (executePhase brief action w).Ends w' r) :
    PhaseEnds action w w' r := by
  obtain ⟨stints, hchain, -⟩ := executePhase_chain hends
  obtain ⟨start, hstart⟩ := hdated.stamp hchain.elapses
  rcases executePhase_cases hends with ⟨start', hstart', hcases⟩ | ⟨other, hother, -, -⟩
  · rw [hstart] at hstart'
    cases hstart'
    rcases hcases with ⟨fault, hsome, rfl, rfl⟩ | ⟨hnone, v, s, hperform, hconcludes⟩
    · exact .unheard hstart hsome
    have hsteps := Activity.perform_steps hperform
    have hv := (opened_books action start w).elapses.trans (Steps.onward hsteps).toElapses
    obtain ⟨finish, hfinish⟩ := (hdated.mono hv (.refl w')).stamp hconcludes.books.1.elapses
    cases hconcludes with
    | returned hends =>
        rcases completePhase_cases hends with ⟨finish', hfinish', rfl, rfl⟩ | ⟨other, hother, -, -⟩
        · exact .returned hstart hnone hsteps hfinish'
        · rw [hfinish] at hother
          cases hother
    | failed hplain hends =>
        rcases failPhase_cases hends with ⟨finish', hfinish', rfl, rfl⟩ | ⟨other, hother, -, -⟩
        · exact .failed hstart hnone hsteps hfinish'
        · rw [hfinish] at hother
          cases hother
    | fatal hfatal => exact .fatal hstart hnone hsteps hfatal
  · rw [hstart] at hother
    cases hother

/-- The end of the run with its current phase, and what is told of it. -/
def toldFailed (action : PhaseAction) (fault : Fault) (finish : Stamp) (w : World) :
    World × Option Fault :=
  (w.modifyRun (·.closed .failed finish)).publish
    (failedEvent action (currentError (w.modifyRun (·.closed .failed finish))) fault finish)

theorem failRun_ends {finish : Stamp} (hstamp : w.stamp = .ok finish)
    (hends : (failRun action fault w).Ends w' r) :
    w' = (toldFailed action fault finish w).1 ∧
      r = .error ((toldFailed action fault finish w).2.getD fault) := by
  rcases failRun_cases hends with ⟨finish', hstamp', hworld, hresult⟩ | ⟨other, hother, -, -⟩
  · rw [hstamp] at hstamp'
    cases hstamp'
    exact ⟨hworld, hresult⟩
  · rw [hstamp] at hother
    cases hother

/-- The end of the run after all its phases, and what is told of it. -/
def toldDone (start finish : Stamp) (w : World) : World × Option Fault :=
  (w.modifyRun (·.closed .completed finish)).publish (completedEvent start finish)

theorem completeRun_ends {start finish : Stamp} (hstamp : w.stamp = .ok finish)
    (hends : (completeRun start w).Ends w' r) :
    w' = (toldDone start finish w).1 ∧
      r = (toldDone start finish w).2.elim (.ok ()) .error := by
  rcases completeRun_cases hends with ⟨finish', hstamp', hworld, hresult⟩ | ⟨other, hother, -, -⟩
  · rw [hstamp] at hstamp'
    cases hstamp'
    exact ⟨hworld, hresult⟩
  · rw [hstamp] at hother
    cases hother

theorem completeRun_status {start : Stamp} (hends : (completeRun start w).Ends w' r) :
    w'.progress?.map (·.1) = w.progress?.map fun _ => .completed := by
  rcases completeRun_cases hends with ⟨finish, -, rfl, -⟩ | ⟨other, -, -, rfl⟩
  · rw [publish_progress?, modifyRun_closed_progress?, Option.map_map]
    rfl
  · simp only [progress?, modifyRun, Option.map_map]
    rfl

end Orchestrator

end Conductor
