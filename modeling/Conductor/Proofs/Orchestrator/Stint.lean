import Conductor.Orchestrator
import Conductor.Proofs.Activity

/-!
A run is a chain of stints. In a stint the activity of one phase is performed; between stints only
the books of the run are kept: its record, and what is told and logged about it. The functions of
the orchestrator are taken apart here once, so that what is said about runs elsewhere does not
depend on how they are written.
-/

namespace Conductor

open World

namespace World

/-- Only the books of the run differ: its record, the number of runs and the journal, in which no
launch was entered. -/
structure Books (u v : World) : Prop where
  same : v = { u with current := v.current, runCount := v.runCount, journal := v.journal }
  launched : v.journal.launched = u.journal.launched

theorem Books.refl (w : World) : Books w w := ⟨rfl, rfl⟩

theorem Books.trans {u v w : World} (huv : Books u v) (hvw : Books v w) : Books u w := by
  refine ⟨?_, hvw.launched.trans huv.launched⟩
  rw [hvw.same, huv.same]

theorem Books.elapses {u v : World} (h : Books u v) : Elapses u v := by
  rw [h.same]
  exact ⟨rfl, rfl, rfl, Nat.le_refl _⟩

theorem modifyRun_books (f : Run → Run) (w : World) : Books w (w.modifyRun f) := ⟨rfl, rfl⟩

theorem log_books (severity : Severity) (logger message : String) (w : World) :
    Books w (w.log severity logger message) := by
  refine ⟨rfl, ?_⟩
  simp [log, World.enter, Journal.launched, Journal.seen_cons, Entry.spawn?]

theorem publish_books (event : Event) (w : World) : Books w (w.publish event).1 := by
  refine ⟨?_, publish_seen (fun _ _ _ => rfl) (fun _ _ _ => rfl) event w⟩
  rw [publish_onlyJournal event w]

theorem announce_books (event : Stamp → Event) (w : World) : Books w (w.announce event).1 := by
  unfold announce
  cases w.stamp with
  | ok stamp => exact publish_books _ w
  | error fault => exact .refl w

theorem announce_of_stamp {w : World} {stamp : Stamp} (hstamp : w.stamp = .ok stamp)
    (event : Stamp → Event) : w.announce event = w.publish (event stamp) := by
  rw [announce, hstamp, proceed]

theorem stamp_congr {u v : World} (hepoch : v.epoch = u.epoch) (hnow : v.now = u.now) :
    v.stamp = u.stamp := by
  unfold stamp
  rw [hepoch, hnow]

theorem Books.stamp {u v : World} (h : Books u v) : v.stamp = u.stamp :=
  stamp_congr (by rw [h.same]) (by rw [h.same])

/-- From the first world to the second the clock stays within the calendar. -/
def Dated (u v : World) : Prop :=
  ∀ t, u.now ≤ t → t ≤ v.now → ∃ stamp, { u with now := t }.stamp = .ok stamp

theorem Dated.mono {u u' v' v : World} (h : Dated u v) (hfirst : Elapses u u')
    (hlast : Elapses v' v) : Dated u' v' := by
  intro t hfrom htill
  obtain ⟨stamp, hstamp⟩ := h t (Nat.le_trans hfirst.now hfrom) (Nat.le_trans htill hlast.now)
  refine ⟨stamp, ?_⟩
  rw [← hstamp]
  exact stamp_congr hfirst.epoch rfl

theorem Dated.stamp {u v : World} (h : Dated u v) (hle : Elapses u v) :
    ∃ stamp, u.stamp = .ok stamp := h u.now (Nat.le_refl _) hle.now

theorem dated_of_now {u v : World} (hepoch : u.epoch = ⟨0⟩) (hnow : v.now = 0) : Dated u v := by
  intro t _ htill
  have hzero : t = 0 := Nat.le_zero.mp (hnow ▸ htill)
  have hmicros : Time.micros 0 = 0 := by decide +kernel
  refine ⟨⟨0⟩, ?_⟩
  simp only [World.stamp, hepoch, hzero, hmicros]
  rfl

theorem modifyRun_modifyRun (f g : Run → Run) (w : World) :
    (w.modifyRun f).modifyRun g = w.modifyRun fun run => g (f run) := by
  simp only [modifyRun, Option.map_map]
  rfl

/-- How far the current run is: its status, and the moment of its end. -/
def progress? (w : World) : Option (RunStatus × Option Stamp) :=
  w.current.map fun run => (run.status, run.finish)

theorem modifyRun_progress?_of_keeps {f : Run → Run}
    (hf : ∀ run, ((f run).status, (f run).finish) = (run.status, run.finish)) (w : World) :
    (w.modifyRun f).progress? = w.progress? := by
  simp only [progress?, modifyRun, Option.map_map, Function.comp_def, hf]

theorem publish_progress? (event : Event) (w : World) :
    (w.publish event).1.progress? = w.progress? := by
  rw [publish_onlyJournal event w]
  rfl

theorem announce_progress? (event : Stamp → Event) (w : World) :
    (w.announce event).1.progress? = w.progress? := by
  unfold announce
  cases w.stamp with
  | ok stamp => exact publish_progress? _ w
  | error fault => rfl

theorem Onward.progress? {u v : World} (h : Onward u v) : v.progress? = u.progress? := by
  have hrecord := congrArg (Option.map fun run => (run.status, run.finish)) h.record
  simpa only [World.progress?, Option.map_map, Function.comp_def, Run.record] using hrecord

end World

namespace Flow

variable {α : Type}

theorem stamped_cases {next : Stamp → Flow α} {w w' : World} {r : Except Fault α}
    (hends : (stamped next w).Ends w' r) :
    (∃ stamp, w.stamp = .ok stamp ∧ (next stamp w).Ends w' r) ∨
      ∃ fault, w.stamp = .error fault ∧ w' = w ∧ r = .error fault := by
  cases hstamp : w.stamp with
  | ok stamp =>
      rw [stamped_of_stamp hstamp] at hends
      exact Or.inl ⟨stamp, rfl, hends⟩
  | error fault =>
      rw [stamped, hstamp, World.proceed] at hends
      obtain ⟨rfl, rfl⟩ := Course.ends_ended.mp hends
      exact Or.inr ⟨fault, rfl, rfl, rfl⟩

end Flow

namespace Run

theorem modifyCurrent_modifyCurrent (f g : Phase → Phase) (run : Run) :
    (run.modifyCurrent f).modifyCurrent g = run.modifyCurrent fun phase => g (f phase) := by
  simp only [modifyCurrent, List.modify_modify_eq]
  rfl

/-- A run that has come to an end. -/
def closed (status : RunStatus) (finish : Stamp) (run : Run) : Run :=
  { run with status, finish := some finish }

end Run

namespace Phase

def begun (start : Stamp) (phase : Phase) : Phase :=
  { phase with status := .running, start := some start }

def completed (finish : Stamp) (phase : Phase) : Phase :=
  { phase with status := .completed, finish := some finish }

def broken (error : String) (finish : Stamp) (phase : Phase) : Phase :=
  { phase with status := .failed, error := some error, finish := some finish }

end Phase

namespace World

def modifyPhase (f : Phase → Phase) (w : World) : World := w.modifyRun (·.modifyCurrent f)

theorem modifyPhase_books (f : Phase → Phase) (w : World) : Books w (w.modifyPhase f) :=
  modifyRun_books _ w

theorem modifyPhase_modifyPhase (f g : Phase → Phase) (w : World) :
    (w.modifyPhase f).modifyPhase g = w.modifyPhase fun phase => g (f phase) := by
  simp only [modifyPhase, modifyRun_modifyRun, Run.modifyCurrent_modifyCurrent]

theorem modifyPhase_progress? (f : Phase → Phase) (w : World) :
    (w.modifyPhase f).progress? = w.progress? :=
  modifyRun_progress?_of_keeps (f := (·.modifyCurrent f)) (fun _ => rfl) w

theorem modifyRun_closed_progress? (status : RunStatus) (finish : Stamp) (w : World) :
    (w.modifyRun (·.closed status finish)).progress? =
      w.progress?.map fun _ => (status, some finish) := by
  simp only [progress?, modifyRun, Option.map_map, Function.comp_def]
  rfl

/-! A mark and a stamp are put on a record one after the other; together they are one change. -/

theorem modifyPhase_begun (start : Stamp) (w : World) :
    (w.modifyRun (·.modifyCurrent fun phase => { phase with status := .running })).modifyRun
        (·.modifyCurrent fun phase => { phase with start := some start }) =
      w.modifyPhase (·.begun start) := modifyPhase_modifyPhase _ _ w

theorem modifyPhase_completed (finish : Stamp) (w : World) :
    (w.modifyRun (·.modifyCurrent fun phase => { phase with status := .completed })).modifyRun
        (·.modifyCurrent fun phase => { phase with finish := some finish }) =
      w.modifyPhase (·.completed finish) := modifyPhase_modifyPhase _ _ w

theorem modifyPhase_broken (error : String) (finish : Stamp) (w : World) :
    (w.modifyRun (·.modifyCurrent fun phase =>
        { phase with status := .failed, error := some error })).modifyRun
        (·.modifyCurrent fun phase => { phase with finish := some finish }) =
      w.modifyPhase (·.broken error finish) := modifyPhase_modifyPhase _ _ w

theorem modifyRun_closed (status : RunStatus) (finish : Stamp) (w : World) :
    (w.modifyRun fun run => { run with status }).modifyRun
        (fun run => { run with finish := some finish }) =
      w.modifyRun (·.closed status finish) := modifyRun_modifyRun _ _ w

end World

/-! ### The functions of the orchestrator, taken apart -/

namespace Orchestrator

variable {brief : Brief} {action : PhaseAction} {fault : Fault} {w w' : World}
  {r : Except Fault Unit}

theorem ends_passOn {event : Stamp → Event} :
    (passOn event fault w).Ends w' r ↔
      w' = (w.announce event).1 ∧ r = .error ((w.announce event).2.getD fault) :=
  Flow.ends_step_fail

/-- The world in which the failure of a phase is told of. -/
def broken (fault : Fault) (stamp : Stamp) (w : World) : World :=
  w.modifyPhase (·.broken fault.summary stamp)

theorem failPhase_cases (hends : (failPhase action fault w).Ends w' r) :
    (∃ stamp, w.stamp = .ok stamp ∧
      w' = ((broken fault stamp w).publish (phaseFailedEvent action fault.summary stamp)).1 ∧
      r = .error (((broken fault stamp w).publish
        (phaseFailedEvent action fault.summary stamp)).2.getD fault)) ∨
    ∃ other, w.stamp = .error other ∧ r = .error other ∧
      w' = w.modifyPhase fun phase =>
        { phase with status := .failed, error := some fault.summary } := by
  rw [failPhase] at hends
  rcases Flow.stamped_cases hends with ⟨stamp, hstamp, hgo⟩ | ⟨other, hstamp, rfl, rfl⟩
  · rw [(modifyRun_books _ w).stamp] at hstamp
    have hreport := ends_passOn.mp hgo
    rw [modifyPhase_broken, announce_of_stamp ((modifyPhase_books _ w).stamp.trans hstamp)]
      at hreport
    exact Or.inl ⟨stamp, hstamp, hreport⟩
  · rw [(modifyRun_books _ w).stamp] at hstamp
    exact Or.inr ⟨other, hstamp, rfl, rfl⟩

theorem completePhase_cases {start : Stamp} (hends : (completePhase action start w).Ends w' r) :
    (∃ stamp, w.stamp = .ok stamp ∧
      w' = ((w.modifyPhase (·.completed stamp)).publish
        (phaseCompletedEvent action start stamp)).1 ∧
      r = ((w.modifyPhase (·.completed stamp)).publish
        (phaseCompletedEvent action start stamp)).2.elim (.ok ()) .error) ∨
    ∃ other, w.stamp = .error other ∧ r = .error other ∧
      w' = w.modifyPhase fun phase => { phase with status := .completed } := by
  rw [completePhase] at hends
  rcases Flow.stamped_cases hends with ⟨stamp, hstamp, hgo⟩ | ⟨other, hstamp, rfl, rfl⟩
  · rw [(modifyRun_books _ w).stamp] at hstamp
    have hstep := Flow.ends_step.mp hgo
    rw [modifyPhase_completed, announce_of_stamp ((modifyPhase_books _ w).stamp.trans hstamp)]
      at hstep
    exact Or.inl ⟨stamp, hstamp, hstep⟩
  · rw [(modifyRun_books _ w).stamp] at hstamp
    exact Or.inr ⟨other, hstamp, rfl, rfl⟩

def currentError (w : World) : Option String :=
  (w.current.bind (·.currentPhase?)).bind (·.error)

theorem failRun_cases (hends : (failRun action fault w).Ends w' r) :
    (∃ stamp, w.stamp = .ok stamp ∧
      w' = ((w.modifyRun (·.closed .failed stamp)).publish (failedEvent action
        (currentError (w.modifyRun (·.closed .failed stamp))) fault stamp)).1 ∧
      r = .error (((w.modifyRun (·.closed .failed stamp)).publish (failedEvent action
        (currentError (w.modifyRun (·.closed .failed stamp))) fault stamp)).2.getD fault)) ∨
    ∃ other, w.stamp = .error other ∧ r = .error other ∧
      w' = w.modifyRun fun run => { run with status := .failed } := by
  rw [failRun] at hends
  rcases Flow.stamped_cases hends with ⟨stamp, hstamp, hgo⟩ | ⟨other, hstamp, rfl, rfl⟩
  · rw [(modifyRun_books _ w).stamp] at hstamp
    have hreport := ends_passOn.mp hgo
    rw [modifyRun_closed, announce_of_stamp ((modifyRun_books _ w).stamp.trans hstamp)] at hreport
    exact Or.inl ⟨stamp, hstamp, hreport⟩
  · rw [(modifyRun_books _ w).stamp] at hstamp
    exact Or.inr ⟨other, hstamp, rfl, rfl⟩

theorem completeRun_cases {start : Stamp} (hends : (completeRun start w).Ends w' r) :
    (∃ stamp, w.stamp = .ok stamp ∧
      w' = ((w.modifyRun (·.closed .completed stamp)).publish (completedEvent start stamp)).1 ∧
      r = ((w.modifyRun (·.closed .completed stamp)).publish
        (completedEvent start stamp)).2.elim (.ok ()) .error) ∨
    ∃ other, w.stamp = .error other ∧ r = .error other ∧
      w' = w.modifyRun fun run => { run with status := .completed } := by
  rw [completeRun] at hends
  rcases Flow.stamped_cases hends with ⟨stamp, hstamp, hgo⟩ | ⟨other, hstamp, rfl, rfl⟩
  · rw [(modifyRun_books _ w).stamp] at hstamp
    have hstep := Flow.ends_step.mp hgo
    rw [modifyRun_closed, announce_of_stamp ((modifyRun_books _ w).stamp.trans hstamp)] at hstep
    exact Or.inl ⟨stamp, hstamp, hstep⟩
  · rw [(modifyRun_books _ w).stamp] at hstamp
    exact Or.inr ⟨other, hstamp, rfl, rfl⟩

/-- Marks the current phase as running, and tells of it. -/
def opened (action : PhaseAction) (start : Stamp) (w : World) : World × Option Fault :=
  (w.modifyPhase (·.begun start)).publish (phaseStartedEvent action start)

/-- How a phase goes on when its activity has ended. -/
inductive Concludes (action : PhaseAction) (start : Stamp) :
    World → Except Fault Unit → World → Except Fault Unit → Prop where
  | returned {v w' : World} {r : Except Fault Unit}
      (hends : (completePhase action start v).Ends w' r) : Concludes action start v (.ok ()) w' r
  | failed {v w' : World} {r : Except Fault Unit} {fault : Fault} (hplain : fault.isFatal = false)
      (hends : (failPhase action fault v).Ends w' r) : Concludes action start v (.error fault) w' r
  | fatal {v : World} {fault : Fault} (hfatal : fault.isFatal = true) :
      Concludes action start v (.error fault) v (.error fault)

theorem executePhase_cases (hends : (executePhase brief action w).Ends w' r) :
    (∃ start, w.stamp = .ok start ∧
      ((∃ fault, (opened action start w).2 = some fault ∧ w' = (opened action start w).1 ∧
          r = .error fault) ∨
        (opened action start w).2 = none ∧ ∃ v s,
          ((action.activity brief).perform brief action.id (opened action start w).1).Ends v s ∧
            Concludes action start v s w' r)) ∨
    ∃ other, w.stamp = .error other ∧ r = .error other ∧
      w' = w.modifyPhase fun phase => { phase with status := .running } := by
  rw [executePhase] at hends
  rcases Flow.stamped_cases hends with ⟨start, hstamp, hgo⟩ | ⟨other, hstamp, rfl, rfl⟩
  · rw [(modifyRun_books _ w).stamp] at hstamp
    refine Or.inl ⟨start, hstamp, ?_⟩
    have hopened : (w.modifyPhase (·.begun start)).announce (phaseStartedEvent action) =
        opened action start w := announce_of_stamp ((modifyPhase_books _ w).stamp.trans hstamp) _
    rw [modifyPhase_begun, Flow.ends_step_bind, hopened] at hgo
    rcases hgo with ⟨hnone, hperform⟩ | hfailed
    · obtain ⟨v, s, hactivity, hrest⟩ := Course.ends_andThen.mp hperform
      refine Or.inr ⟨hnone, v, s, hactivity, ?_⟩
      cases s with
      | ok done => exact .returned hrest
      | error fault =>
          simp only at hrest
          by_cases hfatal : fault.isFatal = true
          · rw [if_pos hfatal] at hrest
            obtain ⟨rfl, rfl⟩ := Course.ends_ended.mp hrest
            exact .fatal hfatal
          · rw [if_neg hfatal] at hrest
            exact .failed (Bool.eq_false_iff.mpr hfatal) hrest
    · exact Or.inl hfailed
  · rw [(modifyRun_books _ w).stamp] at hstamp
    exact Or.inr ⟨other, hstamp, rfl, rfl⟩

/-- The run with another phase as its current one. -/
def atIndex (index : Nat) (w : World) : World := w.modifyRun fun run => { run with index }

theorem atIndex_books (index : Nat) (w : World) : Books w (atIndex index w) := modifyRun_books _ w

/-- How a run goes on after a phase: it fails with it, or goes on with the next. -/
inductive Proceeds (brief : Brief) (total index : Nat) (action : PhaseAction)
    (rest : List PhaseAction) :
    World → Except Fault Unit → World → Except Fault Unit → Prop where
  | returned {v w' : World} {r : Except Fault Unit}
      (hnone : (v.announce (progressEvent action (index + 1) total)).2 = none)
      (hends : (phasesFrom brief total (index + 1) rest
        (v.announce (progressEvent action (index + 1) total)).1).Ends w' r) :
      Proceeds brief total index action rest v (.ok ()) w' r
  | untold {v : World} {fault : Fault}
      (hsome : (v.announce (progressEvent action (index + 1) total)).2 = some fault) :
      Proceeds brief total index action rest v (.ok ())
        (v.announce (progressEvent action (index + 1) total)).1 (.error fault)
  | failed {v w' : World} {r : Except Fault Unit} {fault : Fault} (hplain : fault.isFatal = false)
      (hends : (failRun action fault v).Ends w' r) :
      Proceeds brief total index action rest v (.error fault) w' r
  | fatal {v : World} {fault : Fault} (hfatal : fault.isFatal = true) :
      Proceeds brief total index action rest v (.error fault) v (.error fault)

theorem phasesFrom_cons {total index : Nat} {rest : List PhaseAction} :
    (phasesFrom brief total index (action :: rest) w).Ends w' r ↔
      ∃ v s, (executePhase brief action (atIndex index w)).Ends v s ∧
        Proceeds brief total index action rest v s w' r := by
  rw [phasesFrom]
  constructor
  · intro hends
    obtain ⟨v, s, hphase, hrest⟩ := Course.ends_andThen.mp hends
    refine ⟨v, s, hphase, ?_⟩
    cases s with
    | ok done =>
        rcases Flow.ends_step_bind.mp hrest with ⟨hnone, hgo⟩ | ⟨fault, hsome, hworld, hr⟩
        · exact .returned hnone hgo
        · rw [hworld, hr]
          exact .untold hsome
    | error fault =>
        simp only at hrest
        by_cases hfatal : fault.isFatal = true
        · rw [if_pos hfatal] at hrest
          obtain ⟨rfl, rfl⟩ := Course.ends_ended.mp hrest
          exact .fatal hfatal
        · rw [if_neg hfatal] at hrest
          exact .failed (Bool.eq_false_iff.mpr hfatal) hrest
  · rintro ⟨v, s, hphase, hrest⟩
    refine Course.ends_andThen.mpr ⟨v, s, hphase, ?_⟩
    cases hrest with
    | returned hnone hends => exact Flow.ends_step_bind.mpr (Or.inl ⟨hnone, hends⟩)
    | untold hsome => exact Flow.ends_step_bind.mpr (Or.inr ⟨_, hsome, rfl, rfl⟩)
    | failed hplain hends =>
        simp only [hplain]
        exact hends
    | fatal hfatal =>
        simp only [hfatal]
        exact .ended _ _

theorem commence_books (o : Orchestrator) (planRef : String) (agent : Value) (start : Stamp)
    (w : World) : Books w (o.commence planRef agent start w) := by
  have hrecord : Books w
      { w with current := some (o.newRun planRef agent start w), runCount := w.runCount + 1 } :=
    ⟨rfl, rfl⟩
  exact hrecord.trans (log_books _ _ _ _)

/-- The start of a run, and what is told of it. -/
def launched (o : Orchestrator) (planRef : String) (agent : Value) (start : Stamp) (w : World) :
    World × Option Fault :=
  (o.commence planRef agent start w).publish
    (startedEvent (o.newRun planRef agent start w) start)

/-- A call that is not refused is a start, the phases, and an end. -/
theorem run_cases {o : Orchestrator} {planRef : String} {agent : Value} {r : Except Fault Nat}
    (hidle : isBusy w = false) (hends : (o.run planRef agent w).Ends w' r) :
    (∃ start, w.stamp = .ok start ∧
      ((∃ fault, (o.launched planRef agent start w).2 = some fault ∧
          w' = (o.launched planRef agent start w).1 ∧ r = .error fault) ∨
        (o.launched planRef agent start w).2 = none ∧ ∃ v s,
          (phasesFrom (o.briefing planRef agent) o.actions.length 0 o.actions
            (o.launched planRef agent start w).1).Ends v s ∧
          ((∃ fault, s = .error fault ∧ w' = v ∧ r = .error fault) ∨
            s = .ok () ∧ ∃ s', (completeRun start v).Ends w' s' ∧
              r = s'.map fun _ => w.runCount))) ∨
    ∃ other, w.stamp = .error other ∧ r = .error other ∧ w' = w := by
  rw [run, if_neg (by simp [hidle])] at hends
  rcases Flow.stamped_cases hends with ⟨start, hstamp, hgo⟩ | ⟨other, hstamp, rfl, rfl⟩
  · refine Or.inl ⟨start, hstamp, ?_⟩
    have hlaunched : (o.commence planRef agent start w).announce
        (startedEvent (o.newRun planRef agent start w)) = o.launched planRef agent start w :=
      announce_of_stamp ((commence_books o planRef agent start w).stamp.trans hstamp) _
    rw [Flow.ends_step_bind, hlaunched] at hgo
    rcases hgo with ⟨hnone, hphases⟩ | hfailed
    · refine Or.inr ⟨hnone, ?_⟩
      rcases Course.ends_bind.mp hphases with ⟨v, done, hall, hrest⟩ | ⟨fault, hsome, rfl⟩
      · refine ⟨v, .ok done, hall, Or.inr ⟨rfl, ?_⟩⟩
        rcases Course.ends_bind.mp hrest with ⟨v', done', hcomplete, hend⟩ | ⟨fault, hcomplete, rfl⟩
        · obtain ⟨rfl, rfl⟩ := Course.ends_ended.mp hend
          exact ⟨.ok done', hcomplete, rfl⟩
        · exact ⟨.error fault, hcomplete, rfl⟩
      · exact ⟨w', .error fault, hsome, Or.inl ⟨fault, rfl, rfl, rfl⟩⟩
    · exact Or.inl hfailed
  · exact Or.inr ⟨other, hstamp, rfl, rfl⟩

/-! ### Book-keeping -/

theorem failPhase_books (hends : (failPhase action fault w).Ends w' r) :
    Books w w' ∧ ∃ other, r = .error other := by
  rcases failPhase_cases hends with ⟨stamp, -, rfl, rfl⟩ | ⟨other, -, rfl, rfl⟩
  · exact ⟨(modifyPhase_books _ w).trans (publish_books _ _), _, rfl⟩
  · exact ⟨modifyPhase_books _ w, other, rfl⟩

theorem completePhase_books {start : Stamp} (hends : (completePhase action start w).Ends w' r) :
    Books w w' := by
  rcases completePhase_cases hends with ⟨stamp, -, rfl, -⟩ | ⟨other, -, -, rfl⟩
  · exact (modifyPhase_books _ w).trans (publish_books _ _)
  · exact modifyPhase_books _ w

theorem failRun_books (hends : (failRun action fault w).Ends w' r) :
    Books w w' ∧ ∃ other, r = .error other := by
  rcases failRun_cases hends with ⟨stamp, -, rfl, rfl⟩ | ⟨other, -, rfl, rfl⟩
  · exact ⟨(modifyRun_books _ w).trans (publish_books _ _), _, rfl⟩
  · exact ⟨modifyRun_books _ w, other, rfl⟩

theorem completeRun_books {start : Stamp} (hends : (completeRun start w).Ends w' r) :
    Books w w' := by
  rcases completeRun_cases hends with ⟨stamp, -, rfl, -⟩ | ⟨other, -, -, rfl⟩
  · exact (modifyRun_books _ w).trans (publish_books _ _)
  · exact modifyRun_books _ w

theorem Concludes.books {start : Stamp} {v : World} {s : Except Fault Unit}
    (h : Concludes action start v s w' r) : Books v w' ∧ (r = .ok () → s = .ok ()) := by
  cases h with
  | returned hends => exact ⟨completePhase_books hends, fun _ => rfl⟩
  | failed hplain hends =>
      obtain ⟨hbooks, other, rfl⟩ := failPhase_books hends
      exact ⟨hbooks, by simp⟩
  | fatal hfatal => exact ⟨.refl _, id⟩

theorem opened_books (action : PhaseAction) (start : Stamp) (w : World) :
    Books w (opened action start w).1 := (modifyPhase_books _ w).trans (publish_books _ _)

theorem launched_books (o : Orchestrator) (planRef : String) (agent : Value) (start : Stamp)
    (w : World) : Books w (o.launched planRef agent start w).1 :=
  (commence_books o planRef agent start w).trans (publish_books _ _)

end Orchestrator

/-! ### Stints -/

/-- One phase of a run: the worlds between which its activity was performed, and how that ended. -/
structure Stint where
  action : PhaseAction
  before : World
  after : World
  result : Except Fault Unit

namespace Stint

def IsPerformed (brief : Brief) (stint : Stint) : Prop :=
  ((stint.action.activity brief).perform brief stint.action.id stint.before).Ends stint.after
    stint.result

/-- From the world `u` the stints lead to the world `v`, with nothing but book-keeping between
them. -/
def Chain (brief : Brief) : World → List Stint → World → Prop
  | u, [], v => Books u v
  | u, stint :: rest, v =>
    Books u stint.before ∧ stint.IsPerformed brief ∧ Chain brief stint.after rest v

variable {brief : Brief} {u v w : World} {stints : List Stint}

theorem IsPerformed.elapses {stint : Stint} (h : stint.IsPerformed brief) :
    Elapses stint.before stint.after := (Steps.onward (Activity.perform_steps h)).toElapses

theorem returned_before_cons {stint : Stint} {later : List Stint} :
    (∀ other ∈ (stint :: later).dropLast, other.result = .ok ()) ↔
      (later ≠ [] → stint.result = .ok ()) ∧ ∀ other ∈ later.dropLast, other.result = .ok () := by
  cases later with
  | nil => simp
  | cons next more => simp

theorem Chain.after_books (hbooks : Books u v) (h : Chain brief v stints w) :
    Chain brief u stints w := by
  cases stints with
  | nil => exact hbooks.trans h
  | cons stint rest => exact ⟨hbooks.trans h.1, h.2⟩

theorem Chain.then_books (h : Chain brief u stints v) (hbooks : Books v w) :
    Chain brief u stints w := by
  induction stints generalizing u with
  | nil => exact Books.trans h hbooks
  | cons stint rest ih => exact ⟨h.1, h.2.1, ih h.2.2⟩

theorem Chain.last_books {stint : Stint} (h : Chain brief u (stints ++ [stint]) v) :
    Books stint.after v := by
  induction stints generalizing u with
  | nil => exact h.2.2
  | cons first rest ih => exact ih h.2.2

theorem Chain.elapses (h : Chain brief u stints v) : Elapses u v := by
  induction stints generalizing u with
  | nil => exact Books.elapses h
  | cons stint rest ih => exact (h.1.elapses.trans h.2.1.elapses).trans (ih h.2.2)

end Stint

namespace Orchestrator

variable {brief : Brief} {action : PhaseAction} {w w' : World} {r : Except Fault Unit}

/-- A phase is one stint, unless it fails before its activity is performed. -/
theorem executePhase_chain (hends : (executePhase brief action w).Ends w' r) :
    ∃ stints, Stint.Chain brief w stints w' ∧
      ((stints = [] ∧ ∃ fault, r = .error fault) ∨
        ∃ stint, stints = [stint] ∧ stint.action = action ∧
          (r = .ok () → stint.result = .ok ())) := by
  rcases executePhase_cases hends with
    ⟨start, -, ⟨fault, -, rfl, rfl⟩ | ⟨-, v, s, hperform, hrest⟩⟩ | ⟨other, -, rfl, rfl⟩
  · exact ⟨[], opened_books action start w, Or.inl ⟨rfl, fault, rfl⟩⟩
  · obtain ⟨hbooks, hresult⟩ := hrest.books
    exact ⟨[⟨action, _, v, s⟩], ⟨opened_books action start w, hperform, hbooks⟩,
      Or.inr ⟨_, rfl, rfl, hresult⟩⟩
  · exact ⟨[], modifyPhase_books _ w, Or.inl ⟨rfl, other, rfl⟩⟩

/-- Phases are performed in their order, each after the one before it has returned. -/
theorem phasesFrom_chain {total index : Nat} {actions : List PhaseAction}
    (hends : (phasesFrom brief total index actions w).Ends w' r) :
    ∃ stints, Stint.Chain brief w stints w' ∧ stints.map (·.action) <+: actions ∧
      (∀ stint ∈ stints.dropLast, stint.result = .ok ()) ∧
      (r = .ok () → stints.map (·.action) = actions ∧ ∀ stint ∈ stints, stint.result = .ok ()) := by
  induction actions generalizing index w with
  | nil =>
      obtain ⟨rfl, rfl⟩ := Course.ends_ended.mp hends
      exact ⟨[], Books.refl _, by simp, by simp, by simp⟩
  | cons action rest ih =>
      obtain ⟨v, s, hphase, hrest⟩ := phasesFrom_cons.mp hends
      obtain ⟨stints, hchain, hstints⟩ := executePhase_chain hphase
      have hchain := hchain.after_books (atIndex_books index w)
      have hfew : stints.map (·.action) <+: action :: rest ∧ stints.dropLast = [] := by
        rcases hstints with ⟨rfl, -⟩ | ⟨stint, rfl, rfl, -⟩
        · exact ⟨by simp, rfl⟩
        · exact ⟨by simp, rfl⟩
      cases hrest with
      | failed hplain hfail =>
          obtain ⟨hbooks, other, rfl⟩ := failRun_books hfail
          exact ⟨stints, hchain.then_books hbooks, hfew.1, by simp [hfew.2], by simp⟩
      | fatal hfatal => exact ⟨stints, hchain, hfew.1, by simp [hfew.2], by simp⟩
      | untold hsome =>
          exact ⟨stints, hchain.then_books (announce_books _ v), hfew.1, by simp [hfew.2], by simp⟩
      | returned hnone hgo =>
          rcases hstints with ⟨-, fault, hfault⟩ | ⟨stint, rfl, rfl, hreturned⟩
          · cases hfault
          obtain ⟨later, hlater, hprefix, hbefore, hall⟩ := ih hgo
          have hok : stint.result = .ok () := hreturned rfl
          refine ⟨stint :: later, ⟨hchain.1, hchain.2.1, ?_⟩, ?_, ?_, ?_⟩
          · exact hlater.after_books (Books.trans hchain.2.2 (announce_books _ v))
          · simpa using hprefix
          · exact Stint.returned_before_cons.mpr ⟨fun _ => hok, hbefore⟩
          · intro hr
            obtain ⟨hactions, hresults⟩ := hall hr
            refine ⟨by simp [hactions], ?_⟩
            intro other hother
            rcases List.mem_cons.mp hother with rfl | hmem
            · exact hok
            · exact hresults other hmem

theorem Proceeds.elapses {total index : Nat} {rest : List PhaseAction} {v : World}
    {s : Except Fault Unit} (h : Proceeds brief total index action rest v s w' r) :
    Elapses v w' := by
  cases h with
  | returned hnone hends =>
      obtain ⟨stints, hchain, -⟩ := phasesFrom_chain hends
      exact (announce_books _ v).elapses.trans hchain.elapses
  | untold hsome => exact (announce_books _ v).elapses
  | failed hplain hends => exact (failRun_books hends).1.elapses
  | fatal hfatal => exact .refl _

/-! ### The progress of the run -/

theorem failPhase_progress {fault : Fault} (hends : (failPhase action fault w).Ends w' r) :
    w'.progress? = w.progress? := by
  rcases failPhase_cases hends with ⟨stamp, -, rfl, -⟩ | ⟨other, -, -, rfl⟩
  · rw [publish_progress?, broken, modifyPhase_progress?]
  · rw [modifyPhase_progress?]

theorem completePhase_progress {start : Stamp} (hends : (completePhase action start w).Ends w' r) :
    w'.progress? = w.progress? := by
  rcases completePhase_cases hends with ⟨stamp, -, rfl, -⟩ | ⟨other, -, -, rfl⟩
  · rw [publish_progress?, modifyPhase_progress?]
  · rw [modifyPhase_progress?]

theorem executePhase_progress (hends : (executePhase brief action w).Ends w' r) :
    w'.progress? = w.progress? := by
  have hopened (start : Stamp) : (opened action start w).1.progress? = w.progress? := by
    rw [opened, publish_progress?, modifyPhase_progress?]
  rcases executePhase_cases hends with ⟨start, -, ⟨fault, -, rfl, -⟩ | ⟨-, v, s, hperform, hrest⟩⟩ |
    ⟨other, -, -, rfl⟩
  · exact hopened start
  · have hv : v.progress? = w.progress? := by
      rw [(Steps.onward (Activity.perform_steps hperform)).progress?, hopened start]
    cases hrest with
    | returned hends => rw [completePhase_progress hends, hv]
    | failed hplain hends => rw [failPhase_progress hends, hv]
    | fatal hfatal => exact hv
  · rw [modifyPhase_progress?]

theorem atIndex_progress? (index : Nat) (w : World) :
    (atIndex index w).progress? = w.progress? := by
  apply modifyRun_progress?_of_keeps
  intro run
  rfl

theorem failRun_status {fault : Fault} (hends : (failRun action fault w).Ends w' r) :
    w'.progress?.map (·.1) = w.progress?.map fun _ => .failed := by
  rcases failRun_cases hends with ⟨stamp, -, rfl, -⟩ | ⟨other, -, -, rfl⟩
  · rw [publish_progress?, modifyRun_closed_progress?, Option.map_map]
    rfl
  · simp only [progress?, modifyRun, Option.map_map]
    rfl

/-- After the phases the run is under way as before, or it has failed. -/
theorem phasesFrom_status {total index : Nat} {actions : List PhaseAction}
    (hends : (phasesFrom brief total index actions w).Ends w' r) :
    w'.progress? = w.progress? ∨ w'.progress?.map (·.1) = w.progress?.map fun _ => .failed := by
  induction actions generalizing index w with
  | nil =>
      obtain ⟨rfl, -⟩ := Course.ends_ended.mp hends
      exact Or.inl rfl
  | cons action rest ih =>
      obtain ⟨v, s, hphase, hrest⟩ := phasesFrom_cons.mp hends
      have hv : v.progress? = w.progress? := by
        rw [executePhase_progress hphase, atIndex_progress?]
      rw [← hv]
      cases hrest with
      | returned hnone hgo =>
          rw [← announce_progress? (progressEvent action (index + 1) total) v]
          exact ih hgo
      | untold hsome => exact Or.inl (announce_progress? _ v)
      | failed hplain hfail => exact Or.inr (failRun_status hfail)
      | fatal hfatal => exact Or.inl rfl

/-! ### Whole runs -/

variable {o : Orchestrator} {planRef : String} {agent : Value} {result : Except Fault Nat}

theorem launched_progress (o : Orchestrator) (planRef : String) (agent : Value) (start : Stamp)
    (w : World) : (o.launched planRef agent start w).1.progress? = some (.running, none) := by
  rw [launched, publish_progress?]
  rfl

/-- A run performs its phases in their order, each after the one before it has returned, and it is
completed only if all have returned. -/
theorem run_chain (hidle : isBusy w = false) (hends : (o.run planRef agent w).Ends w' result) :
    ∃ stints, Stint.Chain (o.briefing planRef agent) w stints w' ∧
      stints.map (·.action) <+: o.actions ∧
      (∀ stint ∈ stints.dropLast, stint.result = .ok ()) ∧
      (w.runCount < w'.runCount → w'.progress?.map (·.1) = some .completed →
        stints.map (·.action) = o.actions ∧ ∀ stint ∈ stints, stint.result = .ok ()) := by
  rcases run_cases hidle hends with ⟨start, -, ⟨fault, -, rfl, -⟩ | ⟨-, v, s, hphases, hrest⟩⟩ |
    ⟨other, -, -, rfl⟩
  · refine ⟨[], launched_books o planRef agent start w, by simp, by simp, ?_⟩
    intro _ hcompleted
    rw [launched_progress] at hcompleted
    cases hcompleted
  · obtain ⟨stints, hchain, hprefix, hbefore, hall⟩ := phasesFrom_chain hphases
    have hchain := hchain.after_books (launched_books o planRef agent start w)
    rcases hrest with ⟨fault, rfl, rfl, -⟩ | ⟨rfl, s', hcomplete, -⟩
    · refine ⟨stints, hchain, hprefix, hbefore, ?_⟩
      intro _ hcompleted
      rcases phasesFrom_status hphases with hsame | hfailed
      · rw [hsame, launched_progress] at hcompleted
        cases hcompleted
      · rw [hfailed, launched_progress] at hcompleted
        cases hcompleted
    · exact ⟨stints, hchain.then_books (completeRun_books hcomplete), hprefix, hbefore,
        fun _ _ => hall rfl⟩
  · exact ⟨[], Books.refl w', by simp, by simp, fun hbegun => absurd hbegun (Nat.lt_irrefl _)⟩

end Orchestrator

end Conductor
