import Conductor.Proofs.World
import Conductor.Proofs.Time.Elapsed
import Mathlib.Order.Defs.PartialOrder
import Mathlib.Data.List.Chain

/-!
Consistent runs: the phases before the current one are completed, those after it have not been
touched, marks and stamps fit each other, and all stamps are in order.
-/

namespace Conductor

open World

/-! ### The order of stamps -/

instance : Preorder Stamp where
  le s t := s.micros ≤ t.micros
  le_refl s := Int.le_refl s.micros
  le_trans _ _ _ := Int.le_trans

theorem Stamp.micros_of_after {s t : Stamp} {micros : Int} (h : s.after micros = .ok t) :
    t.micros = s.micros + micros := by
  simp only [after] at h
  split at h
  · cases h
  · split at h
    · cases h
    · split at h
      · cases h
        rfl
      · cases h

namespace World

theorem micros_of_stamp {w : World} {stamp : Stamp} (h : w.stamp = .ok stamp) :
    stamp.micros = w.epoch.micros + Time.micros w.now := by
  unfold World.stamp at h
  cases hafter : w.epoch.after (Time.micros w.now) with
  | error problem =>
      rw [hafter] at h
      cases h
  | ok stamp' =>
      rw [hafter] at h
      cases h
      exact Stamp.micros_of_after hafter

/-- What comes later does not bear an earlier stamp. -/
theorem Elapses.stamp_le {u v : World} (h : Elapses u v) {s t : Stamp} (hs : u.stamp = .ok s)
    (ht : v.stamp = .ok t) : s ≤ t := by
  change s.micros ≤ t.micros
  have hmicros := Time.micros_mono h.now
  rw [micros_of_stamp hs, micros_of_stamp ht, h.epoch]
  exact Int.add_le_add_left (Int.ofNat_le.mpr hmicros) _

end World

/-- Stamps in order, none of which is later than `now`. -/
structure UpTo (now : Stamp) (stamps : List Stamp) : Prop where
  sorted : stamps.Pairwise (· ≤ ·)
  le : ∀ stamp ∈ stamps, stamp ≤ now

namespace UpTo

variable {now later : Stamp} {stamps : List Stamp}

theorem singleton (now : Stamp) : UpTo now [now] := ⟨by simp, by simp⟩

theorem mono (h : UpTo now stamps) (hle : now ≤ later) : UpTo later stamps :=
  ⟨h.sorted, fun stamp hstamp => (h.le stamp hstamp).trans hle⟩

theorem concat (h : UpTo now stamps) (hle : now ≤ later) : UpTo later (stamps ++ [later]) := by
  constructor
  · apply List.pairwise_append.mpr
    refine ⟨h.sorted, by simp, ?_⟩
    intro s hs t ht
    rw [List.mem_singleton.mp ht]
    exact (h.le s hs).trans hle
  · intro s hs
    rcases List.mem_append.mp hs with hs | hs
    · exact (h.le s hs).trans hle
    · rw [List.mem_singleton.mp hs]

end UpTo

/-! ### Consistent runs -/

namespace Phase

/-- The stamps of the phase that are set. -/
def stamps (phase : Phase) : List Stamp := phase.start.toList ++ phase.finish.toList

/-- The marks and stamps of the phase fit each other. -/
structure IsConsistent (phase : Phase) : Prop where
  start : phase.start.isSome ↔ phase.status ≠ .pending
  finish : phase.finish.isSome ↔ phase.status = .completed ∨ phase.status = .failed
  error : phase.error.isSome ↔ phase.status = .failed

theorem IsConsistent.stamps_eq_nil {phase : Phase} (h : phase.IsConsistent)
    (hpending : phase.status = .pending) : phase.stamps = [] := by
  have hstart := h.start
  have hfinish := h.finish
  simp_all [stamps]

end Phase

namespace Run

/-- The stamps of the run that are set, in the order of its phases. -/
def stamps (run : Run) : List Stamp :=
  run.start :: run.phases.flatMap Phase.stamps ++ run.finish.toList

structure IsConsistent (run : Run) : Prop where
  phases : ∀ phase ∈ run.phases, phase.IsConsistent
  earlier : ∀ phase ∈ run.phases.take run.index, phase.status = .completed
  /-- A run with phases is at one of them. -/
  current : run.phases ≠ [] → ∃ phase, run.currentPhase? = some phase ∧
    (phase.status = .pending → run.index = 0 ∧ run.status = .running)
  later : ∀ phase ∈ run.phases.drop (run.index + 1), phase.status = .pending
  completed : run.status = .completed → ∀ phase ∈ run.phases, phase.status = .completed
  failed : run.status = .failed → ∃ phase, run.currentPhase? = some phase ∧ phase.status = .failed
  finish : run.finish.isSome ↔ run.status = .completed ∨ run.status = .failed
  stamps : run.stamps.Pairwise (· ≤ ·)

/-- The second run may be seen next after the first. -/
def Next (run next : Run) : Prop :=
  next.index = run.index ∨
    next.index = run.index + 1 ∧
      ∃ phase, run.currentPhase? = some phase ∧ phase.status = .completed

theorem Next.refl (run : Run) : run.Next run := Or.inl rfl

/-- A chain stays one if each of its members is repeated equally often. -/
theorem isChain_repeated (times : Nat) {moments : List Run} {final : Run}
    (h : (moments ++ [final]).IsChain Next) :
    (moments.flatMap (List.replicate times) ++ [final]).IsChain Next := by
  cases times with
  | zero =>
      have hnone : moments.flatMap (List.replicate 0) = [] := by
        apply List.flatMap_eq_nil_iff.mpr
        simp
      rw [hnone]
      exact .singleton final
  | succ times =>
      induction moments with
      | nil => simp
      | cons run rest ih =>
          rw [List.cons_append, List.isChain_cons] at h
          rw [List.flatMap_cons, List.append_assoc]
          refine List.isChain_append.mpr ⟨?_, ih h.2, ?_⟩
          · exact List.isChain_replicate_of_rel _ (.refl run)
          · intro last hlast first hfirst
            have hsame : last = run := by
              rw [List.getLast?_replicate] at hlast
              simpa using hlast.symm
            rw [hsame]
            apply h.1
            cases rest with
            | nil => exact hfirst
            | cons next more => simpa [List.replicate_succ] using hfirst

theorem IsConsistent.of_record {run : Run} (h : run.record.IsConsistent) : run.IsConsistent :=
  ⟨h.phases, h.earlier, h.current, h.later, h.completed, h.failed, h.finish, h.stamps⟩

section

variable {run : Run} {done rest : List Phase} {phase : Phase}

/-- A run is consistent if its parts are: the phases before the current one, that one, those after
it. -/
theorem isConsistent_of_phases (hphases : run.phases = done ++ phase :: rest)
    (hindex : run.index = done.length)
    (hdone : ∀ p ∈ done, p.IsConsistent ∧ p.status = .completed) (hphase : phase.IsConsistent)
    (hrest : ∀ p ∈ rest, p.IsConsistent ∧ p.status = .pending)
    (hpending : phase.status = .pending → done = [] ∧ run.status = .running)
    (hcompleted : run.status = .completed → phase.status = .completed ∧ rest = [])
    (hfailed : run.status = .failed → phase.status = .failed)
    (hfinish : run.finish.isSome ↔ run.status = .completed ∨ run.status = .failed)
    (hstamps : (run.start :: done.flatMap Phase.stamps ++ phase.stamps ++
      run.finish.toList).Pairwise (· ≤ ·)) : run.IsConsistent := by
  have hcurrent : run.currentPhase? = some phase := by
    simp [currentPhase?, hphases, hindex]
  refine ⟨?_, ?_, ?_, ?_, ?_, ?_, hfinish, ?_⟩
  · intro p hp
    rw [hphases] at hp
    rcases List.mem_append.mp hp with hp | hp
    · exact (hdone p hp).1
    · rcases List.mem_cons.mp hp with rfl | hp
      · exact hphase
      · exact (hrest p hp).1
  · intro p hp
    rw [hphases, hindex, List.take_left] at hp
    exact (hdone p hp).2
  · intro _
    refine ⟨phase, hcurrent, ?_⟩
    intro hstatus
    obtain ⟨rfl, hrunning⟩ := hpending hstatus
    exact ⟨hindex, hrunning⟩
  · intro p hp
    have hdrop : run.phases.drop (run.index + 1) = rest := by
      rw [hphases, hindex, ← List.drop_drop, List.drop_left]
      rfl
    rw [hdrop] at hp
    exact (hrest p hp).2
  · intro hstatus p hp
    obtain ⟨hlast, rfl⟩ := hcompleted hstatus
    rw [hphases] at hp
    rcases List.mem_append.mp hp with hp | hp
    · exact (hdone p hp).2
    · rw [List.mem_singleton.mp hp]
      exact hlast
  · intro hstatus
    exact ⟨phase, hcurrent, hfailed hstatus⟩
  · have hlate : rest.flatMap Phase.stamps = [] := by
      apply List.flatMap_eq_nil_iff.mpr
      intro p hp
      exact (hrest p hp).1.stamps_eq_nil (hrest p hp).2
    have hall : run.stamps = run.start :: done.flatMap Phase.stamps ++ phase.stamps ++
        run.finish.toList := by
      simp [stamps, hphases, hlate]
    rw [hall]
    exact hstamps

/-- A run without phases has nothing but its own marks. -/
theorem isConsistent_of_nil (hphases : run.phases = []) (hfailed : run.status ≠ .failed)
    (hfinish : run.finish.isSome ↔ run.status = .completed ∨ run.status = .failed)
    (hstamps : (run.start :: run.finish.toList).Pairwise (· ≤ ·)) : run.IsConsistent := by
  refine ⟨?_, ?_, ?_, ?_, ?_, ?_, hfinish, ?_⟩
  · simp [hphases]
  · simp [hphases]
  · intro hsome
    exact absurd hphases hsome
  · simp [hphases]
  · simp [hphases]
  · intro hstatus
    exact absurd hstatus hfailed
  · simpa [stamps, hphases] using hstamps

end

/-- The run at a phase, with other phases before and after it. -/
def atPhase (done rest : List Phase) (run : Run) (phase : Phase) : Run :=
  { run with phases := done ++ phase :: rest, index := done.length }

theorem currentPhase?_atPhase (done rest : List Phase) (run : Run) (phase : Phase) :
    (run.atPhase done rest phase).currentPhase? = some phase := by
  simp [currentPhase?, atPhase]

theorem drop_atPhase (done rest : List Phase) (run : Run) (phase : Phase) :
    (run.atPhase done rest phase).phases.drop (done.length + 1) = rest := by
  unfold atPhase
  rw [← List.drop_drop, List.drop_left]
  rfl

end Run

end Conductor
