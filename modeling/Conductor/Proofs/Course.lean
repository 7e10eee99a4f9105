import Conductor.Course

/-!
How a course may end. Each time it waits, either the moment it waits for comes or it is told to stop
before that; a course that waits for nothing ends only if it is told to. So a statement about every
end of a course covers being left alone, being stopped at any point of waiting, with any message,
and being stopped again while it cleans up.
-/

namespace Conductor

namespace Course

variable {α β : Type}

/-- The course can end in the world `w'` with the result `r'`. -/
inductive Ends : Course α → World → Except Fault α → Prop where
  | ended (w : World) (r : Except Fault α) : Ends (ended w r) w r
  | goesOn {w w' : World} {due : Time} {go : World → Course α} {stop : World → String → Course α}
      {r' : Except Fault α} : Ends (go (w.advanceTo due)) w' r' → Ends (waiting w due go stop) w' r'
  | stops {w w' : World} {due : Time} {go : World → Course α} {stop : World → String → Course α}
      {r' : Except Fault α} (t : Time) (message : String) :
      Ends (stop (w.advanceTo t) message) w' r' → Ends (waiting w due go stop) w' r'
  | isFreed {w w' : World} {stop : World → String → Course α} {r' : Except Fault α}
      (t : Time) (message : String) :
      Ends (stop (w.advanceTo t) message) w' r' → Ends (hanging w stop) w' r'

@[simp]
theorem ends_ended {w w' : World} {r r' : Except Fault α} :
    (Course.ended w r).Ends w' r' ↔ w' = w ∧ r' = r := by
  constructor
  · rintro ⟨⟩
    exact ⟨rfl, rfl⟩
  · rintro ⟨rfl, rfl⟩
    exact .ended w' r'

theorem ends_waiting {w w' : World} {due : Time} {go : World → Course α}
    {stop : World → String → Course α} {r' : Except Fault α} :
    (waiting w due go stop).Ends w' r' ↔
      (go (w.advanceTo due)).Ends w' r' ∨
        ∃ t message, (stop (w.advanceTo t) message).Ends w' r' := by
  constructor
  · intro h
    cases h with
    | goesOn h => exact Or.inl h
    | stops t message h => exact Or.inr ⟨t, message, h⟩
  · rintro (h | ⟨t, message, h⟩)
    · exact .goesOn h
    · exact .stops t message h

theorem ends_hanging {w w' : World} {stop : World → String → Course α} {r' : Except Fault α} :
    (hanging w stop).Ends w' r' ↔
      ∃ t message, (stop (w.advanceTo t) message).Ends w' r' := by
  constructor
  · intro h
    cases h with
    | isFreed t message h => exact ⟨t, message, h⟩
  · rintro ⟨t, message, h⟩
    exact .isFreed t message h

/-- Two courses one after the other end where the second ends, from an end of the first. -/
theorem ends_andThen {c : Course α} {next : World → Except Fault α → Course β} {w' : World}
    {r' : Except Fault β} :
    (c.andThen next).Ends w' r' ↔ ∃ v s, c.Ends v s ∧ (next v s).Ends w' r' := by
  induction c with
  | ended w r =>
      constructor
      · intro h
        exact ⟨w, r, .ended w r, h⟩
      · rintro ⟨v, s, ⟨⟩, h⟩
        exact h
  | waiting w due go stop ihgo ihstop =>
      simp only [andThen, ends_waiting, ihgo, ihstop]
      constructor
      · rintro (⟨v, s, hgo, h⟩ | ⟨t, message, v, s, hstop, h⟩)
        · exact ⟨v, s, Or.inl hgo, h⟩
        · exact ⟨v, s, Or.inr ⟨t, message, hstop⟩, h⟩
      · rintro ⟨v, s, hgo | ⟨t, message, hstop⟩, h⟩
        · exact Or.inl ⟨v, s, hgo, h⟩
        · exact Or.inr ⟨t, message, v, s, hstop, h⟩
  | hanging w stop ihstop =>
      simp only [andThen, ends_hanging, ihstop]
      constructor
      · rintro ⟨t, message, v, s, hstop, h⟩
        exact ⟨v, s, ⟨t, message, hstop⟩, h⟩
      · rintro ⟨v, s, ⟨t, message, hstop⟩, h⟩
        exact ⟨t, message, v, s, hstop, h⟩

theorem ends_bind {c : Course α} {next : World → α → Course β} {w' : World}
    {r' : Except Fault β} :
    (c.bind next).Ends w' r' ↔
      (∃ v a, c.Ends v (.ok a) ∧ (next v a).Ends w' r') ∨
        ∃ fault, c.Ends w' (.error fault) ∧ r' = .error fault := by
  rw [bind, ends_andThen]
  constructor
  · rintro ⟨v, s, hc, h⟩
    cases s with
    | ok a => exact Or.inl ⟨v, a, hc, h⟩
    | error fault =>
        obtain ⟨rfl, rfl⟩ := ends_ended.mp h
        exact Or.inr ⟨fault, hc, rfl⟩
  · rintro (⟨v, a, hc, h⟩ | ⟨fault, hc, rfl⟩)
    · exact ⟨v, .ok a, hc, h⟩
    · exact ⟨w', .error fault, hc, .ended w' _⟩

/-- A course that is left alone ends as it is followed to its end. -/
theorem ends_of_finish {c : Course α} {r : Except Fault α} (hfinish : c.finish.2 = some r) :
    c.Ends c.finish.1 r := by
  induction c with
  | ended w s =>
      cases hfinish
      exact .ended w r
  | waiting w due go stop ihgo ihstop => exact .goesOn (ihgo _ hfinish)
  | hanging w stop ihstop => cases hfinish

end Course

namespace Flow

variable {α β : Type}

theorem ends_step {act : World → World × Option Fault} {w w' : World} {r : Except Fault Unit} :
    (step act w).Ends w' r ↔ w' = (act w).1 ∧ r = (act w).2.elim (.ok ()) .error := by
  unfold step
  cases act w with
  | mk v fault => cases fault <;> exact Course.ends_ended

theorem stamped_of_stamp {next : Stamp → Flow α} {w : World} {stamp : Stamp}
    (hstamp : w.stamp = .ok stamp) : stamped next w = next stamp w := by
  rw [stamped, hstamp, World.proceed]

theorem ends_seq {first : Flow α} {second : α → Flow β} {w w' : World} {r : Except Fault β} :
    (seq first second w).Ends w' r ↔
      (∃ v a, (first w).Ends v (.ok a) ∧ (second a v).Ends w' r) ∨
        ∃ fault, (first w).Ends w' (.error fault) ∧ r = .error fault :=
  Course.ends_bind

/-- After a step that may fail, the rest is reached only if it did not. -/
theorem ends_step_bind {act : World → World × Option Fault} {next : World → Unit → Course α}
    {w w' : World} {r : Except Fault α} :
    ((step act w).bind next).Ends w' r ↔
      (act w).2 = none ∧ (next (act w).1 ()).Ends w' r ∨
        ∃ fault, (act w).2 = some fault ∧ w' = (act w).1 ∧ r = .error fault := by
  unfold step
  cases act w with
  | mk v reaction =>
      cases reaction with
      | none => simp [Course.bind, Course.andThen]
      | some fault => simp [Course.bind, Course.andThen]

theorem ends_step_fail {act : World → World × Option Fault} {fault : Fault} {w w' : World}
    {r : Except Fault α} :
    (seq (step act) (fun _ => fail fault) w).Ends w' r ↔
      w' = (act w).1 ∧ r = .error ((act w).2.getD fault) := by
  unfold seq fail
  rw [ends_step_bind]
  cases act w with
  | mk v reaction => cases reaction <;> simp

end Flow

end Conductor
