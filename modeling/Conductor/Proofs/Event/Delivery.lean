import Conductor.Event.Switchboard

/-!
Rows of calls. An event goes to hooks one after the other, until one of them fails; so what each
call keeps, and what it does to a view of the state, holds of a whole publication.
-/

namespace Conductor

namespace Bus

variable {η σ τ : Type} (view : σ → τ)

/-- What calls do to a view of the state, a row of them does to the view. -/
theorem deliver_view {call : η → σ → σ × Option Fault} {call' : η → τ → τ × Option Fault}
    (hcall : ∀ hook s, (view (call hook s).1, (call hook s).2) = call' hook (view s))
    (hooks : List η) (s : σ) :
    (view (deliver call hooks s).1, (deliver call hooks s).2) = deliver call' hooks (view s) := by
  induction hooks generalizing s with
  | nil => rfl
  | cons hook rest ih =>
      rw [deliver, deliver, ← hcall hook s]
      cases call hook s with
      | mk after fault =>
          cases fault with
          | none => exact ih after
          | some fault => rfl

theorem publish_view {note : Severity → String → σ → σ} {note' : Severity → String → τ → τ}
    {hooks : σ → List η} {hooks' : τ → List η} {call : η → Event → σ → σ × Option Fault}
    {call' : η → Event → τ → τ × Option Fault} {event : Event}
    (hnote : ∀ severity line s, view (note severity line s) = note' severity line (view s))
    (hhooks : ∀ s, hooks s = hooks' (view s))
    (hcall : ∀ hook s, (view (call hook event s).1, (call hook event s).2) =
      call' hook event (view s)) (s : σ) :
    (view (publish note hooks call event s).1, (publish note hooks call event s).2) =
      publish note' hooks' call' event (view s) := by
  unfold publish
  cases event.notice with
  | error fault => rfl
  | ok notice =>
      cases notice with
      | none =>
          simp only [hhooks]
          exact deliver_view view hcall _ s
      | some notice =>
          simp only [hhooks, hnote]
          rw [← hnote]
          exact deliver_view view hcall _ _

/-- Publishing is a row of calls of the hooks that are subscribed once the event is noted, unless it
cannot be noted. -/
theorem publish_cases (note : Severity → String → σ → σ) (hooks : σ → List η)
    (call : η → Event → σ → σ × Option Fault) (event : Event) (s : σ) :
    (∃ fault, event.notice = .error fault ∧
        publish note hooks call event s = (s, some fault)) ∨
      ∃ noted, (noted = s ∨ ∃ severity line, noted = note severity line s) ∧
        publish note hooks call event s =
          deliver (fun hook => call hook event) (hooks noted) noted := by
  unfold publish
  cases event.notice with
  | error fault => exact Or.inl ⟨fault, rfl, rfl⟩
  | ok notice =>
      cases notice with
      | none => exact Or.inr ⟨s, Or.inl rfl, rfl⟩
      | some notice => exact Or.inr ⟨_, Or.inr ⟨_, _, rfl⟩, rfl⟩

/-- What each call of a row keeps, the row keeps. -/
theorem deliver_keeps {P : σ → Prop} {call : η → σ → σ × Option Fault} {hooks : List η} {s : σ}
    (hcall : ∀ hook s, P s → P (call hook s).1) (hs : P s) : P (deliver call hooks s).1 := by
  induction hooks generalizing s with
  | nil => exact hs
  | cons hook rest ih =>
      have hhook := hcall hook s hs
      rw [deliver]
      cases hafter : call hook s with
      | mk after fault =>
          rw [hafter] at hhook
          cases fault with
          | some fault => exact hhook
          | none => exact ih hhook

/-- What each of its calls keeps, a publication keeps. -/
theorem publish_keeps {P : σ → Prop} {note : Severity → String → σ → σ} {hooks : σ → List η}
    {call : η → Event → σ → σ × Option Fault} {event : Event} {s : σ}
    (hnote : ∀ severity line s, P s → P (note severity line s))
    (hcall : ∀ hook s, P s → P (call hook event s).1) (hs : P s) :
    P (publish note hooks call event s).1 := by
  obtain ⟨fault, -, hpublish⟩ | ⟨noted, hnoted, hpublish⟩ := publish_cases note hooks call event s
  · rw [hpublish]
    exact hs
  · rw [hpublish]
    refine deliver_keeps hcall ?_
    obtain rfl | ⟨severity, line, rfl⟩ := hnoted
    · exact hs
    · exact hnote severity line s hs

end Bus

/-- An event of which only the message matters. -/
def Switchboard.line (message : String) : Event := { kind := .log, message, stamp := ⟨0⟩ }

end Conductor
