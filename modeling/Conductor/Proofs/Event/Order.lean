import Conductor.Proofs.Event.Snapshot

/-!
In which order hooks hear of events when they publish events themselves. An event that is published
while another one is being delivered goes to all hooks at once, before the rest of them have heard
of the first. So a hook hears of two events in the order in which they were published exactly if it
had heard of the first when the second was published.
-/

namespace Conductor

/-- It publishes nothing, whatever comes of what it does. -/
def Conduct.IsSilent : Conduct → Prop
  | done => True
  | raise _ => True
  | subscribe _ next => ∀ handle, (next handle).IsSilent
  | unsubscribe _ next => next.IsSilent
  | publish _ _ => False

theorem Conduct.isSilent_ofDeeds {deeds : List Deed}
    (hdeeds : ∀ deed ∈ deeds, ∀ event, deed ≠ .publish event) : (ofDeeds deeds).IsSilent := by
  induction deeds with
  | nil => trivial
  | cons deed deeds ih =>
      obtain ⟨hdeed, hrest⟩ := List.forall_mem_cons.mp hdeeds
      cases deed with
      | subscribe hook => exact fun _ => ih hrest
      | unsubscribe handle => exact ih hrest
      | raise fault => trivial
      | publish event => exact hdeed event rfl

namespace Occurrence

variable {bus : Bus String} {entries more : List Occurrence} {i j n m : Nat} {hook hook' : String}
  {a b : Event}

/-- A hook is told of an earlier publication before one is told of a later one exactly if that was
before the later one was made. -/
theorem IsPassage.before_iff (h : IsPassage none 0 bus entries)
    (hi : entries[i]? = some (.called n hook a)) (hj : entries[j]? = some (.called m hook' b))
    (hlt : n < m) : i < j ↔ i < m := by
  constructor
  · intro hij
    by_contra hle
    have hnested := h.nested i j n m hij (by rw [hi]; rfl) (by rw [hj]; rfl) (by omega)
    omega
  · intro him
    obtain hnone | ⟨k, hk, hm, -⟩ := h.announced j m hook' b hj
    · cases hnone
    · omega

theorem IsPassage.made_of_called (h : IsPassage none 0 bus entries)
    (hi : entries[i]? = some (.called n hook a)) : n < i ∧ entries[n]? = some (.made a) := by
  obtain hnone | ⟨k, hk, hn, hmade⟩ := h.announced i n hook a hi
  · cases hnone
  · obtain rfl : n = k := by omega
    exact ⟨hk, hmade⟩

/-! ### Hooks that publish nothing -/

/-- Hooks were told of every publication before a later one was made. -/
def AtOnce (entries : List Occurrence) : Prop :=
  ∀ (i n m : Nat) (hook : String) (a b : Event), entries[i]? = some (.called n hook a) →
    entries[m]? = some (.made b) → n < m → i < m

/-- It goes on so with a passage in which only the first entry may say that an event is
published. -/
theorem AtOnce.append (h : AtOnce entries) (hmore : IsPassage none entries.length bus more)
    (hfirst : ∀ k event, more[k]? = some (.made event) → k = 0) : AtOnce (entries ++ more) := by
  intro i n m hook a b hcalled hmade hlt
  by_cases hi : i < entries.length
  · by_cases hm : m < entries.length
    · rw [List.getElem?_append_left hi] at hcalled
      rw [List.getElem?_append_left hm] at hmade
      exact h i n m hook a b hcalled hmade hlt
    · omega
  · rw [List.getElem?_append_right (by omega)] at hcalled
    obtain hnone | ⟨k, hk, hn, -⟩ := hmore.announced _ n hook a hcalled
    · cases hnone
    · -- The later publication would be made inside of the new passage, behind its first entry.
      rw [List.getElem?_append_right (by omega)] at hmade
      have hzero := hfirst _ b hmade
      omega

end Occurrence

namespace Minutes

open Occurrence

variable {behave : List Occurrence → String → Event → Conduct}
  {publishing : Event → Minutes → Minutes × Option Fault} {start m : Minutes} {depth : Nat}

/-- The minutes go on from others, and no event is published in between. -/
def GoesOnUnmade (start m : Minutes) : Prop :=
  ∃ more, m.entries = start.entries ++ more ∧ ∀ event, .made event ∉ more

theorem GoesOnUnmade.enter (h : GoesOnUnmade start m) {entry : Occurrence}
    (hentry : ∀ event, entry ≠ .made event) : GoesOnUnmade start (m.enter entry) := by
  obtain ⟨more, hentries, hmore⟩ := h
  refine ⟨more ++ [entry], by simp [Minutes.enter, hentries], ?_⟩
  intro event hmem
  rcases List.mem_append.mp hmem with hmem | hmem
  · exact hmore event hmem
  · exact hentry event (List.mem_singleton.mp hmem).symm

theorem run_unmade {conduct : Conduct} (hsilent : conduct.IsSilent) (h : GoesOnUnmade start m) :
    GoesOnUnmade start (conduct.run publishing m).1 := by
  induction conduct generalizing m with
  | done => exact h
  | raise fault => exact h
  | subscribe hook next ih => exact ih _ (hsilent _) (h.enter (by simp))
  | unsubscribe handle next ih => exact ih hsilent (h.enter (by simp))
  | publish event next ih => exact hsilent.elim

/-- A publication to hooks that publish nothing is the only one there is until it ends. -/
theorem publish_unmade (hsilent : ∀ history hook event, (behave history hook event).IsSilent)
    (depth : Nat) (event : Event) (m : Minutes) :
    GoesOnUnmade (m.enter (.made event)) (publish behave (depth + 1) event m).1 := by
  have hstart : GoesOnUnmade (m.enter (.made event)) (m.enter (.made event)) := ⟨[], by simp⟩
  refine GoesOnUnmade.enter (Bus.publish_keeps ?_ ?_ hstart) (by simp)
  · exact fun _ _ _ h => h
  · intro hook m' h
    have htold : GoesOnUnmade (m.enter (.made event)) (m'.tell m.entries.length hook event) :=
      GoesOnUnmade.enter h (by simp)
    exact GoesOnUnmade.enter (run_unmade (hsilent _ hook event) htold) (by simp)

theorem change_atOnce (h : AtOnce m.entries) (deed : Deed) : AtOnce (m.change deed).entries := by
  refine h.append m.change_continues.passage ?_
  rintro (_ | k) event hmade
  · rfl
  · simp at hmade

/-- Whoever acts from outside, and whatever was published before. -/
theorem run_atOnce (hsilent : ∀ history hook event, (behave history hook event).IsSilent)
    (conduct : Conduct) (h : AtOnce m.entries) :
    AtOnce (conduct.run (publish behave depth) m).1.entries := by
  induction conduct generalizing m with
  | done => exact h
  | raise fault => exact h
  | subscribe hook next ih =>
      exact ih _ (change_atOnce h (.subscribe hook))
  | unsubscribe handle next ih =>
      exact ih (change_atOnce h (.unsubscribe handle))
  | publish event next ih =>
      refine ih _ ?_
      cases depth with
      | zero => exact h
      | succ depth =>
          obtain ⟨more, hmore⟩ := goesOn_publish behave (depth + 1) event m
          obtain ⟨rest, hrest, hunmade⟩ := publish_unmade hsilent depth event m
          have hsame : more = .made event :: rest := by
            have hentries := hmore.entries.symm.trans hrest
            simpa [Minutes.enter] using hentries
          rw [hmore.entries]
          refine h.append hmore.passage ?_
          intro k other hmade
          rw [hsame] at hmade
          cases k with
          | zero => rfl
          | succ k =>
              rw [List.getElem?_cons_succ] at hmade
              exact absurd (List.mem_of_getElem? hmade) (hunmade other)

/-! ### The order of what is heard -/

/-- What hooks were told, in order. -/
def heard (m : Minutes) : List (String × Event) := m.entries.filterMap delivery?

theorem ofConduct_heard (behave : List Occurrence → String → Event → Conduct) (depth : Nat)
    (bus : Bus String) (conduct : Conduct) :
    (ofConduct behave depth bus conduct).heard =
      (ofConduct behave depth bus conduct).board.deliveries.reverse := by
  rw [(ofConduct_continues behave depth bus conduct).deliveries]
  simp [heard]

/-- Of two publications, each known by the position at which it was made, a hook hears of the first
before one hears of the second exactly if it heard of it before the second was made. If no hook
publishes anything, it always did. Hooks may behave in any way that depends on all that has
happened; what they hear is what the board has delivered, and hooks that do deeds in order hear what
they hear on a switchboard. -/
theorem heard_in_order_iff (behave : List Occurrence → String → Event → Conduct) (depth : Nat)
    (bus : Bus String) (conduct : Conduct) :
    (ofConduct behave depth bus conduct).heard =
        (ofConduct behave depth bus conduct).board.deliveries.reverse ∧
      (∀ (i j n m : Nat) (hook hook' : String) (a b : Event),
        (ofConduct behave depth bus conduct).entries[i]? = some (.called n hook a) →
        (ofConduct behave depth bus conduct).entries[j]? = some (.called m hook' b) → n < m →
        (ofConduct behave depth bus conduct).entries[n]? = some (.made a) ∧
          (ofConduct behave depth bus conduct).entries[m]? = some (.made b) ∧
          (i < j ↔ i < m) ∧
          ((∀ history hook event, (behave history hook event).IsSilent) → i < j)) ∧
      ∀ react deeds,
        (ofConduct (fun _ hook event => .ofDeeds (react hook event)) Switchboard.maxDepth bus
          (.ofDeeds deeds)).heard =
            (Switchboard.inOrder (Switchboard.act react) deeds { bus }).1.deliveries.reverse := by
  refine ⟨ofConduct_heard behave depth bus conduct, ?_, ?_⟩
  · intro i j n m hook hook' a b hi hj hlt
    have hpassage := (ofConduct_continues behave depth bus conduct).passage
    have hiff := hpassage.before_iff hi hj hlt
    obtain ⟨-, hmade⟩ := hpassage.made_of_called hj
    refine ⟨(hpassage.made_of_called hi).2, hmade, hiff, ?_⟩
    intro hsilent
    have hatOnce : AtOnce (ofConduct behave depth bus conduct).entries :=
      run_atOnce hsilent conduct (by simp [AtOnce])
    exact hiff.mpr (hatOnce i n m hook a b hi hmade hlt)
  · intro react deeds
    rw [ofConduct_heard, ofConduct_ofDeeds_board]

def question : Event := Switchboard.line "question"

def answer : Event := Switchboard.line "answer"

/-- A hook that may act, and one that listens. -/
def audience : Bus String where
  subscribers := ["relay", "listener"]

/-- The hook `relay` answers the first thing that it is told, and no other hook does anything. -/
def answering (history : List Occurrence) (hook : String) (_ : Event) : Conduct :=
  if hook = "relay" ∧ (history.filterMap delivery?).length = 1 then
    .publish answer fun _ => .done
  else .done

/-- The hook `relay` lets another one in whenever it is told something. -/
def inviting (hook : String) : List Deed := if hook = "relay" then [.subscribe "guest"] else []

/-- A question is asked, and a hook answers it. -/
def dialogue : Minutes := ofConduct answering 2 audience (.ofDeeds [.publish question])

/-- A question is asked and answered from outside. -/
def monologue : Minutes :=
  ofConduct (fun _ hook _ => .ofDeeds (inviting hook)) 1 audience
    (.ofDeeds [.publish question, .publish answer])

/-- The listener hears the answer of the other hook before the question, because it had not heard of
the question when the answer was published. An answer from outside it hears after the question. -/
theorem heard_in_order_iff_of_audience :
    (dialogue.entries[9]? = some (.called 0 "listener" question) ∧
      dialogue.entries[5]? = some (.called 2 "listener" answer) ∧ ¬9 < 2) ∧
    ∃ i j : Nat, monologue.entries[i]? = some (.called 0 "listener" question) ∧
      monologue.entries[j]? = some (.called 7 "listener" answer) ∧ i < j := by
  constructor
  · refine ⟨rfl, rfl, ?_⟩
    obtain ⟨-, horder, -⟩ := heard_in_order_iff answering 2 audience (.ofDeeds [.publish question])
    obtain ⟨-, -, hiff, -⟩ :=
      horder 9 5 0 2 "listener" "listener" question answer rfl rfl (by decide)
    rw [← hiff]
    decide
  · refine ⟨4, 11, rfl, rfl, ?_⟩
    obtain ⟨-, horder, -⟩ := heard_in_order_iff (fun _ hook _ => .ofDeeds (inviting hook)) 1
      audience (.ofDeeds [.publish question, .publish answer])
    obtain ⟨-, -, -, hsilent⟩ :=
      horder 4 11 0 7 "listener" "listener" question answer rfl rfl (by decide)
    refine hsilent fun _ hook _ => Conduct.isSilent_ofDeeds ?_
    unfold inviting
    split <;> simp

end Minutes

end Conductor
