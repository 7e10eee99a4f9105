import Conductor.Proofs.Event.Subscription
import Mathlib.Algebra.Order.Group.Nat

/-!
To whom a publication goes. Hooks may do anything while an event is delivered to them: subscribe
hooks and take subscriptions back, publish other events and go on if that fails, or fail themselves.
Whatever they do, every publication goes to those who were subscribed when it was made, one after
the other, up to the first that fails; and what they change is there for every later publication.
-/

namespace Conductor

/-- What a hook does when it is called. It can see the handle of each new subscription, and what
came of each event that it has published. -/
inductive Conduct where
  | done
  | raise (fault : Fault)
  | subscribe (hook : String) (next : Nat → Conduct)
  | unsubscribe (handle : Nat) (next : Conduct)
  | publish (event : Event) (next : Option Fault → Conduct)

/-- Deeds in order, until one of them fails. -/
def Conduct.ofDeeds : List Deed → Conduct
  | [] => done
  | .subscribe hook :: rest => subscribe hook fun _ => ofDeeds rest
  | .unsubscribe handle :: rest => unsubscribe handle (ofDeeds rest)
  | .raise fault :: _ => raise fault
  | .publish event :: rest =>
    publish event fun
      | none => ofDeeds rest
      | some fault => raise fault

/-- What happens on a bus. A publication is known by the position at which it was made. -/
inductive Occurrence where
  | changed (deed : Deed)
  | made (event : Event)
  | called (publication : Nat) (hook : String) (event : Event)
  | returned (publication : Nat) (hook : String) (fault : Option Fault)
  | ended (publication : Nat) (fault : Option Fault)

/-- A board, with all that has happened on it, in order. -/
structure Minutes where
  board : Switchboard
  entries : List Occurrence := []

namespace Minutes

def note (severity : Severity) (line : String) (m : Minutes) : Minutes :=
  { m with board := m.board.note severity line }

def enter (m : Minutes) (entry : Occurrence) : Minutes :=
  { m with entries := m.entries ++ [entry] }

/-- A hook is told of an event. -/
def tell (publication : Nat) (hook : String) (event : Event) (m : Minutes) : Minutes :=
  { m with board := m.board.receive hook event }.enter (.called publication hook event)

/-- Subscribes a hook or calls a handle. -/
def change (m : Minutes) (deed : Deed) : Minutes :=
  { m with board := { m.board with bus := deed.change m.board.bus } }.enter (.changed deed)

end Minutes

/-- Behaves in a certain way, given how events are published. -/
def Conduct.run (publishing : Event → Minutes → Minutes × Option Fault) :
    Conduct → Minutes → Minutes × Option Fault
  | done, m => (m, none)
  | raise fault, m => (m, some fault)
  | subscribe hook next, m =>
    (next m.board.bus.issued.length).run publishing (m.change (.subscribe hook))
  | unsubscribe handle next, m => next.run publishing (m.change (.unsubscribe handle))
  | publish event next, m =>
    (next (publishing event m).2).run publishing (publishing event m).1

namespace Minutes

/-- Calls a hook as part of a publication. -/
def call (behave : List Occurrence → String → Event → Conduct)
    (publishing : Event → Minutes → Minutes × Option Fault) (publication : Nat) (hook : String)
    (event : Event) (m : Minutes) : Minutes × Option Fault :=
  let told := m.tell publication hook event
  let after := (behave told.entries hook event).run publishing told
  (after.1.enter (.returned publication hook after.2), after.2)

/-- Publishes an event. How a hook behaves may depend on all that has happened; `depth` bounds how
many events may be under delivery inside one another. -/
def publish (behave : List Occurrence → String → Event → Conduct) :
    Nat → Event → Minutes → Minutes × Option Fault
  | 0, _, m => (m, some .tooDeep)
  | depth + 1, event, m =>
    let after := Bus.publish note (·.board.bus.subscribers)
      (call behave (publish behave depth) m.entries.length) event (m.enter (.made event))
    (after.1.enter (.ended m.entries.length after.2), after.2)

/-- The minutes of what someone outside does, and of all that comes of it. -/
def ofConduct (behave : List Occurrence → String → Event → Conduct) (depth : Nat)
    (bus : Bus String) (conduct : Conduct) : Minutes :=
  (conduct.run (publish behave depth) { board := { bus } }).1

/-! ### Keeping minutes changes nothing -/

section Scripts

variable {react : String → Event → List Deed} {depth : Nat}

theorem run_ofDeeds_board {publishing : Event → Minutes → Minutes × Option Fault}
    (hpublishing : ∀ event m, ((publishing event m).1.board, (publishing event m).2) =
      Switchboard.perform react depth (.publish event) m.board) (deeds : List Deed) (m : Minutes) :
    (((Conduct.ofDeeds deeds).run publishing m).1.board,
        ((Conduct.ofDeeds deeds).run publishing m).2) =
      Switchboard.inOrder (Switchboard.perform react depth) deeds m.board := by
  induction deeds generalizing m with
  | nil => rfl
  | cons deed deeds ih =>
      rw [Switchboard.inOrder]
      cases deed with
      | subscribe hook => cases depth <;> exact ih (m.change (.subscribe hook))
      | unsubscribe handle => cases depth <;> exact ih (m.change (.unsubscribe handle))
      | raise fault => cases depth <;> rfl
      | publish event =>
          rw [← hpublishing event m, Conduct.ofDeeds, Conduct.run]
          cases publishing event m with
          | mk after fault =>
              cases fault with
              | none => exact ih after
              | some fault => rfl

theorem publish_board (event : Event) (m : Minutes) :
    ((publish (fun _ hook event => .ofDeeds (react hook event)) depth event m).1.board,
        (publish (fun _ hook event => .ofDeeds (react hook event)) depth event m).2) =
      Switchboard.perform react depth (.publish event) m.board := by
  induction depth generalizing event m with
  | zero => rfl
  | succ depth ih =>
      refine Bus.publish_view board ?_ ?_ ?_ (m.enter (.made event))
      · exact fun _ _ _ => rfl
      · exact fun _ => rfl
      · intro hook m'
        exact run_ofDeeds_board ih (react hook event) (m'.tell m.entries.length hook event)

end Scripts

end Minutes

/-! ### The calls of a publication -/

namespace Occurrence

/-- The change of the bus, if it is one. -/
def deed? : Occurrence → Option Deed
  | changed deed => some deed
  | _ => none

/-- The publication to which it belongs, if it is a call of a hook or an end. -/
def publication? : Occurrence → Option Nat
  | called publication .. => some publication
  | returned publication .. => some publication
  | ended publication _ => some publication
  | _ => none

/-- The hook that is told and the event, if a hook is called. -/
def delivery? : Occurrence → Option (String × Event)
  | called _ hook event => some (hook, event)
  | _ => none

/-- The entries of one publication. -/
def ofPublication (publication : Nat) (entries : List Occurrence) : List Occurrence :=
  entries.filter fun entry => decide (entry.publication? = some publication)

/-- The bus after all changes. -/
def busAfter (bus : Bus String) (entries : List Occurrence) : Bus String :=
  (entries.filterMap deed?).foldl Deed.change bus

/-- Hooks are told of an event one after the other, and none of them fails. -/
def rounds (publication : Nat) (event : Event) (hooks : List String) : List Occurrence :=
  hooks.flatMap fun hook => [called publication hook event, returned publication hook none]

/-- The calls of a publication that goes to `hooks`, and the failure with which it ends: all hooks
are told of the event, or those up to the first that fails. -/
inductive Calls (publication : Nat) (event : Event) (hooks : List String) :
    Option Fault → List Occurrence → Prop where
  | all : Calls publication event hooks none (rounds publication event hooks)
  | cut {before after : List String} {hook : String} (hhooks : hooks = before ++ hook :: after)
      (fault : Fault) :
      Calls publication event hooks (some fault)
        (rounds publication event before ++
          [called publication hook event, returned publication hook (some fault)])

variable {publication : Nat} {event : Event} {hook : String} {hooks : List String}
  {fault : Option Fault} {entries s t : List Occurrence}

theorem Calls.cons (h : Calls publication event hooks fault entries) :
    Calls publication event (hook :: hooks) fault
      ([called publication hook event, returned publication hook none] ++ entries) := by
  cases h with
  | all => exact .all
  | @cut before after last hhooks fault =>
      have hmore : hook :: hooks = (hook :: before) ++ last :: after := by rw [hhooks]; rfl
      exact .cut hmore fault

theorem Calls.event_eq {told : String} {other : Event}
    (h : Calls publication event hooks fault entries)
    (hmem : .called publication told other ∈ entries) : other = event := by
  have hround : ∀ row, .called publication told other ∈ rounds publication event row →
      other = event := by
    intro row hrow
    obtain ⟨hook, -, hcall⟩ := List.mem_flatMap.mp hrow
    cases hcall with
    | head => rfl
    | tail _ hreturned => cases List.mem_singleton.mp hreturned
  cases h with
  | all => exact hround hooks hmem
  | @cut before after last hhooks fault =>
      rcases List.mem_append.mp hmem with hbefore | hlast
      · exact hround before hbefore
      · cases hlast with
        | head => rfl
        | tail _ hreturned => cases List.mem_singleton.mp hreturned

theorem ofPublication_append (publication : Nat) (s t : List Occurrence) :
    ofPublication publication (s ++ t) =
      ofPublication publication s ++ ofPublication publication t :=
  List.filter_append ..

theorem ofPublication_eq_nil
    (h : ∀ entry ∈ entries, ∀ n, entry.publication? = some n → n ≠ publication) :
    ofPublication publication entries = [] := by
  refine List.filter_eq_nil_iff.mpr fun entry hentry hsame => ?_
  exact h entry hentry publication (of_decide_eq_true hsame) rfl

theorem busAfter_append (bus : Bus String) (s t : List Occurrence) :
    busAfter bus (s ++ t) = busAfter (busAfter bus s) t := by
  rw [busAfter, List.filterMap_append, List.foldl_append]
  rfl

/-! ### Passages of minutes -/

/-- The entries from position `start` on, made while the bus changed from `bus`. They may be part of
the delivery of an earlier publication, `outer`; every other publication of the passage is made in
it, and goes to those who are subscribed at that moment. -/
structure IsPassage (outer : Option Nat) (start : Nat) (bus : Bus String)
    (entries : List Occurrence) : Prop where
  numbered : ∀ entry ∈ entries, ∀ n, entry.publication? = some n →
    outer = some n ∨ start ≤ n ∧ n < start + entries.length
  /-- A hook is told of an event after the event was published. -/
  announced : ∀ (i n : Nat) (hook : String) (event : Event),
    entries[i]? = some (.called n hook event) →
      outer = some n ∨ ∃ k < i, n = start + k ∧ entries[k]? = some (.made event)
  /-- While a publication is under way, nothing happens of an earlier one. -/
  nested : ∀ i j n m, i < j → entries[i]?.bind publication? = some n →
    entries[j]?.bind publication? = some m → m ≤ start + i → m ≤ n
  told : ∀ i event, entries[i]? = some (.made event) → event.level.severity?.isSome = true →
    ∃ fault calls, Calls (start + i) event (busAfter bus (entries.take i)).subscribers fault calls ∧
      ofPublication (start + i) entries = calls ++ [.ended (start + i) fault]

namespace IsPassage

variable {outer : Option Nat} {start : Nat} {bus : Bus String}

theorem nil : IsPassage outer start bus [] := ⟨by simp, by simp, by simp, by simp⟩

/-- An entry with which no publication begins. -/
theorem singleton {entry : Occurrence} (hentry : ∀ event, entry ≠ .made event)
    (hnumber : ∀ n, entry.publication? = some n → outer = some n) :
    IsPassage outer start bus [entry] := by
  refine ⟨?_, ?_, ?_, ?_⟩
  · intro other hother n hn
    rw [List.mem_singleton.mp hother] at hn
    exact Or.inl (hnumber n hn)
  · intro i n hook event hcalled
    cases i with
    | zero => exact Or.inl (hnumber n (by rw [Option.some.inj hcalled]; rfl))
    | succ i => simp at hcalled
  · intro i j n m hlt _ hlater
    cases j with
    | zero => omega
    | succ j => simp at hlater
  · intro i event hmade _
    cases i with
    | zero => exact absurd (Option.some.inj hmade) (hentry event)
    | succ i => simp at hmade

theorem append (houter : ∀ n, outer = some n → n < start) (hs : IsPassage outer start bus s)
    (ht : IsPassage outer (start + s.length) (busAfter bus s) t) :
    IsPassage outer start bus (s ++ t) := by
  refine ⟨?_, ?_, ?_, ?_⟩
  · intro entry hentry n hn
    rw [List.length_append]
    rcases List.mem_append.mp hentry with hmem | hmem
    · exact (hs.numbered entry hmem n hn).imp_right (by omega)
    · exact (ht.numbered entry hmem n hn).imp_right (by omega)
  · intro i n hook event hcalled
    by_cases hi : i < s.length
    · rw [List.getElem?_append_left hi] at hcalled
      refine (hs.announced i n hook event hcalled).imp_right ?_
      rintro ⟨k, hk, hn, hmade⟩
      exact ⟨k, hk, hn, by rwa [List.getElem?_append_left (by omega)]⟩
    · rw [List.getElem?_append_right (by omega)] at hcalled
      refine (ht.announced (i - s.length) n hook event hcalled).imp_right ?_
      rintro ⟨k, hk, hn, hmade⟩
      refine ⟨s.length + k, by omega, by omega, ?_⟩
      rwa [List.getElem?_append_right (by omega), Nat.add_sub_cancel_left]
  · intro i j n m hlt hn hm hle
    by_cases hj : j < s.length
    · rw [List.getElem?_append_left hj] at hm
      rw [List.getElem?_append_left (by omega)] at hn
      exact hs.nested i j n m hlt hn hm hle
    · rw [List.getElem?_append_right (by omega)] at hm
      by_cases hi : i < s.length
      · -- What goes on after the first part is the outer publication.
        rw [List.getElem?_append_left hi] at hn
        obtain ⟨earlier, hearlier, hn⟩ := Option.bind_eq_some_iff.mp hn
        obtain ⟨later, hlater, hm⟩ := Option.bind_eq_some_iff.mp hm
        rcases ht.numbered later (List.mem_of_getElem? hlater) m hm with hisOuter | hnew
        · have hbefore := houter m hisOuter
          rcases hs.numbered earlier (List.mem_of_getElem? hearlier) n hn with hown | hnew
          · exact (Option.some.inj (hisOuter.symm.trans hown)).le
          · omega
        · omega
      · rw [List.getElem?_append_right (by omega)] at hn
        exact ht.nested (i - s.length) (j - s.length) n m (by omega) hn hm (by omega)
  · intro i event hmade hlevel
    by_cases hi : i < s.length
    · -- What comes later belongs to later publications, or to the outer one.
      have hnone : ofPublication (start + i) t = [] := by
        refine ofPublication_eq_nil fun entry hentry n hn => ?_
        rcases ht.numbered entry hentry n hn with hisOuter | hnew
        · have := houter n hisOuter
          omega
        · omega
      rw [List.getElem?_append_left hi] at hmade
      rw [ofPublication_append, hnone, List.append_nil, List.take_append_of_le_length hi.le]
      exact hs.told i event hmade hlevel
    · have hnone : ofPublication (start + i) s = [] := by
        refine ofPublication_eq_nil fun entry hentry n hn => ?_
        rcases hs.numbered entry hentry n hn with hisOuter | hnew
        · have := houter n hisOuter
          omega
        · omega
      rw [List.getElem?_append_right (by omega)] at hmade
      have htold := ht.told (i - s.length) event hmade hlevel
      have hplace : start + s.length + (i - s.length) = start + i := by omega
      rw [hplace, ← busAfter_append, ← List.take_length_add_append] at htold
      rw [ofPublication_append, hnone, List.nil_append]
      have hi' : s.length + (i - s.length) = i := by omega
      rwa [hi'] at htold

theorem mono (h : IsPassage none start bus entries) : IsPassage outer start bus entries := by
  refine ⟨?_, ?_, h.nested, h.told⟩
  · intro entry hentry n hn
    rcases h.numbered entry hentry n hn with hnone | hnew
    · cases hnone
    · exact Or.inr hnew
  · intro i n hook event hcalled
    rcases h.announced i n hook event hcalled with hnone | hmade
    · cases hnone
    · exact Or.inr hmade

theorem ofPublication_eq_nil_of_lt (h : IsPassage none start bus entries)
    (hlt : publication < start) : ofPublication publication entries = [] := by
  refine ofPublication_eq_nil fun entry hentry n hn => ?_
  rcases h.numbered entry hentry n hn with hnone | hnew
  · cases hnone
  · omega

/-- A publication together with all that it leads to. -/
theorem of_delivery (h : IsPassage (some start) (start + 1) bus entries)
    (hevent : ∀ hook other, .called start hook other ∈ entries → other = event)
    (htold : event.level.severity?.isSome = true → ∃ fault calls,
      Calls start event bus.subscribers fault calls ∧
        ofPublication start entries = calls ++ [.ended start fault]) :
    IsPassage none start bus (.made event :: entries) := by
  refine ⟨?_, ?_, ?_, ?_⟩
  · intro entry hentry n hn
    rw [List.length_cons]
    rcases List.mem_cons.mp hentry with rfl | hmem
    · cases hn
    · rcases h.numbered entry hmem n hn with hown | hnew
      · cases hown
        omega
      · omega
  · intro i n hook other hcalled
    cases i with
    | zero => cases hcalled
    | succ i =>
        refine Or.inr ?_
        rcases h.announced i n hook other hcalled with hown | ⟨k, hk, hn, hmade⟩
        · cases hown
          rw [hevent hook other (List.mem_of_getElem? hcalled)]
          exact ⟨0, Nat.succ_pos i, rfl, rfl⟩
        · exact ⟨k + 1, by omega, by omega, hmade⟩
  · intro i j n m hlt hn hm hle
    cases j with
    | zero => omega
    | succ j =>
        cases i with
        | zero => cases hn
        | succ i => exact h.nested i j n m (by omega) hn hm (by omega)
  · intro i other hmade hlevel
    have hskip (n : Nat) : ofPublication n (.made event :: entries) = ofPublication n entries :=
      List.filter_cons_of_neg (by simp [publication?])
    rw [hskip]
    cases i with
    | zero =>
        cases hmade
        exact htold hlevel
    | succ i =>
        have hlater := h.told i other hmade hlevel
        rw [Nat.add_right_comm, Nat.add_assoc] at hlater
        exact hlater

end IsPassage

end Occurrence

namespace Minutes

open Occurrence

/-- The second minutes go on from the first with the entries `more`. -/
structure Continues (outer : Option Nat) (m m' : Minutes) (more : List Occurrence) : Prop where
  entries : m'.entries = m.entries ++ more
  bus : m'.board.bus = busAfter m.board.bus more
  deliveries : m'.board.deliveries.reverse =
    m.board.deliveries.reverse ++ more.filterMap delivery?
  passage : IsPassage outer m.entries.length m.board.bus more

variable {behave : List Occurrence → String → Event → Conduct}
  {publishing : Event → Minutes → Minutes × Option Fault} {outer : Option Nat}
  {m m' m'' : Minutes} {s t : List Occurrence} {publication depth : Nat} {event : Event}

theorem Continues.refl (m : Minutes) : Continues outer m m [] :=
  ⟨by simp, rfl, by simp, .nil⟩

theorem Continues.trans (houter : ∀ n, outer = some n → n < m.entries.length)
    (hs : Continues outer m m' s) (ht : Continues outer m' m'' t) :
    Continues outer m m'' (s ++ t) := by
  refine ⟨?_, ?_, ?_, ?_⟩
  · rw [ht.entries, hs.entries, List.append_assoc]
  · rw [ht.bus, hs.bus, busAfter_append]
  · rw [ht.deliveries, hs.deliveries, List.filterMap_append, List.append_assoc]
  · have hpassage := ht.passage
    rw [hs.entries, List.length_append, hs.bus] at hpassage
    exact hs.passage.append houter hpassage

theorem Continues.mono (h : Continues none m m' s) : Continues outer m m' s :=
  ⟨h.entries, h.bus, h.deliveries, h.passage.mono⟩

/-- What goes on from the minutes with another log goes on from the minutes. -/
theorem Continues.of_noted {noted : Minutes} (hnoted : noted = m ∨ ∃ severity line,
    noted = note severity line m) (h : Continues outer noted m' s) : Continues outer m m' s := by
  obtain rfl | ⟨severity, line, rfl⟩ := hnoted
  · exact h
  · exact ⟨h.entries, h.bus, h.deliveries, h.passage⟩

theorem change_continues (m : Minutes) {deed : Deed} :
    Continues none m (m.change deed) [.changed deed] :=
  ⟨rfl, rfl, by simp [change, enter, delivery?], .singleton (by simp) (by simp [publication?])⟩

/-- How events are published leads from minutes to minutes that go on from them. -/
def GoesOn (publishing : Event → Minutes → Minutes × Option Fault) : Prop :=
  ∀ event m, ∃ more, Continues none m (publishing event m).1 more

theorem run_continues (hpublishing : GoesOn publishing) (conduct : Conduct) (m : Minutes) :
    ∃ more, Continues none m (conduct.run publishing m).1 more := by
  induction conduct generalizing m with
  | done => exact ⟨[], .refl m⟩
  | raise fault => exact ⟨[], .refl m⟩
  | subscribe hook next ih =>
      obtain ⟨more, hmore⟩ := ih m.board.bus.issued.length (m.change (.subscribe hook))
      exact ⟨_, m.change_continues.trans (by simp) hmore⟩
  | unsubscribe handle next ih =>
      obtain ⟨more, hmore⟩ := ih (m.change (.unsubscribe handle))
      exact ⟨_, m.change_continues.trans (by simp) hmore⟩
  | publish event next ih =>
      obtain ⟨first, hfirst⟩ := hpublishing event m
      obtain ⟨more, hmore⟩ := ih (publishing event m).2 (publishing event m).1
      exact ⟨_, hfirst.trans (by simp) hmore⟩

/-- An entry that belongs to the publication under delivery, other than a call. -/
theorem enter_continues (m : Minutes) {entry : Occurrence}
    (hentry : entry.publication? = some publication) (hdelivery : entry.delivery? = none) :
    Continues (some publication) m (m.enter entry) [entry] := by
  refine ⟨rfl, ?_, ?_, .singleton ?_ ?_⟩
  · cases entry with
    | changed deed => cases hentry
    | _ => rfl
  · simp [enter, hdelivery]
  · rintro event rfl
    cases hentry
  · intro n hn
    rw [← hn, hentry]

/-- One call of a hook. Whatever the hook does belongs to other publications. -/
theorem call_continues (behave : List Occurrence → String → Event → Conduct)
    (hpublishing : GoesOn publishing) (hook : String) (event : Event)
    (hlt : publication < m.entries.length) :
    ∃ more,
      Continues (some publication) m (call behave publishing publication hook event m).1 more ∧
      ofPublication publication more = [.called publication hook event,
        .returned publication hook (call behave publishing publication hook event m).2] := by
  obtain ⟨inner, hinner⟩ := run_continues hpublishing
    (behave (m.tell publication hook event).entries hook event) (m.tell publication hook event)
  have htell : Continues (some publication) m (m.tell publication hook event)
      [.called publication hook event] :=
    ⟨rfl, rfl, by simp [tell, enter, Switchboard.receive, delivery?],
      .singleton (by simp) (by simp [publication?])⟩
  have hlater : publication < (m.tell publication hook event).entries.length := by
    rw [htell.entries, List.length_append]
    exact Nat.lt_add_right _ hlt
  have houter : ∀ n, some publication = some n → n < m.entries.length := by
    rintro n ⟨⟩
    exact hlt
  refine ⟨_, (htell.trans houter hinner.mono).trans houter (enter_continues _ rfl rfl), ?_⟩
  rw [ofPublication_append, ofPublication_append, hinner.passage.ofPublication_eq_nil_of_lt hlater]
  simp [ofPublication, publication?, call]

/-- The calls of a publication, one after the other. -/
theorem deliver_continues (behave : List Occurrence → String → Event → Conduct)
    (hpublishing : GoesOn publishing) (event : Event) (hooks : List String)
    (hlt : publication < m.entries.length) :
    ∃ more, Continues (some publication) m
        (Bus.deliver (call behave publishing publication · event) hooks m).1 more ∧
      Calls publication event hooks
        (Bus.deliver (call behave publishing publication · event) hooks m).2
        (ofPublication publication more) := by
  induction hooks generalizing m with
  | nil => exact ⟨[], .refl m, .all⟩
  | cons hook hooks ih =>
      obtain ⟨first, hfirst, hown⟩ := call_continues behave hpublishing hook event hlt
      rw [Bus.deliver]
      cases hcall : call behave publishing publication hook event m with
      | mk after fault =>
          rw [hcall] at hfirst hown
          cases fault with
          | some fault =>
              refine ⟨first, hfirst, ?_⟩
              rw [hown]
              exact .cut (List.nil_append (hook :: hooks)).symm fault
          | none =>
              have hlater : publication < after.entries.length := by
                rw [hfirst.entries, List.length_append]
                exact Nat.lt_add_right _ hlt
              have houter : ∀ n, some publication = some n → n < m.entries.length := by
                rintro n ⟨⟩
                exact hlt
              obtain ⟨more, hmore, hcalls⟩ := ih hlater
              refine ⟨first ++ more, hfirst.trans houter hmore, ?_⟩
              rw [ofPublication_append, hown]
              exact hcalls.cons

/-- All that comes of a publication. Noting it for the log changes neither the bus nor the
minutes, so the hooks are those that are subscribed when it is made. -/
theorem publish_continues (hpublishing : GoesOn (publish behave depth)) (event : Event)
    (m : Minutes) :
    ∃ more, Continues (some m.entries.length) (m.enter (.made event))
        (publish behave (depth + 1) event m).1 more ∧
      (∀ hook other, .called m.entries.length hook other ∈ more → other = event) ∧
      (event.level.severity?.isSome = true → ∃ calls,
        Calls m.entries.length event m.board.bus.subscribers
          (publish behave (depth + 1) event m).2 calls ∧
        ofPublication m.entries.length more =
          calls ++ [.ended m.entries.length (publish behave (depth + 1) event m).2]) := by
  have hlt : m.entries.length < (m.enter (.made event)).entries.length := by simp [enter]
  have houter : ∀ n, some m.entries.length = some n →
      n < (m.enter (.made event)).entries.length := by
    rintro n ⟨⟩
    exact hlt
  obtain ⟨fault, hfault, hpublish⟩ | ⟨noted, hnoted, hpublish⟩ := Bus.publish_cases note
    (·.board.bus.subscribers) (call behave (publish behave depth) m.entries.length) event
    (m.enter (.made event))
  · simp only [publish, hpublish]
    refine ⟨_, enter_continues _ rfl rfl, by simp, ?_⟩
    intro hlevel
    obtain ⟨severity, hseverity⟩ := Option.isSome_iff_exists.mp hlevel
    obtain ⟨notice, hnotice⟩ := Event.notice_of_severity event hseverity
    rw [hfault] at hnotice
    cases hnotice
  · have hsame : noted.entries = (m.enter (.made event)).entries ∧
        noted.board.bus.subscribers = m.board.bus.subscribers := by
      obtain rfl | ⟨severity, line, rfl⟩ := hnoted <;> exact ⟨rfl, rfl⟩
    simp only [publish, hpublish, hsame.2]
    obtain ⟨more, hmore, hcalls⟩ := deliver_continues behave hpublishing event
      m.board.bus.subscribers (hlt.trans_eq (congrArg List.length hsame.1.symm))
    refine ⟨_, (hmore.of_noted hnoted).trans houter (enter_continues _ rfl rfl), ?_, ?_⟩
    · intro hook other hcalled
      have hmore : .called m.entries.length hook other ∈ more := by simpa using hcalled
      exact hcalls.event_eq (List.mem_filter.mpr ⟨hmore, decide_eq_true rfl⟩)
    · intro _
      refine ⟨_, hcalls, ?_⟩
      rw [ofPublication_append]
      simp [ofPublication, publication?]

theorem goesOn_publish (behave : List Occurrence → String → Event → Conduct) (depth : Nat) :
    GoesOn (publish behave depth) := by
  induction depth with
  | zero => exact fun event m => ⟨[], .refl m⟩
  | succ depth ih =>
      intro event m
      obtain ⟨more, hmore, hevent, htold⟩ := publish_continues ih event m
      refine ⟨.made event :: more, ?_, hmore.bus, hmore.deliveries, ?_⟩
      · rw [hmore.entries]
        simp [enter]
      · have hpassage := hmore.passage
        simp only [enter, List.length_append, List.length_singleton] at hpassage
        exact hpassage.of_delivery hevent fun hlevel => ⟨_, htold hlevel⟩

/-- All that there is in the minutes of a run goes on from the empty minutes. -/
theorem ofConduct_continues (behave : List Occurrence → String → Event → Conduct) (depth : Nat)
    (bus : Bus String) (conduct : Conduct) :
    Continues none { board := { bus } } (ofConduct behave depth bus conduct)
      (ofConduct behave depth bus conduct).entries := by
  obtain ⟨more, hmore⟩ := run_continues (goesOn_publish behave depth) conduct { board := { bus } }
  have hentries : (ofConduct behave depth bus conduct).entries = more := hmore.entries
  rw [hentries]
  exact hmore

theorem ofConduct_ofDeeds_board (react : String → Event → List Deed) (bus : Bus String)
    (deeds : List Deed) :
    (ofConduct (fun _ hook event => .ofDeeds (react hook event)) Switchboard.maxDepth bus
      (.ofDeeds deeds)).board = (Switchboard.inOrder (Switchboard.act react) deeds { bus }).1 :=
  congrArg Prod.fst (run_ofDeeds_board publish_board deeds _)

/-- A publication goes to the hooks that are subscribed when it is made, in order, up to the first
that fails, and ends with that failure; what hooks change is kept. So it is for every publication of
a run, at any depth: it goes to those who are subscribed after the changes that were made before it.
Hooks that do deeds in order behave as they do on a switchboard. -/
theorem publish_goes_to_subscribers (behave : List Occurrence → String → Event → Conduct)
    (depth : Nat) :
    (∀ event m, event.level.severity?.isSome = true → ∃ more calls,
      (publish behave (depth + 1) event m).1.entries = m.entries ++ .made event :: more ∧
      (publish behave (depth + 1) event m).1.board.bus = busAfter m.board.bus more ∧
      ofPublication m.entries.length more =
        calls ++ [.ended m.entries.length (publish behave (depth + 1) event m).2] ∧
      Calls m.entries.length event m.board.bus.subscribers
        (publish behave (depth + 1) event m).2 calls) ∧
    (∀ bus conduct, (ofConduct behave depth bus conduct).board.bus =
        busAfter bus (ofConduct behave depth bus conduct).entries ∧
      ∀ n event, (ofConduct behave depth bus conduct).entries[n]? = some (.made event) →
        event.level.severity?.isSome = true → ∃ fault calls,
          ofPublication n (ofConduct behave depth bus conduct).entries =
            calls ++ [.ended n fault] ∧
          Calls n event
            (busAfter bus ((ofConduct behave depth bus conduct).entries.take n)).subscribers
            fault calls) ∧
    ∀ react bus deeds,
      (ofConduct (fun _ hook event => .ofDeeds (react hook event)) Switchboard.maxDepth bus
        (.ofDeeds deeds)).board =
          (Switchboard.inOrder (Switchboard.act react) deeds { bus }).1 := by
  refine ⟨?_, ?_, ?_⟩
  · intro event m hlevel
    obtain ⟨more, hmore, -, htold⟩ := publish_continues (goesOn_publish behave depth) event m
    obtain ⟨calls, hcalls, hown⟩ := htold hlevel
    refine ⟨more, calls, ?_, hmore.bus, hown, hcalls⟩
    rw [hmore.entries]
    simp [enter]
  · intro bus conduct
    have hall := ofConduct_continues behave depth bus conduct
    refine ⟨hall.bus, ?_⟩
    intro n event hmade hlevel
    obtain ⟨fault, calls, hcalls, hown⟩ := hall.passage.told n event hmade hlevel
    rw [List.length_nil, Nat.zero_add] at hcalls hown
    exact ⟨fault, calls, hown, hcalls⟩
  · exact ofConduct_ofDeeds_board

/-- The hook `gate` lets one hook go and lets another one in. -/
def turnover (hook : String) : List Deed :=
  if hook = "gate" then [.unsubscribe 1, .subscribe "guest"] else []

/-- A board with two subscriptions. -/
def doorway : Minutes where
  board := { bus := { subscribers := ["gate", "host"], issued := ["gate", "host"] } }

/-- The hook whose subscription ends during the delivery is still told, and the new one is not. -/
theorem publish_goes_to_subscribers_of_turnover :
    ∃ more calls,
      ofPublication 0 more = calls ++ [.ended 0 none] ∧
      Calls 0 (Switchboard.line "open") ["gate", "host"] none calls ∧
      busAfter doorway.board.bus more =
        { subscribers := ["gate", "guest"], issued := ["gate", "host", "guest"] } := by
  obtain ⟨hpublish, -⟩ :=
    publish_goes_to_subscribers (fun _ hook _ => .ofDeeds (turnover hook)) 0
  obtain ⟨more, calls, -, hbus, hown, hcalls⟩ := hpublish (Switchboard.line "open") doorway rfl
  exact ⟨more, calls, hown, hcalls, hbus.symm⟩

end Minutes

end Conductor
