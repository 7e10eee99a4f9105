import Conductor.Proofs.Event.Delivery
import Conductor.Proofs.World
import Mathlib.Data.List.Basic

/-!
What the handles of subscriptions do. A handle knows its hook and nothing else: it takes back the
oldest subscription of that hook. So a call of it ends the subscription that it was given out for,
and no other, exactly if no hook stands between that one and an older one of the same hook, and, for
a handle that is called again, if no subscription of its hook is left.
-/

namespace Conductor

/-! ### Histories -/

namespace Deed

/-- The hook that is subscribed. -/
def hook? : Deed → Option String
  | subscribe hook => some hook
  | _ => none

/-- The handle that is called. -/
def handle? : Deed → Option Nat
  | unsubscribe handle => some handle
  | _ => none

/-- What a deed does to the bus by itself; to publish and to fail leave it alone. -/
def change (bus : Bus String) : Deed → Bus String
  | subscribe hook => (bus.subscribe hook).1
  | unsubscribe handle => bus.unsubscribe handle
  | publish _ => bus
  | raise _ => bus

/-- The hooks that were subscribed, in order; the handle of each is its position. -/
def issued (deeds : List Deed) : List String := deeds.filterMap hook?

def called (deeds : List Deed) : List Nat := deeds.filterMap handle?

/-- The subscriptions whose handle has not been called, in order, each with its handle. -/
def standing (deeds : List Deed) : List (String × Nat) :=
  (issued deeds).zipIdx.filter fun s => decide (s.2 ∉ called deeds)

/-- Hooks are subscribed, and handles are called that were given out before. -/
inductive IsHistory : List Deed → Prop where
  | nil : IsHistory []
  | subscribe {deeds : List Deed} (hdeeds : IsHistory deeds) (hook : String) :
      IsHistory (deeds ++ [.subscribe hook])
  | unsubscribe {deeds : List Deed} (hdeeds : IsHistory deeds) {handle : Nat}
      (hissued : handle < (issued deeds).length) : IsHistory (deeds ++ [.unsubscribe handle])

/-- After these deeds a call of the handle ends its own subscription and no other: if it was called
before, no subscription of its hook is left, and between an older one of its hook and its own there
is none of another hook. -/
def EndsOwn (deeds : List Deed) (handle : Nat) : Prop :=
  ∀ hook, (issued deeds)[handle]? = some hook →
    (handle ∈ called deeds → ∀ s ∈ standing deeds, s.1 ≠ hook) ∧
      ∀ s ∈ standing deeds, ∀ t ∈ standing deeds, s.2 < t.2 → t.2 < handle → s.1 = hook →
        t.1 = hook

variable {deeds : List Deed} {hook : String} {handle : Nat}

theorem mem_standing {s : String × Nat} :
    s ∈ standing deeds ↔ (issued deeds)[s.2]? = some s.1 ∧ s.2 ∉ called deeds := by
  rw [standing, List.mem_filter, List.mem_zipIdx_iff_getElem?, decide_eq_true_iff]

/-- The subscriptions stand in the order of their handles. -/
theorem standing_ascending (deeds : List Deed) :
    (standing deeds).Pairwise fun s t => s.2 < t.2 := by
  have hall : (issued deeds).zipIdx.Pairwise fun s t => s.2 < t.2 := by
    rw [← List.pairwise_map (f := Prod.snd), List.zipIdx_map_snd]
    exact List.pairwise_lt_range'
  exact hall.sublist List.filter_sublist

theorem IsHistory.called_lt (h : IsHistory deeds) :
    ∀ handle ∈ called deeds, handle < (issued deeds).length := by
  induction h with
  | nil => simp [called]
  | subscribe hdeeds hook ih =>
      intro handle hmem
      have hlt := ih handle (by simpa [called, handle?] using hmem)
      simp only [issued, List.filterMap_append, List.length_append]
      exact Nat.lt_add_right _ hlt
  | @unsubscribe deeds hdeeds last hissued ih =>
      intro handle hmem
      have hsame : issued (deeds ++ [.unsubscribe last]) = issued deeds := by simp [issued, hook?]
      rw [hsame]
      obtain hbefore | rfl : handle ∈ called deeds ∨ handle = last := by
        simpa [called, handle?] using hmem
      · exact ih handle hbefore
      · exact hissued

theorem standing_subscribe (h : IsHistory deeds) (hook : String) :
    standing (deeds ++ [.subscribe hook]) = standing deeds ++ [(hook, (issued deeds).length)] := by
  have hnew : (issued deeds).length ∉ called deeds :=
    fun hmem => Nat.lt_irrefl _ (h.called_lt _ hmem)
  have hcalled : called (deeds ++ [.subscribe hook]) = called deeds := by simp [called, handle?]
  have hissued : issued (deeds ++ [.subscribe hook]) = issued deeds ++ [hook] := by
    simp [issued, hook?]
  rw [standing, hcalled, hissued, List.zipIdx_append, List.filter_append, ← standing]
  simp [hnew]

theorem standing_unsubscribe (deeds : List Deed) (handle : Nat) :
    standing (deeds ++ [.unsubscribe handle]) =
      (standing deeds).filter fun s => decide (s.2 ≠ handle) := by
  have hissued : issued (deeds ++ [.unsubscribe handle]) = issued deeds := by simp [issued, hook?]
  rw [standing, hissued, standing, List.filter_filter]
  apply List.filter_congr
  intro s _
  simp [called, handle?, and_comm]

theorem standing_unsubscribe_of_called (hcalled : handle ∈ called deeds) :
    standing (deeds ++ [.unsubscribe handle]) = standing deeds := by
  rw [standing_unsubscribe]
  refine List.filter_eq_self.mpr fun s hs => decide_eq_true ?_
  rintro rfl
  exact (mem_standing.mp hs).2 hcalled

/-! ### One call of a handle -/

theorem append_cons_eq_cons_append_iff {α : Type} (a : α) (before after : List α) :
    before ++ a :: after = a :: (before ++ after) ↔ ∀ x ∈ before, x = a := by
  induction before with
  | nil => simp
  | cons x before ih =>
      rw [List.cons_append, List.cons.injEq, List.forall_mem_cons]
      constructor
      · rintro ⟨rfl, hrest⟩
        exact ⟨rfl, ih.mp hrest⟩
      · rintro ⟨rfl, hrest⟩
        exact ⟨rfl, ih.mpr hrest⟩

/-- To take away the first of several equal ones instead of a later one makes no difference exactly
if there is nothing else between them. -/
theorem erase_append_cons_iff {α : Type} [DecidableEq α] (a : α) (before after : List α) :
    (before ++ a :: after).erase a = before ++ after ↔
      before.Pairwise fun x y => x = a → y = a := by
  induction before with
  | nil => simp
  | cons x before ih =>
      rw [List.cons_append, List.cons_append, List.pairwise_cons]
      by_cases hx : x = a
      · subst hx
        rw [List.erase_cons_head, append_cons_eq_cons_append_iff]
        constructor
        · intro hsame
          refine ⟨fun y hy _ => hsame y hy, ?_⟩
          exact List.pairwise_of_forall_mem_list fun _ _ y hy _ => hsame y hy
        · intro hpairs y hy
          exact hpairs.1 y hy rfl
      · rw [List.erase_cons_tail (by simpa using hx), List.cons.injEq, ih]
        simp [hx]

section Split

variable {before after : List (String × Nat)}

/-- The other subscriptions stand on the two sides of one by their handles. -/
theorem standing_apart (hsplit : standing deeds = before ++ (hook, handle) :: after) :
    (∀ s ∈ before, s.2 < handle) ∧ ∀ s ∈ after, handle < s.2 := by
  have hsorted := standing_ascending deeds
  rw [hsplit] at hsorted
  obtain ⟨-, hlater, hacross⟩ := List.pairwise_append.mp hsorted
  exact ⟨fun s hs => hacross s hs _ List.mem_cons_self, (List.pairwise_cons.mp hlater).1⟩

theorem standing_unsubscribe_of_split
    (hsplit : standing deeds = before ++ (hook, handle) :: after) :
    standing (deeds ++ [.unsubscribe handle]) = before ++ after := by
  obtain ⟨hbefore, hafter⟩ := standing_apart hsplit
  have hfront : before.filter (fun s => decide (s.2 ≠ handle)) = before :=
    List.filter_eq_self.mpr fun s hs => decide_eq_true (Nat.ne_of_lt (hbefore s hs))
  have hback : after.filter (fun s => decide (s.2 ≠ handle)) = after :=
    List.filter_eq_self.mpr fun s hs => decide_eq_true (Nat.ne_of_gt (hafter s hs))
  rw [standing_unsubscribe, hsplit, List.filter_append, List.filter_cons_of_neg (by simp), hfront,
    hback]

/-- Between two subscriptions stand those whose handles are between theirs. -/
theorem pairwise_before_iff (hsplit : standing deeds = before ++ (hook, handle) :: after) :
    (before.Pairwise fun s t => s.1 = hook → t.1 = hook) ↔
      ∀ s ∈ standing deeds, ∀ t ∈ standing deeds, s.2 < t.2 → t.2 < handle → s.1 = hook →
        t.1 = hook := by
  obtain ⟨hlt, hgt⟩ := standing_apart hsplit
  have hsorted := standing_ascending deeds
  rw [hsplit] at hsorted ⊢
  have hbefore := (List.pairwise_append.mp hsorted).1
  have hmem : ∀ s ∈ before ++ (hook, handle) :: after, s.2 < handle → s ∈ before := by
    intro s hs hsmall
    rcases List.mem_append.mp hs with hmem | hmem
    · exact hmem
    · rcases List.mem_cons.mp hmem with rfl | hmem
      · exact absurd hsmall (Nat.lt_irrefl _)
      · exact absurd (hgt s hmem) (Nat.lt_asymm hsmall)
  constructor
  · intro hpairs s hs t ht hst hsmall
    refine List.Pairwise.forall_of_forall_of_flip
      (R := fun s t => s.2 < t.2 → s.1 = hook → t.1 = hook) ?_ ?_ ?_
      (hmem s hs (Nat.lt_trans hst hsmall)) (hmem t ht hsmall) hst
    · exact fun s _ hself => absurd hself (Nat.lt_irrefl _)
    · exact hpairs.imp fun {s t} hpair (_ : s.2 < t.2) => hpair
    · exact hbefore.imp fun hup hdown => absurd hup (Nat.lt_asymm hdown)
  · intro hbetween
    refine hbefore.imp_of_mem ?_
    intro s t hs ht hst
    exact hbetween s (List.mem_append_left _ hs) t (List.mem_append_left _ ht) hst (hlt t ht)

end Split

/-- A call of a handle takes away the oldest subscription of its hook where it should take away its
own. -/
theorem erase_standing_iff (hhook : (issued deeds)[handle]? = some hook) :
    ((standing deeds).map Prod.fst).erase hook =
        (standing (deeds ++ [.unsubscribe handle])).map Prod.fst ↔ EndsOwn deeds handle := by
  have hends : EndsOwn deeds handle ↔
      (handle ∈ called deeds → ∀ s ∈ standing deeds, s.1 ≠ hook) ∧
        ∀ s ∈ standing deeds, ∀ t ∈ standing deeds, s.2 < t.2 → t.2 < handle → s.1 = hook →
          t.1 = hook := by
    simp [EndsOwn, hhook]
  rw [hends]
  by_cases hcalled : handle ∈ called deeds
  · have hnone : hook ∉ (standing deeds).map Prod.fst ↔ ∀ s ∈ standing deeds, s.1 ≠ hook := by
      simp only [List.mem_map, not_exists, not_and, ne_eq]
    rw [standing_unsubscribe_of_called hcalled, List.erase_eq_self_iff, hnone]
    constructor
    · intro habsent
      exact ⟨fun _ => habsent, fun s hs t _ _ _ hsame => absurd hsame (habsent s hs)⟩
    · intro hown
      exact hown.1 hcalled
  · obtain ⟨before, after, hsplit⟩ :=
      List.append_of_mem (mem_standing (s := (hook, handle)) |>.mpr ⟨hhook, hcalled⟩)
    rw [standing_unsubscribe_of_split hsplit, ← pairwise_before_iff hsplit, hsplit,
      List.map_append, List.map_append, List.map_cons, erase_append_cons_iff, List.pairwise_map]
    simp [hcalled]

/-! ### Whole histories -/

theorem foldl_change_issued (deeds : List Deed) (bus : Bus String) :
    (deeds.foldl change bus).issued = bus.issued ++ issued deeds := by
  induction deeds generalizing bus with
  | nil => simp [issued]
  | cons deed deeds ih =>
      rw [List.foldl_cons, ih]
      cases deed with
      | subscribe hook => simp [change, Bus.subscribe, issued, hook?]
      | unsubscribe handle =>
          simp only [change, Bus.unsubscribe]
          split <;> rfl
      | publish event => rfl
      | raise fault => rfl

/-- The subscribers are the hooks of the subscriptions whose handle has not been called. -/
def IsFaithful (deeds : List Deed) : Prop :=
  (deeds.foldl change {}).subscribers = (standing deeds).map Prod.fst

theorem isFaithful_subscribe (h : IsHistory deeds) (hfaithful : IsFaithful deeds) (hook : String) :
    IsFaithful (deeds ++ [.subscribe hook]) := by
  rw [IsFaithful, List.foldl_append, standing_subscribe h, List.map_append, ← hfaithful]
  rfl

theorem isFaithful_unsubscribe_iff (hfaithful : IsFaithful deeds)
    (hissued : handle < (issued deeds).length) :
    IsFaithful (deeds ++ [.unsubscribe handle]) ↔ EndsOwn deeds handle := by
  have hhook := List.getElem?_eq_getElem hissued
  rw [← erase_standing_iff hhook, IsFaithful, List.foldl_append, List.foldl_cons, List.foldl_nil,
    ← hfaithful]
  simp only [change, Bus.unsubscribe, foldl_change_issued, List.nil_append, hhook]

theorem forall_prefix_concat {P : List Deed → Prop} {deed : Deed} :
    (∀ before, before <+: deeds ++ [deed] → P before) ↔
      P (deeds ++ [deed]) ∧ ∀ before, before <+: deeds → P before := by
  simp only [List.prefix_concat_iff, or_imp, forall_and, forall_eq]

theorem forall_call_concat {Q : List Deed → Nat → Prop} {deed : Deed} :
    (∀ before handle, before ++ [.unsubscribe handle] <+: deeds ++ [deed] → Q before handle) ↔
      (∀ handle, deed = .unsubscribe handle → Q deeds handle) ∧
        ∀ before handle, before ++ [.unsubscribe handle] <+: deeds → Q before handle := by
  simp only [List.prefix_concat_iff, or_imp, forall_and]
  refine and_congr_left fun _ => ⟨?_, ?_⟩
  · rintro hcalls handle rfl
    exact hcalls deeds handle rfl
  · intro hlast before handle hlist
    obtain ⟨rfl, hdeed⟩ := List.append_inj' hlist rfl
    exact hlast handle (List.singleton_inj.mp hdeed).symm

/-- The subscribers are as they should be at every moment of a history exactly if every call of a
handle ends its own subscription. -/
theorem IsHistory.isFaithful_iff (h : IsHistory deeds) :
    (∀ before, before <+: deeds → IsFaithful before) ↔
      ∀ before handle, before ++ [.unsubscribe handle] <+: deeds → EndsOwn before handle := by
  induction h with
  | nil =>
      refine iff_of_true ?_ ?_
      · intro before hbefore
        rw [List.prefix_nil.mp hbefore]
        rfl
      · intro before handle hbefore
        exact absurd (List.prefix_nil.mp hbefore) (by simp)
  | @subscribe deeds hdeeds hook ih =>
      rw [forall_prefix_concat, forall_call_concat, ← ih]
      constructor
      · rintro ⟨-, hfaithful⟩
        exact ⟨by simp, hfaithful⟩
      · rintro ⟨-, hfaithful⟩
        have hlast := hfaithful deeds (List.prefix_refl deeds)
        exact ⟨isFaithful_subscribe hdeeds hlast hook, hfaithful⟩
  | @unsubscribe deeds hdeeds handle hissued ih =>
      rw [forall_prefix_concat, forall_call_concat, ← ih]
      refine and_congr_left fun hfaithful => ?_
      rw [isFaithful_unsubscribe_iff (hfaithful deeds (List.prefix_refl deeds)) hissued]
      simp

/-- Where no hook is subscribed twice, every handle ends its own subscription and no other. -/
theorem endsOwn_of_nodup (hnodup : (issued deeds).Nodup) (handle : Nat) : EndsOwn deeds handle := by
  intro hook hhook
  have hown : ∀ s ∈ standing deeds, s.1 = hook → s.2 = handle := by
    rintro s hs rfl
    have hsame := hhook.trans (mem_standing.mp hs).1.symm
    exact ((List.getElem?_inj (List.getElem?_eq_some_iff.mp hhook).1 hnodup).mp hsame).symm
  constructor
  · intro hcalled s hs hsame
    rw [← hown s hs hsame] at hcalled
    exact (mem_standing.mp hs).2 hcalled
  · intro s hs t _ hst hlt hsame
    have hhandle := hown s hs hsame
    omega

theorem IsHistory.isChange (h : IsHistory deeds) :
    ∀ deed ∈ deeds, deed.hook?.isSome ∨ deed.handle?.isSome := by
  induction h with
  | nil => simp
  | subscribe hdeeds hook ih =>
      simpa [or_imp, forall_and, hook?] using ih
  | unsubscribe hdeeds hissued ih =>
      simpa [or_imp, forall_and, handle?] using ih

end Deed

namespace Switchboard

/-- The hooks that hear of an event when it is published after the deeds, all of them hooks that do
nothing about it. -/
def hearers (deeds : List Deed) (event : Event) : List String :=
  (inOrder (act fun _ _ => []) (deeds ++ [.publish event]) {}).1.deliveries.reverse.map Prod.fst

theorem inOrder_changes {react : String → Event → List Deed} {deeds : List Deed}
    (hchanges : ∀ deed ∈ deeds, deed.hook?.isSome ∨ deed.handle?.isSome) (rest : List Deed)
    (board : Switchboard) :
    inOrder (act react) (deeds ++ rest) board =
      inOrder (act react) rest { board with bus := deeds.foldl Deed.change board.bus } := by
  induction deeds generalizing board with
  | nil => rfl
  | cons deed deeds ih =>
      obtain ⟨hdeed, hrest⟩ := List.forall_mem_cons.mp hchanges
      have hact : act react deed board = ({ board with bus := deed.change board.bus }, none) := by
        cases deed with
        | subscribe hook => rfl
        | unsubscribe handle => rfl
        | publish event => simp [Deed.hook?, Deed.handle?] at hdeed
        | raise fault => simp [Deed.hook?, Deed.handle?] at hdeed
      rw [List.cons_append, inOrder, hact]
      exact ih hrest _

theorem inOrder_singleton (act : Deed → Switchboard → Switchboard × Option Fault) (deed : Deed)
    (board : Switchboard) : inOrder act [deed] board = act deed board := by
  rw [inOrder]
  cases act deed board with
  | mk after fault => cases fault <;> rfl

theorem deliver_receive (event : Event) (hooks : List String) (board : Switchboard) :
    (Bus.deliver (fun hook board => (receive hook event board, none)) hooks board).1.deliveries =
      (hooks.map fun hook => (hook, event)).reverse ++ board.deliveries := by
  induction hooks generalizing board with
  | nil => rfl
  | cons hook hooks ih =>
      refine (ih (receive hook event board)).trans ?_
      simp [receive]

theorem hearers_eq {deeds : List Deed} {event : Event} {severity : Severity}
    (hchanges : ∀ deed ∈ deeds, deed.hook?.isSome ∨ deed.handle?.isSome)
    (hlevel : event.level.severity? = some severity) :
    hearers deeds event = (deeds.foldl Deed.change {}).subscribers := by
  have hpublish (board : Switchboard) :
      (act (fun _ _ => []) (.publish event) board).1.deliveries =
        (board.bus.subscribers.map fun hook => (hook, event)).reverse ++ board.deliveries := by
    change (Bus.publish note (·.bus.subscribers)
      (fun hook event board => (receive hook event board, none)) event board).1.deliveries = _
    obtain ⟨fault, hfault, -⟩ | ⟨noted, hnoted, hrow⟩ := Bus.publish_cases note
      (·.bus.subscribers) (fun hook event board => (receive hook event board, none)) event board
    · obtain ⟨notice, hnotice⟩ := Event.notice_of_severity event hlevel
      rw [hfault] at hnotice
      cases hnotice
    · rw [hrow, deliver_receive]
      obtain rfl | ⟨severity, line, rfl⟩ := hnoted <;> rfl
  rw [hearers, inOrder_changes hchanges, inOrder_singleton, hpublish]
  simp [Function.comp_def]

/-- Who hears of an event are, at every moment of a history, the hooks of the subscriptions whose
handle has not been called, exactly if every call of a handle has ended its own subscription. This
is so if no hook is subscribed twice. -/
theorem hearers_eq_standing_iff {deeds : List Deed} {event : Event} {severity : Severity}
    (hdeeds : Deed.IsHistory deeds) (hlevel : event.level.severity? = some severity) :
    ((∀ before, before <+: deeds →
        hearers before event = (Deed.standing before).map Prod.fst) ↔
      ∀ before handle, before ++ [.unsubscribe handle] <+: deeds → Deed.EndsOwn before handle) ∧
    ((Deed.issued deeds).Nodup →
      ∀ before, before <+: deeds →
        hearers before event = (Deed.standing before).map Prod.fst) := by
  have hhears : ∀ before, before <+: deeds →
      (hearers before event = (Deed.standing before).map Prod.fst ↔ Deed.IsFaithful before) := by
    intro before hbefore
    rw [hearers_eq (fun deed hdeed => hdeeds.isChange deed (hbefore.subset hdeed)) hlevel,
      Deed.IsFaithful]
  have hiff : (∀ before, before <+: deeds →
      hearers before event = (Deed.standing before).map Prod.fst) ↔
        ∀ before handle, before ++ [.unsubscribe handle] <+: deeds → Deed.EndsOwn before handle :=
    (forall₂_congr hhears).trans hdeeds.isFaithful_iff
  refine ⟨hiff, ?_⟩
  intro hnodup
  refine hiff.mpr ?_
  intro before handle hbefore
  have hpart : (Deed.issued before).Sublist (Deed.issued deeds) :=
    ((List.prefix_append _ _).trans hbefore).sublist.filterMap _
  exact Deed.endsOwn_of_nodup (hnodup.sublist hpart) handle

/-- Two hooks are subscribed, and the handle of the first is called twice. -/
def calledTwice (first second : String) : List Deed :=
  [.subscribe first, .subscribe second, .unsubscribe 0, .unsubscribe 0]

theorem isHistory_calledTwice (first second : String) :
    Deed.IsHistory (calledTwice first second) := by
  have hsubscribed : Deed.IsHistory [.subscribe first, .subscribe second] :=
    (Deed.IsHistory.nil.subscribe first).subscribe second
  have hcalled : Deed.IsHistory [.subscribe first, .subscribe second, .unsubscribe 0] :=
    hsubscribed.unsubscribe Nat.two_pos
  exact hcalled.unsubscribe Nat.two_pos

/-- The second call of a handle ends the other subscription of its hook. Where the other one is of
another hook, it has no effect. -/
theorem hearers_eq_standing_iff_of_calledTwice :
    (¬∀ before, before <+: calledTwice "echo" "echo" →
      hearers before (line "a") = (Deed.standing before).map Prod.fst) ∧
    hearers (calledTwice "echo" "echo") (line "a") = [] ∧
    hearers (calledTwice "echo" "other") (line "a") = ["other"] := by
  have hlevel : (line "a").level.severity? = some .info := rfl
  refine ⟨?_, rfl, ?_⟩
  · intro hheard
    obtain ⟨hiff, -⟩ := hearers_eq_standing_iff (isHistory_calledTwice "echo" "echo") hlevel
    have hends := hiff.mp hheard [.subscribe "echo", .subscribe "echo", .unsubscribe 0] 0
      (List.prefix_refl _) "echo" rfl
    exact hends.1 (by decide) ("echo", 1) (by decide) rfl
  · obtain ⟨-, hapart⟩ := hearers_eq_standing_iff (isHistory_calledTwice "echo" "other") hlevel
    exact hapart (by decide) _ (List.prefix_refl _)

end Switchboard

end Conductor
