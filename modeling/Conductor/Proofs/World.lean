import Conductor.Phase.Activity
import Mathlib.Logic.Relation

/-!
What activities can do to the world, step by step. There are five kinds of steps: time passes, a
line is entered that is neither a launch nor a delivery nor output, an event is published, an
artifact is stored, and a program is launched. What every step keeps, every activity keeps.
-/

namespace Conductor

/-! ### Views of the journal -/

namespace Entry

def spawn? : Entry → Option Spawn
  | spawn s _ => some s
  | _ => none

def delivery? : Entry → Option (String × Event)
  | delivery subscriber event _ => some (subscriber, event)
  | _ => none

def chunk? (channel : Channel) : Entry → Option String
  | chunk c text => if c = channel then some text else none
  | _ => none

/-- Whether an entry is neither a launch nor a delivery nor a chunk of output. -/
def isAside : Entry → Bool
  | spawn .. | chunk .. | delivery .. => false
  | _ => true

end Entry

namespace Journal

/-- What `view` shows of the entries, in the order in which they were made. -/
def seen {α : Type} (view : Entry → Option α) (journal : Journal) : List α :=
  journal.reverse.filterMap view

/-- The launches so far. -/
def launched (journal : Journal) : List Spawn := journal.seen Entry.spawn?

/-- The deliveries of events so far, each with the name of the subscriber. -/
def heard (journal : Journal) : List (String × Event) := journal.seen Entry.delivery?

/-- The chunks handed to the recording sink of a pipe so far. -/
def chunks (channel : Channel) (journal : Journal) : List String :=
  journal.seen (Entry.chunk? channel)

theorem seen_cons {α : Type} (view : Entry → Option α) (entry : Entry) (journal : Journal) :
    seen view (entry :: journal) = seen view journal ++ (view entry).toList := by
  rw [seen, List.reverse_cons, List.filterMap_append]
  cases h : view entry <;> simp [seen, h]

end Journal

namespace Entry

theorem spawn?_of_isAside {entry : Entry} (h : entry.isAside = true) : entry.spawn? = none := by
  cases entry <;> simp_all [isAside, spawn?]

theorem delivery?_of_isAside {entry : Entry} (h : entry.isAside = true) :
    entry.delivery? = none := by
  cases entry <;> simp_all [isAside, delivery?]

theorem chunk?_of_isAside {entry : Entry} (channel : Channel) (h : entry.isAside = true) :
    entry.chunk? channel = none := by
  cases entry <;> simp_all [isAside, chunk?]

end Entry

/-! ### Publishing -/

theorem Event.notice_of_severity (event : Event) {severity : Severity}
    (hlevel : event.level.severity? = some severity) : ∃ notice, event.notice = .ok notice := by
  unfold notice
  split
  · exact ⟨none, rfl⟩
  · rw [hlevel]
    exact ⟨_, rfl⟩

namespace World

/-- No subscriber fails, whatever it is told. -/
def Quiet (w : World) : Prop :=
  ∀ s ∈ w.bus.subscribers, ∀ journal event, s.react journal event = none

/-- A subscriber has just failed with this fault, on an event of this kind. -/
def FailedOn (kind : EventKind) (fault : Fault) (w : World) : Prop :=
  ∃ s ∈ w.bus.subscribers, ∃ event run rest,
    w.journal = .delivery s.name event run :: rest ∧ event.kind = kind ∧
      s.react w.journal event = some fault

/-- What is heard of an event: every subscriber is told, in the order of subscription. -/
def told (w : World) (event : Event) : List (String × Event) :=
  w.bus.subscribers.map fun s => (s.name, event)

/-- Only the journal differs. -/
def OnlyJournal (u v : World) : Prop := v = { u with journal := v.journal }

theorem OnlyJournal.refl (w : World) : OnlyJournal w w := rfl

theorem OnlyJournal.trans {u v w : World} (huv : OnlyJournal u v) (hvw : OnlyJournal v w) :
    OnlyJournal u w := by
  unfold OnlyJournal at *
  rw [hvw, huv]

theorem onlyJournal_enter (entry : Entry) (w : World) : OnlyJournal w (w.enter entry) := rfl

section Delivery

variable {event : Event} {subscribers : List Subscriber} {w : World} {fault : Fault}

/-- Tells the subscribers one after the other, until one fails. -/
def tellAll (event : Event) (subscribers : List Subscriber) (w : World) : World × Option Fault :=
  Bus.deliver (fun s => tell s event) subscribers w

theorem tellAll_cons_of_none {s : Subscriber} (hreact : (tell s event w).2 = none) :
    tellAll event (s :: subscribers) w = tellAll event subscribers (tell s event w).1 := by
  unfold tellAll
  rw [Bus.deliver]
  cases htell : tell s event w with
  | mk v reaction =>
      rw [htell] at hreact
      cases hreact
      rfl

theorem tellAll_cons_of_some {s : Subscriber} (hreact : (tell s event w).2 = some fault) :
    tellAll event (s :: subscribers) w = ((tell s event w).1, some fault) := by
  unfold tellAll
  rw [Bus.deliver]
  cases htell : tell s event w with
  | mk v reaction =>
      rw [htell] at hreact
      cases hreact
      rfl

theorem tellAll_onlyJournal (event : Event) (subscribers : List Subscriber) (w : World) :
    OnlyJournal w (tellAll event subscribers w).1 := by
  induction subscribers generalizing w with
  | nil => exact .refl w
  | cons s rest ih =>
      have htell : OnlyJournal w (tell s event w).1 := onlyJournal_enter _ w
      cases hreact : (tell s event w).2 with
      | none =>
          rw [tellAll_cons_of_none hreact]
          exact htell.trans (ih _)
      | some fault =>
          rw [tellAll_cons_of_some hreact]
          exact htell

theorem tellAll_seen {α : Type} {view : Entry → Option α}
    (hview : ∀ name event run, view (.delivery name event run) = none)
    (event : Event) (subscribers : List Subscriber) (w : World) :
    (tellAll event subscribers w).1.journal.seen view = w.journal.seen view := by
  induction subscribers generalizing w with
  | nil => rfl
  | cons s rest ih =>
      have htell : (tell s event w).1.journal.seen view = w.journal.seen view := by
        simp [tell, enter, Journal.seen_cons, hview]
      cases hreact : (tell s event w).2 with
      | none => rw [tellAll_cons_of_none hreact, ih, htell]
      | some fault => rw [tellAll_cons_of_some hreact, htell]

theorem tellAll_of_quiet (hquiet : ∀ s ∈ subscribers, ∀ journal event, s.react journal event = none)
    (event : Event) (w : World) :
    (tellAll event subscribers w).2 = none ∧
      (tellAll event subscribers w).1.journal.heard =
        w.journal.heard ++ subscribers.map fun s => (s.name, event) := by
  induction subscribers generalizing w with
  | nil => exact ⟨rfl, by simp [tellAll, Bus.deliver]⟩
  | cons s rest ih =>
      have hreact : (tell s event w).2 = none := hquiet s (by simp) _ _
      have hrest := ih (fun s' hs' => hquiet s' (by simp [hs'])) (tell s event w).1
      have htell : (tell s event w).1.journal.heard = w.journal.heard ++ [(s.name, event)] := by
        simp [tell, enter, Journal.heard, Journal.seen_cons, Entry.delivery?]
      rw [tellAll_cons_of_none hreact]
      refine ⟨hrest.1, ?_⟩
      rw [hrest.2, htell]
      simp

/-- The last entry is the delivery to the subscriber that failed, or to the last one. -/
theorem tellAll_latest (hsome : subscribers ≠ []) (event : Event) (w : World) :
    ∃ s ∈ subscribers, ∃ run rest,
      (tellAll event subscribers w).1.journal = .delivery s.name event run :: rest ∧
        s.react (tellAll event subscribers w).1.journal event =
          (tellAll event subscribers w).2 := by
  induction subscribers generalizing w with
  | nil => exact absurd rfl hsome
  | cons s rest ih =>
      cases hreact : (tell s event w).2 with
      | some fault =>
          rw [tellAll_cons_of_some hreact]
          exact ⟨s, by simp, w.current, w.journal, rfl, hreact⟩
      | none =>
          rw [tellAll_cons_of_none hreact]
          cases rest with
          | nil => exact ⟨s, by simp, w.current, w.journal, rfl, hreact⟩
          | cons s' rest =>
              obtain ⟨s'', hmem, hlatest⟩ := ih (by simp) (tell s event w).1
              exact ⟨s'', by simp [hmem], hlatest⟩

end Delivery

/-- Writes the line that publishing puts into the log, if there is one. -/
def noted (w : World) : Option (Severity × String) → World
  | some (severity, line) => w.log severity "flowpilot.events" line
  | none => w

theorem publish_of_notice {event : Event} {notice : Option (Severity × String)}
    (hnotice : event.notice = .ok notice) (w : World) :
    w.publish event = tellAll event w.bus.subscribers (w.noted notice) := by
  unfold publish Bus.publish
  rw [hnotice]
  cases notice <;> rfl

theorem publish_of_fault {event : Event} {fault : Fault} (hnotice : event.notice = .error fault)
    (w : World) : w.publish event = (w, some fault) := by
  unfold publish Bus.publish
  rw [hnotice]

theorem publish_onlyJournal (event : Event) (w : World) : OnlyJournal w (w.publish event).1 := by
  cases hnotice : event.notice with
  | error fault =>
      rw [publish_of_fault hnotice]
      exact .refl w
  | ok notice =>
      rw [publish_of_notice hnotice]
      have hnoted : OnlyJournal w (w.noted notice) := by cases notice <;> rfl
      exact hnoted.trans (tellAll_onlyJournal event _ _)

theorem publish_seen {α : Type} {view : Entry → Option α}
    (hdelivery : ∀ name event run, view (.delivery name event run) = none)
    (hlog : ∀ severity logger message, view (.log severity logger message) = none)
    (event : Event) (w : World) :
    (w.publish event).1.journal.seen view = w.journal.seen view := by
  cases hnotice : event.notice with
  | error fault => rw [publish_of_fault hnotice]
  | ok notice =>
      have hnoted : (w.noted notice).journal.seen view = w.journal.seen view := by
        cases notice <;> simp [noted, log, enter, Journal.seen_cons, hlog]
      rw [publish_of_notice hnotice, tellAll_seen hdelivery, hnoted]

/-- With quiet subscribers, an event that can be noted is heard by all of them. -/
theorem publish_of_quiet {event : Event} {notice : Option (Severity × String)}
    (hnotice : event.notice = .ok notice) {w : World} (hquiet : w.Quiet) :
    (w.publish event).2 = none ∧
      (w.publish event).1.journal.heard = w.journal.heard ++ w.told event := by
  have hnoted : (w.noted notice).journal.heard = w.journal.heard := by
    cases notice <;>
      simp [noted, log, enter, Journal.heard, Journal.seen_cons, Entry.delivery?]
  have htold := tellAll_of_quiet hquiet event (w.noted notice)
  rw [publish_of_notice hnotice]
  exact ⟨htold.1, by rw [htold.2, hnoted, told]⟩

theorem failedOn_of_publish {event : Event} {notice : Option (Severity × String)} {fault : Fault}
    (hnotice : event.notice = .ok notice) {w : World} (hfault : (w.publish event).2 = some fault) :
    FailedOn event.kind fault (w.publish event).1 := by
  have hbus : (w.publish event).1.bus = w.bus := by rw [publish_onlyJournal event w]
  rw [publish_of_notice hnotice] at hfault hbus ⊢
  have hsome : w.bus.subscribers ≠ [] := by
    intro hnil
    rw [hnil] at hfault
    simp [tellAll, Bus.deliver] at hfault
  obtain ⟨s, hmem, run, rest, hjournal, hreact⟩ :=
    tellAll_latest hsome event (w.noted notice)
  refine ⟨s, ?_, event, run, rest, hjournal, rfl, hreact.trans hfault⟩
  rw [hbus]
  exact hmem

theorem not_failedOn_of_publish {event : Event} {notice : Option (Severity × String)}
    (hnotice : event.notice = .ok notice) {w : World} {kind : EventKind} (hkind : event.kind ≠ kind)
    (fault : Fault) : ¬ FailedOn kind fault (w.publish event).1 := by
  rintro ⟨s, hmem, event', run, rest, hjournal, hkind', -⟩
  have hbus : (w.publish event).1.bus = w.bus := by rw [publish_onlyJournal event w]
  rw [hbus] at hmem
  rw [publish_of_notice hnotice] at hjournal
  obtain ⟨s', -, run', rest', hjournal', -⟩ :=
    tellAll_latest (List.ne_nil_of_mem hmem) event (w.noted notice)
  rw [hjournal', List.cons.injEq, Entry.delivery.injEq] at hjournal
  exact hkind (hjournal.1.2.1 ▸ hkind')

end World

/-! ### Steps -/

/-- A run without what it has produced. -/
def Run.record (run : Run) : Run := { run with artifacts := [] }

/-- The kinds of events that an activity publishes. -/
def EventKind.IsWork (kind : EventKind) : Prop := kind = .log ∨ kind = .artifact

namespace World

/-- One step of an activity that launches nothing. -/
inductive Stir : World → World → Prop where
  | pass (w : World) (t : Time) : Stir w (w.advanceTo t)
  | enter (w : World) {entry : Entry} (haside : entry.isAside = true) : Stir w (w.enter entry)
  | publish (w : World) {event : Event} (hwork : event.kind.IsWork) : Stir w (w.publish event).1
  | store (w : World) (key : String) (value : Value) : Stir w (w.modifyRun (·.store key value))

/-- The world after a launch: the system has given its next answer. -/
def launching (w : World) (spawn : Spawn) (pid : Option Nat) (nextPid : Nat) : World :=
  { w with responses := w.responses.tail, nextPid }.enter (.spawn spawn pid)

/-- One step of an activity. -/
inductive Step : World → World → Prop where
  | stir {u v : World} (h : Stir u v) : Step u v
  | launch (w : World) (spawn : Spawn) (pid : Option Nat) (nextPid : Nat) :
    Step w (w.launching spawn pid nextPid)

/-- Any number of steps without a launch. -/
abbrev Stirs : World → World → Prop := Relation.ReflTransGen Stir

/-- Any number of steps. -/
abbrev Steps : World → World → Prop := Relation.ReflTransGen Step

theorem Stirs.steps {u v : World} (h : Stirs u v) : Steps u v :=
  Relation.ReflTransGen.mono (fun _ _ hstir => Step.stir hstir) _ _ h

/-- Time does not run backwards, and the calendar, the files and the subscribers are the same. -/
structure Elapses (u v : World) : Prop where
  epoch : v.epoch = u.epoch
  files : v.files = u.files
  bus : v.bus = u.bus
  now : u.now ≤ v.now

theorem Elapses.refl (w : World) : Elapses w w := ⟨rfl, rfl, rfl, Nat.le_refl _⟩

theorem Elapses.trans {u v w : World} (huv : Elapses u v) (hvw : Elapses v w) : Elapses u w :=
  ⟨hvw.epoch.trans huv.epoch, hvw.files.trans huv.files, hvw.bus.trans huv.bus,
    Nat.le_trans huv.now hvw.now⟩

/-- What no step of an activity changes: the books of the run too, but for its artifacts. -/
structure Onward (u v : World) : Prop extends Elapses u v where
  runCount : v.runCount = u.runCount
  record : v.current.map Run.record = u.current.map Run.record

theorem Onward.refl (w : World) : Onward w w := ⟨.refl w, rfl, rfl⟩

theorem Onward.trans {u v w : World} (huv : Onward u v) (hvw : Onward v w) : Onward u w :=
  ⟨huv.toElapses.trans hvw.toElapses, hvw.runCount.trans huv.runCount,
    hvw.record.trans huv.record⟩

theorem OnlyJournal.onward {u v : World} (h : OnlyJournal u v) : Onward u v := by
  rw [h]
  exact ⟨⟨rfl, rfl, rfl, Nat.le_refl _⟩, rfl, rfl⟩

theorem Stir.onward {u v : World} (h : Stir u v) : Onward u v := by
  cases h with
  | pass t => exact ⟨⟨rfl, rfl, rfl, Nat.le_max_left _ _⟩, rfl, rfl⟩
  | enter haside => exact (onlyJournal_enter _ u).onward
  | publish hwork => exact (publish_onlyJournal _ u).onward
  | store key value =>
      refine ⟨⟨rfl, rfl, rfl, Nat.le_refl _⟩, rfl, ?_⟩
      simp only [modifyRun, Option.map_map]
      rfl

theorem Step.onward {u v : World} (h : Step u v) : Onward u v := by
  cases h with
  | stir h => exact h.onward
  | launch spawn pid nextPid => exact ⟨⟨rfl, rfl, rfl, Nat.le_refl _⟩, rfl, rfl⟩

theorem Steps.onward {u v : World} (h : Steps u v) : Onward u v := by
  induction h with
  | refl => exact .refl u
  | tail _ hstep ih => exact ih.trans hstep.onward

/-- Without a launch, the system is not asked and no launch is entered. -/
theorem Stir.launches {u v : World} (h : Stir u v) :
    v.responses = u.responses ∧ v.journal.launched = u.journal.launched := by
  cases h with
  | pass t => exact ⟨rfl, rfl⟩
  | enter haside =>
      refine ⟨rfl, ?_⟩
      simp [World.enter, Journal.launched, Journal.seen_cons, Entry.spawn?_of_isAside haside]
  | publish hwork =>
      refine ⟨by rw [publish_onlyJournal _ u], ?_⟩
      exact publish_seen (fun _ _ _ => rfl) (fun _ _ _ => rfl) _ u
  | store key value => exact ⟨rfl, rfl⟩

theorem Stirs.launches {u v : World} (h : Stirs u v) :
    v.responses = u.responses ∧ v.journal.launched = u.journal.launched := by
  induction h with
  | refl => exact ⟨rfl, rfl⟩
  | tail _ hstir ih => exact ⟨hstir.launches.1.trans ih.1, hstir.launches.2.trans ih.2⟩

theorem Stir.chunks {u v : World} (h : Stir u v) (channel : Channel) :
    v.journal.chunks channel = u.journal.chunks channel := by
  cases h with
  | pass t => rfl
  | enter haside =>
      simp [World.enter, Journal.chunks, Journal.seen_cons, Entry.chunk?_of_isAside channel haside]
  | publish hwork => exact publish_seen (fun _ _ _ => rfl) (fun _ _ _ => rfl) _ u
  | store key value => rfl

theorem Stirs.chunks {u v : World} (h : Stirs u v) (channel : Channel) :
    v.journal.chunks channel = u.journal.chunks channel := by
  induction h with
  | refl => rfl
  | tail _ hstir ih => exact (hstir.chunks channel).trans ih

theorem launching_launched (w : World) (spawn : Spawn) (pid : Option Nat) (nextPid : Nat) :
    (w.launching spawn pid nextPid).journal.launched = w.journal.launched ++ [spawn] := by
  simp [launching, World.enter, Journal.launched, Journal.seen_cons, Entry.spawn?]

/-- With quiet subscribers, what is heard in a step is heard by every subscriber. -/
theorem Step.heard {u v : World} (h : Step u v) (hquiet : u.Quiet) :
    ∃ events : List Event, (∀ e ∈ events, e.kind.IsWork) ∧
      v.journal.heard = u.journal.heard ++ events.flatMap u.told := by
  cases h with
  | stir h =>
      cases h with
      | pass t => exact ⟨[], by simp, by simp [advanceTo]⟩
      | enter haside =>
          refine ⟨[], by simp, ?_⟩
          simp [World.enter, Journal.heard, Journal.seen_cons, Entry.delivery?_of_isAside haside]
      | @publish event hwork =>
          cases hnotice : event.notice with
          | error fault => exact ⟨[], by simp, by simp [publish_of_fault hnotice]⟩
          | ok notice =>
              refine ⟨[event], by simpa using hwork, ?_⟩
              simpa using (publish_of_quiet hnotice hquiet).2
      | store key value => exact ⟨[], by simp, by simp [modifyRun]⟩
  | launch spawn pid nextPid =>
      refine ⟨[], by simp, ?_⟩
      simp [launching, World.enter, Journal.heard, Journal.seen_cons, Entry.delivery?]

theorem Quiet.of_bus {u v : World} (hquiet : u.Quiet) (hbus : v.bus = u.bus) : v.Quiet := by
  unfold Quiet
  rw [hbus]
  exact hquiet

theorem told_of_bus {u v : World} (hbus : v.bus = u.bus) : v.told = u.told := by
  unfold told
  rw [hbus]

theorem Steps.heard {u v : World} (h : Steps u v) (hquiet : u.Quiet) :
    ∃ events : List Event, (∀ e ∈ events, e.kind.IsWork) ∧
      v.journal.heard = u.journal.heard ++ events.flatMap u.told := by
  induction h with
  | refl => exact ⟨[], by simp, by simp⟩
  | @tail v w hsteps hstep ih =>
      obtain ⟨events, hwork, hheard⟩ := ih
      have hbus : v.bus = u.bus := (Steps.onward hsteps).bus
      obtain ⟨more, hmore, hlast⟩ := hstep.heard (hquiet.of_bus hbus)
      refine ⟨events ++ more, ?_, ?_⟩
      · intro e he
        rcases List.mem_append.mp he with he | he
        · exact hwork e he
        · exact hmore e he
      · rw [hlast, hheard, told_of_bus hbus, List.flatMap_append, List.append_assoc]

end World

end Conductor
