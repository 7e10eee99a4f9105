import Conductor.Proofs.Orchestrator.Stages
import Conductor.Proofs.Orchestrator.Trace
import Conductor.Proofs.Run

/-!
What anybody can see of a run is consistent, at every moment at which an event is delivered and when
the run has ended. From one such moment to the next the run stays at its phase, or it goes on to the
next one after it has completed that phase.
-/

namespace Conductor

open World

/-! ### What subscribers are shown -/

/-- The run that comes with a delivery. -/
def Entry.shown? : Entry → Option (Option Run)
  | delivery _ _ run => some run
  | _ => none

theorem Entry.shown?_of_isAside {entry : Entry} (h : entry.isAside = true) :
    entry.shown? = none := by
  cases entry <;> simp_all [isAside, shown?]

/-- The current run at each delivery so far. -/
def Journal.shown (journal : Journal) : List (Option Run) := journal.seen Entry.shown?

namespace World

theorem enter_shown {entry : Entry} (hentry : entry.shown? = none) (w : World) :
    (w.enter entry).journal.shown = w.journal.shown := by
  simp [enter, Journal.shown, Journal.seen_cons, hentry]

theorem tellAll_shown {subscribers : List Subscriber}
    (hquiet : ∀ s ∈ subscribers, ∀ journal event, s.react journal event = none) (event : Event)
    (w : World) :
    (tellAll event subscribers w).1.journal.shown =
      w.journal.shown ++ List.replicate subscribers.length w.current := by
  induction subscribers generalizing w with
  | nil => simp [tellAll, Bus.deliver]
  | cons s rest ih =>
      have hreact : (tell s event w).2 = none := hquiet s (by simp) _ _
      have htell : (tell s event w).1.journal.shown = w.journal.shown ++ [w.current] := by
        simp [tell, enter, Journal.shown, Journal.seen_cons, Entry.shown?]
      rw [tellAll_cons_of_none hreact, ih (fun s' hs' => hquiet s' (by simp [hs'])), htell]
      simp [tell, enter, List.replicate_succ]

/-- With quiet subscribers, the current run is shown to all of them with every event. -/
theorem publish_shown {event : Event} {notice : Option (Severity × String)}
    (hnotice : event.notice = .ok notice) {w : World} (hquiet : w.Quiet) :
    (w.publish event).1.journal.shown =
      w.journal.shown ++ List.replicate w.bus.subscribers.length w.current := by
  rw [publish_of_notice hnotice, tellAll_shown hquiet]
  cases notice with
  | none => rfl
  | some notice =>
      have hlog : (w.noted (some notice)).journal.shown = w.journal.shown := enter_shown rfl w
      rw [hlog]
      rfl

/-- In one step of an activity nothing is shown, or an event is published. -/
theorem Step.shown {u v : World} (h : Step u v) :
    v.journal.shown = u.journal.shown ∨
      ∃ event notice, event.notice = .ok notice ∧ v = (u.publish event).1 := by
  cases h with
  | stir h =>
      cases h with
      | pass t => exact Or.inl rfl
      | enter haside => exact Or.inl (enter_shown (Entry.shown?_of_isAside haside) u)
      | @publish event hwork =>
          cases hnotice : event.notice with
          | error fault => exact Or.inl (by rw [publish_of_fault hnotice])
          | ok notice => exact Or.inr ⟨event, notice, hnotice, rfl⟩
      | store key value => exact Or.inl rfl
  | launch spawn pid nextPid => exact Or.inl (enter_shown rfl _)

/-- Since the world `base`, the subscribers have been shown consistent moments of the run that was
started there, each moment to all of them, and the run `next` may be seen next. -/
structure Watched (base : World) (next : Run) (w : World) : Prop where
  elapses : Elapses base w
  moments : ∃ moments : List Run,
    w.journal.shown = base.journal.shown ++
      (moments.flatMap (List.replicate base.bus.subscribers.length)).map some ∧
    (∀ run ∈ moments, run.IsConsistent ∧ run.number = base.runCount) ∧
    (moments ++ [next]).IsChain Run.Next

namespace Watched

variable {base u v w : World} {run next : Run}

/-- Only where the next run is matters for what may be seen next. -/
theorem isChain_congr {moments : List Run} (hindex : next.index = run.index)
    (h : (moments ++ [run]).IsChain Run.Next) : (moments ++ [next]).IsChain Run.Next := by
  rw [List.isChain_append] at h ⊢
  refine ⟨h.1, .singleton next, ?_⟩
  intro last hlast first hfirst
  cases hfirst
  have hnext := h.2.2 last hlast run rfl
  unfold Run.Next at hnext ⊢
  rw [hindex]
  exact hnext

/-- While nothing is shown, the run may change, if it stays where it is. -/
theorem mono (h : Watched base run u) (helapses : Elapses u v)
    (hshown : v.journal.shown = u.journal.shown) (hindex : next.index = run.index) :
    Watched base next v := by
  obtain ⟨moments, hmoments, hall, hchain⟩ := h.moments
  exact ⟨h.elapses.trans helapses, moments, hshown.trans hmoments, hall,
    isChain_congr hindex hchain⟩

theorem modifyRun (h : Watched base run w) (f : Run → Run) (hindex : next.index = run.index) :
    Watched base next (w.modifyRun f) :=
  h.mono (modifyRun_books f w).elapses rfl hindex

/-- A consistent run may be shown. -/
theorem publish (h : Watched base run w) (hquiet : base.Quiet) (hstands : w.Stands run)
    (hrun : run.IsConsistent ∧ run.number = base.runCount) {event : Event}
    {notice : Option (Severity × String)} (hnotice : event.notice = .ok notice)
    (hnext : run.Next next) : Watched base next (w.publish event).1 := by
  obtain ⟨moments, hmoments, hall, hchain⟩ := h.moments
  obtain ⟨present, hpresent, rfl⟩ := Option.map_eq_some_iff.mp hstands
  refine ⟨h.elapses.trans (publish_books event w).elapses, moments ++ [present], ?_, ?_, ?_⟩
  · rw [publish_shown hnotice (hquiet.of_bus h.elapses.bus), hmoments, hpresent, h.elapses.bus]
    simp
  · intro other hother
    rcases List.mem_append.mp hother with hother | hother
    · exact hall other hother
    · rw [List.mem_singleton.mp hother]
      exact ⟨.of_record hrun.1, hrun.2⟩
  · rw [List.append_assoc]
    apply List.isChain_append_cons_cons.mpr
    have hindex : present.index = present.record.index := rfl
    exact ⟨isChain_congr hindex hchain, hnext, .singleton next⟩

theorem steps (h : Watched base run u) (hquiet : base.Quiet) (hstands : u.Stands run)
    (hrun : run.IsConsistent ∧ run.number = base.runCount) (hsteps : Steps u v) :
    Watched base run v := by
  induction hsteps with
  | refl => exact h
  | @tail v w hsteps hstep ih =>
      rcases hstep.shown with hshown | ⟨event, notice, hnotice, rfl⟩
      · exact ih.mono hstep.onward.toElapses hshown rfl
      -- Only artifacts can have changed since, and whether a run is consistent is not up to them.
      · have hstands' := hstands.of_record (Steps.onward hsteps).record
        exact ih.publish hquiet hstands' hrun hnotice (.refl run)

end Watched

end World

/-! ### A run at one of its phases -/

theorem PhaseAction.phase_isConsistent (action : PhaseAction) : action.phase.IsConsistent := by
  constructor <;> simp [phase]

theorem PhaseAction.forall_pending (actions : List PhaseAction) :
    ∀ phase ∈ actions.map (·.phase), phase.IsConsistent ∧ phase.status = .pending := by
  intro phase hphase
  obtain ⟨action, -, rfl⟩ := List.mem_map.mp hphase
  exact ⟨action.phase_isConsistent, rfl⟩

namespace Orchestrator

/-- A run that was started in the world `base` is under way, and the phases `done` are completed. -/
structure Frame (base : World) (run : Run) (done : List Phase) : Prop where
  done : ∀ phase ∈ done, phase.IsConsistent ∧ phase.status = .completed
  status : run.status = .running
  finish : run.finish = none
  number : run.number = base.runCount

/-- The run is at a phase, and all that was shown of it so far is consistent. -/
structure Engaged (base : World) (run : Run) (done : List Phase) (rest : List PhaseAction)
    (phase : Phase) (now : Stamp) (w : World) : Prop where
  stands : w.Stands (run.atPhase done (rest.map (·.phase)) phase)
  watched : Watched base (run.atPhase done (rest.map (·.phase)) phase) w
  stamp : w.stamp = .ok now
  consistent : phase.IsConsistent
  past : UpTo now (run.start :: done.flatMap Phase.stamps ++ phase.stamps)

variable {base w w' : World} {run : Run} {done : List Phase} {action : PhaseAction}
  {rest : List PhaseAction} {phase : Phase} {now : Stamp} {r : Except Fault Unit}

theorem Engaged.isConsistent (hframe : Frame base run done)
    (h : Engaged base run done rest phase now w) (hbegun : phase.status ≠ .pending) :
    (run.atPhase done (rest.map (·.phase)) phase).IsConsistent ∧
      (run.atPhase done (rest.map (·.phase)) phase).number = base.runCount := by
  have hstatus : (run.atPhase done (rest.map (·.phase)) phase).status = .running := hframe.status
  have hfinish : (run.atPhase done (rest.map (·.phase)) phase).finish = none := hframe.finish
  refine ⟨Run.isConsistent_of_phases rfl rfl hframe.done h.consistent
    (PhaseAction.forall_pending rest) ?_ ?_ ?_ ?_ ?_,
    hframe.number⟩
  · exact fun hpending => absurd hpending hbegun
  · simp [hstatus]
  · simp [hstatus]
  · simp [hstatus, hfinish]
  · rw [hfinish, Option.toList_none, List.append_nil]
    exact h.past.sorted

theorem Engaged.publish (hquiet : base.Quiet) (hframe : Frame base run done)
    (h : Engaged base run done rest phase now w) (hbegun : phase.status ≠ .pending) (event : Event)
    {severity : Severity} (hlevel : event.level.severity? = some severity) :
    (w.publish event).2 = none ∧ Engaged base run done rest phase now (w.publish event).1 := by
  obtain ⟨notice, hnotice⟩ := Event.notice_of_severity event hlevel
  refine ⟨(publish_of_quiet hnotice (hquiet.of_bus h.watched.elapses.bus)).1, ?_⟩
  refine ⟨h.stands.publish event, ?_, (publish_books event w).stamp.trans h.stamp, h.consistent,
    h.past⟩
  exact h.watched.publish hquiet h.stands (h.isConsistent hframe hbegun) hnotice (.refl _)

/-- The phase is changed, and a stamp is put on it. -/
theorem Engaged.modifyPhase (h : Engaged base run done rest phase now w) {f : Phase → Phase}
    (hf : (f phase).IsConsistent) (hstamps : (f phase).stamps = phase.stamps ++ [now]) :
    Engaged base run done rest (f phase) now (w.modifyPhase f) := by
  refine ⟨h.stands.modifyPhase f, h.watched.modifyRun _ rfl,
    (modifyPhase_books f w).stamp.trans h.stamp, hf, ?_⟩
  rw [hstamps, ← List.append_assoc]
  exact h.past.concat (le_refl now)

theorem Engaged.steps {v : World} {later : Stamp} (hquiet : base.Quiet)
    (hframe : Frame base run done) (h : Engaged base run done rest phase now w)
    (hbegun : phase.status ≠ .pending) (hsteps : Steps w v) (hlater : v.stamp = .ok later) :
    Engaged base run done rest phase later v := by
  have honward := Steps.onward hsteps
  refine ⟨h.stands.of_record honward.record, ?_, hlater, h.consistent, ?_⟩
  · exact h.watched.steps hquiet h.stands (h.isConsistent hframe hbegun) hsteps
  · exact h.past.mono (honward.toElapses.stamp_le h.stamp hlater)

/-- However the phase ends, all that was shown of it is consistent. -/
theorem PhaseEnds.engaged (hquiet : base.Quiet) (hframe : Frame base run done)
    (hdated : Dated w w') (hw : Engaged base run done rest action.phase now w)
    (h : PhaseEnds action w w' r) :
    ∃ phase later, Engaged base run done rest phase later w' ∧ phase.status ≠ .pending ∧
      (r = .ok () → phase.status = .completed) ∧
      ∀ fault, r = .error fault → fault.isFatal = false → phase.status = .failed := by
  have hbegun : (action.phase.begun now).status ≠ .pending := by simp [Phase.begun]
  obtain ⟨hheard, hopened⟩ : (opened action now w).2 = none ∧
      Engaged base run done rest (action.phase.begun now) now (opened action now w).1 := by
    apply Engaged.publish hquiet hframe _ hbegun _ rfl
    apply hw.modifyPhase (f := (·.begun now))
    · constructor <;> simp [Phase.begun, PhaseAction.phase]
    · rfl
  cases h with
  | @unheard start fault hstart hsome =>
      rw [hw.stamp] at hstart
      cases hstart
      rw [hheard] at hsome
      cases hsome
  | @returned start finish v hstart hnone hsteps hfinish =>
      rw [hw.stamp] at hstart
      cases hstart
      have hv := hopened.steps hquiet hframe hbegun hsteps hfinish
      have htold : (toldCompleted action now finish v).2 = none ∧
          Engaged base run done rest ((action.phase.begun now).completed finish) finish
            (toldCompleted action now finish v).1 := by
        apply Engaged.publish hquiet hframe _ (by simp [Phase.completed]) _ rfl
        apply hv.modifyPhase (f := (·.completed finish))
        · constructor <;> simp [Phase.completed, Phase.begun, PhaseAction.phase]
        · rfl
      refine ⟨_, finish, htold.2, by simp [Phase.completed], fun _ => rfl, ?_⟩
      intro fault hfault
      rw [htold.1] at hfault
      cases hfault
  | @failed start finish v fault hstart hnone hsteps hfinish =>
      rw [hw.stamp] at hstart
      cases hstart
      have hv := hopened.steps hquiet hframe hbegun hsteps hfinish
      have htold : (toldBroken action fault finish v).2 = none ∧
          Engaged base run done rest ((action.phase.begun now).broken fault.summary finish) finish
            (toldBroken action fault finish v).1 := by
        apply Engaged.publish hquiet hframe _ (by simp [Phase.broken]) _ rfl
        apply hv.modifyPhase (f := (·.broken fault.summary finish))
        · constructor <;> simp [Phase.broken, Phase.begun, PhaseAction.phase]
        · rfl
      exact ⟨_, finish, htold.2, by simp [Phase.broken], by simp, fun _ _ _ => rfl⟩
  | @fatal start v fault hstart hnone hsteps hfatal =>
      rw [hw.stamp] at hstart
      cases hstart
      have helapses := (opened_books action now w).elapses.trans (Steps.onward hsteps).toElapses
      obtain ⟨later, hlater⟩ := (hdated.mono helapses (.refl w')).stamp (.refl w')
      refine ⟨_, later, hopened.steps hquiet hframe hbegun hsteps hlater, hbegun, by simp, ?_⟩
      rintro other ⟨⟩ hplain
      rw [hfatal] at hplain
      cases hplain

/-! ### A run between its phases -/

/-- The run is about to go on with the phases of `actions`, or to end if there are none. It has just
been shown, and all that was shown so far is consistent. -/
structure Poised (base : World) (run : Run) (done : List Phase) (actions : List PhaseAction)
    (now : Stamp) (w : World) : Prop where
  frame : Frame base run done
  stands : w.Stands run
  phases : run.phases = done ++ actions.map (·.phase)
  position : done = [] ∧ run.index = 0 ∨ done.length = run.index + 1
  stamp : w.stamp = .ok now
  past : UpTo now (run.start :: done.flatMap Phase.stamps)
  watched : ∀ next, run.Next next → Watched base next w

/-- All that was shown of the run is consistent, and so is the run itself. -/
def IsSound (base w : World) : Prop :=
  ∃ run, w.Stands run ∧ (run.IsConsistent ∧ run.number = base.runCount) ∧ Watched base run w

theorem IsSound.of_closed {status : RunStatus} (hquiet : base.Quiet) (hstands : w.Stands run)
    (hwatched : Watched base run w)
    (hrun : (run.closed status now).IsConsistent ∧ run.number = base.runCount) (event : Event)
    {severity : Severity} (hlevel : event.level.severity? = some severity) :
    IsSound base ((w.modifyRun (·.closed status now)).publish event).1 := by
  obtain ⟨notice, hnotice⟩ := Event.notice_of_severity event hlevel
  have hclosed : (w.modifyRun (·.closed status now)).Stands (run.closed status now) :=
    hstands.modifyRun (f := (·.closed status now)) fun _ => rfl
  have hwatched' : Watched base (run.closed status now) (w.modifyRun (·.closed status now)) :=
    hwatched.modifyRun _ rfl
  exact ⟨_, hclosed.publish event, hrun, hwatched'.publish hquiet hclosed hrun hnotice (.refl _)⟩

/-- A run that fails with its phase. -/
theorem Engaged.failed {fault : Fault} (hquiet : base.Quiet) (hframe : Frame base run done)
    (h : Engaged base run done rest phase now w) (hfailed : phase.status = .failed)
    (hends : (failRun action fault w).Ends w' r) : IsSound base w' := by
  obtain ⟨rfl, -⟩ := failRun_ends h.stamp hends
  refine .of_closed hquiet h.stands h.watched ⟨?_, hframe.number⟩ _ rfl
  apply Run.isConsistent_of_phases rfl rfl hframe.done h.consistent
    (PhaseAction.forall_pending rest)
  · simp [hfailed]
  · simp [Run.closed]
  · exact fun _ => hfailed
  · simp [Run.closed]
  · exact (h.past.concat (le_refl now)).sorted

/-- A run that ends after its last phase. -/
theorem Poised.completed {start : Stamp} (hquiet : base.Quiet) (h : Poised base run done [] now w)
    (hends : (completeRun start w).Ends w' r) : IsSound base w' := by
  obtain ⟨rfl, -⟩ := completeRun_ends h.stamp hends
  refine .of_closed hquiet h.stands (h.watched run (.refl run)) ⟨?_, h.frame.number⟩ _ rfl
  have hphases : (run.closed .completed now).phases = done := by
    simpa [Run.closed] using h.phases
  have hpast := (h.past.concat (le_refl now)).sorted
  rcases done.eq_nil_or_concat' with rfl | ⟨first, last, rfl⟩
  · apply Run.isConsistent_of_nil hphases
    · simp [Run.closed]
    · simp [Run.closed]
    · exact hpast
  · have hindex : run.index = first.length := by
      rcases h.position with ⟨hnil, -⟩ | hlength
      · simp at hnil
      · simpa using hlength.symm
    have hfirst : ∀ phase ∈ first, phase.IsConsistent ∧ phase.status = .completed :=
      fun phase hphase => h.frame.done phase (by simp [hphase])
    have hlast := h.frame.done last (by simp)
    apply Run.isConsistent_of_phases hphases hindex hfirst hlast.1 (by simp)
    · simp [hlast.2]
    · simp [hlast.2]
    · simp [Run.closed]
    · simp [Run.closed]
    · simpa [Run.closed] using hpast

/-- A run that goes on is at its next phase. -/
theorem Poised.engaged (h : Poised base run done (action :: rest) now w) :
    Engaged base run done rest action.phase now (atIndex done.length w) := by
  have hrun : { run with index := done.length } =
      run.atPhase done (rest.map (·.phase)) action.phase := by
    unfold Run.atPhase
    rw [← List.map_cons, ← h.phases]
  have hstands : (atIndex done.length w).Stands { run with index := done.length } :=
    h.stands.modifyRun (f := fun run => { run with index := done.length }) fun _ => rfl
  have hnext : run.Next { run with index := done.length } := by
    rcases h.position with ⟨rfl, hindex⟩ | hlength
    · exact Or.inl hindex.symm
    · refine Or.inr ⟨hlength, ?_⟩
      have hlt : run.index < done.length := by omega
      refine ⟨done[run.index], ?_, (h.frame.done _ (List.getElem_mem hlt)).2⟩
      rw [Run.currentPhase?, h.phases, List.getElem?_append_left hlt, List.getElem?_eq_getElem hlt]
  have hwatched : Watched base { run with index := done.length } (atIndex done.length w) :=
    (h.watched _ hnext).modifyRun _ rfl
  rw [hrun] at hstands hwatched
  refine ⟨hstands, hwatched, (atIndex_books _ w).stamp.trans h.stamp, action.phase_isConsistent, ?_⟩
  have hnone : action.phase.stamps = [] := rfl
  rw [hnone, List.append_nil]
  exact h.past

/-- A run that has completed a phase and told of its progress is about to go on. -/
theorem Engaged.poised (hquiet : base.Quiet) (hframe : Frame base run done)
    (h : Engaged base run done rest phase now w) (hcompleted : phase.status = .completed)
    (event : Stamp → Event) {severity : Severity}
    (hlevel : (event now).level.severity? = some severity) :
    (w.announce event).2 = none ∧
      Poised base (run.atPhase done (rest.map (·.phase)) phase) (done ++ [phase]) rest now
        (w.announce event).1 := by
  have hbegun : phase.status ≠ .pending := by simp [hcompleted]
  obtain ⟨notice, hnotice⟩ := Event.notice_of_severity (event now) hlevel
  obtain ⟨hnone, htold⟩ := h.publish hquiet hframe hbegun (event now) hlevel
  rw [announce_of_stamp h.stamp]
  refine ⟨hnone, ?_, htold.stands, ?_, Or.inr ?_, htold.stamp, ?_, ?_⟩
  · refine ⟨?_, hframe.status, hframe.finish, hframe.number⟩
    intro other hother
    rcases List.mem_append.mp hother with hother | hother
    · exact hframe.done other hother
    · rw [List.mem_singleton.mp hother]
      exact ⟨h.consistent, hcompleted⟩
  · simp [Run.atPhase]
  · simp [Run.atPhase]
  · have hpast := h.past
    simpa [Run.atPhase] using hpast
  · intro next hnext
    exact h.watched.publish hquiet h.stands (h.isConsistent hframe hbegun) hnotice hnext

/-- The phases of a run, one after the other, as far as they go. -/
theorem phasesFrom_sound {brief : Brief} {total : Nat} {actions : List PhaseAction}
    (hquiet : base.Quiet) (hdated : Dated w w')
    (hends : (phasesFrom brief total done.length actions w).Ends w' r)
    (h : Poised base run done actions now w) :
    (r = .ok () ∧ ∃ run' done' later, Poised base run' done' [] later w') ∨
      (∃ fault, r = .error fault) ∧ IsSound base w' := by
  induction actions generalizing w run done now with
  | nil =>
      obtain ⟨rfl, rfl⟩ := Course.ends_ended.mp hends
      exact Or.inl ⟨rfl, run, done, now, h⟩
  | cons action rest ih =>
      obtain ⟨v, s, hphase, hproceeds⟩ := phasesFrom_cons.mp hends
      have hindex := (atIndex_books done.length w).elapses
      have hdated' := hdated.mono hindex hproceeds.elapses
      obtain ⟨phase, later, hv, hbegun, hreturned, hfailed⟩ :=
        (executePhase_ends hdated' hphase).engaged hquiet h.frame hdated' h.engaged
      cases hproceeds with
      | returned hnone hgo =>
          obtain ⟨-, hpoised⟩ := hv.poised hquiet h.frame (hreturned rfl)
            (progressEvent action (done.length + 1) total) rfl
          obtain ⟨stints, hchain, -⟩ := executePhase_chain hphase
          have hbooks := announce_books (progressEvent action (done.length + 1) total) v
          have hnext := (hindex.trans hchain.elapses).trans hbooks.elapses
          have hgo' : (phasesFrom brief total (done ++ [phase]).length rest
              (v.announce (progressEvent action (done.length + 1) total)).1).Ends w' r := by
            rw [List.length_append, List.length_singleton]
            exact hgo
          exact ih (hdated.mono hnext (.refl w')) hgo' hpoised
      | untold hsome =>
          obtain ⟨hnone, -⟩ := hv.poised hquiet h.frame (hreturned rfl)
            (progressEvent action (done.length + 1) total) rfl
          rw [hnone] at hsome
          cases hsome
      | failed hplain hfail =>
          obtain ⟨-, other, rfl⟩ := failRun_books hfail
          exact Or.inr ⟨⟨other, rfl⟩, hv.failed hquiet h.frame (hfailed _ rfl hplain) hfail⟩
      | fatal hfatal =>
          exact Or.inr ⟨⟨_, rfl⟩, _, hv.stands, hv.isConsistent h.frame hbegun, hv.watched⟩

/-! ### Whole runs -/

variable {o : Orchestrator} {planRef : String} {agent : Value} {result : Except Fault Nat}

theorem newRun_isConsistent (o : Orchestrator) (planRef : String) (agent : Value) (start : Stamp)
    (w : World) : (o.newRun planRef agent start w).IsConsistent := by
  rcases hactions : o.actions with _ | ⟨action, rest⟩
  · apply Run.isConsistent_of_nil
    · simp [newRun, hactions]
    · simp [newRun]
    · simp [newRun]
    · simp [newRun]
  · have hphases : (o.newRun planRef agent start w).phases =
        [] ++ action.phase :: rest.map (·.phase) := by
      simp [newRun, hactions]
    apply Run.isConsistent_of_phases hphases
    · simp [newRun]
    · simp
    · exact action.phase_isConsistent
    · exact PhaseAction.forall_pending rest
    · simp [newRun]
    · simp [newRun]
    · simp [newRun]
    · simp [newRun]
    · simp [newRun, Phase.stamps, PhaseAction.phase]

theorem launched_poised (o : Orchestrator) (planRef : String) (agent : Value) {start : Stamp}
    (hquiet : w.Quiet) (hstart : w.stamp = .ok start) :
    (o.launched planRef agent start w).2 = none ∧
      Poised w (o.newRun planRef agent start w) [] o.actions start
        (o.launched planRef agent start w).1 := by
  obtain ⟨hnone, -, hstands⟩ := launched_quiet o planRef agent start hquiet
  have hbooks := commence_books o planRef agent start w
  have hcommenced : Watched w (o.newRun planRef agent start w)
      (o.commence planRef agent start w) := by
    refine ⟨hbooks.elapses, [], ?_, by simp, .singleton _⟩
    simp [commence, World.log, World.enter, Journal.shown, Journal.seen_cons, Entry.shown?]
  have hrun : (o.newRun planRef agent start w).IsConsistent ∧
      (o.newRun planRef agent start w).number = w.runCount :=
    ⟨newRun_isConsistent o planRef agent start w, rfl⟩
  obtain ⟨notice, hnotice⟩ := Event.notice_of_severity
    (startedEvent (o.newRun planRef agent start w) start) rfl
  refine ⟨hnone, ⟨by simp, rfl, rfl, rfl⟩, hstands, rfl, Or.inl ⟨rfl, rfl⟩, ?_, .singleton start,
    ?_⟩
  · exact (launched_books o planRef agent start w).stamp.trans hstart
  · intro next hnext
    exact hcommenced.publish hquiet rfl hrun hnotice hnext

theorem run_sound (hidle : isBusy w = false) (hquiet : w.Quiet)
    (hends : (o.run planRef agent w).Ends w' result) (hdated : Dated w w') : IsSound w w' := by
  obtain ⟨stints, hall, -⟩ := run_chain hidle hends
  obtain ⟨start, hstart⟩ := hdated.stamp hall.elapses
  obtain ⟨hnone, hpoised⟩ := launched_poised o planRef agent hquiet hstart
  have hlaunched := (launched_books o planRef agent start w).elapses
  rcases run_cases hidle hends with ⟨start', hstart', hcases⟩ | ⟨other, hother, -, -⟩
  · rw [hstart] at hstart'
    cases hstart'
    rcases hcases with ⟨fault, hsome, -, -⟩ | ⟨-, v, s, hphases, hrest⟩
    · rw [hnone] at hsome
      cases hsome
    rcases hrest with ⟨fault, rfl, rfl, -⟩ | ⟨rfl, s', hcomplete, -⟩
    · have hdated' := hdated.mono hlaunched (.refl w')
      rcases phasesFrom_sound hquiet hdated' hphases hpoised with ⟨hok, -⟩ | ⟨-, hsound⟩
      · cases hok
      · exact hsound
    · have hdated' := hdated.mono hlaunched (completeRun_books hcomplete).elapses
      rcases phasesFrom_sound hquiet hdated' hphases hpoised with
        ⟨-, run, done, now, hdone⟩ | ⟨⟨fault, hfault⟩, -⟩
      · exact hdone.completed hquiet hcomplete
      · cases hfault
  · rw [hstart] at hother
    cases hother

/-- With subscribers that do not fail, and as long as the calendar lasts, whatever is shown of a run
and whatever is left of it is consistent, and the run goes from phase to phase. Because a call may
be stopped wherever it waits, this holds of every delivery so far while the run is under way. -/
theorem run_consistent {o : Orchestrator} {planRef : String} {agent : Value} {w w' : World}
    {result : Except Fault Nat} (hidle : isBusy w = false) (hquiet : w.Quiet)
    (hends : (o.run planRef agent w).Ends w' result) (hdated : Dated w w') :
    ∃ observed final, w'.journal.shown = w.journal.shown ++ observed.map some ∧
      w'.current = some final ∧
      (∀ run ∈ observed ++ [final], run.IsConsistent ∧ run.number = w.runCount) ∧
      (observed ++ [final]).IsChain Run.Next := by
  obtain ⟨run, hstands, hrun, -, moments, hshown, hall, hchain⟩ :=
    run_sound hidle hquiet hends hdated
  obtain ⟨final, hfinal, rfl⟩ := Option.map_eq_some_iff.mp hstands
  refine ⟨_, final, hshown, hfinal, ?_, ?_⟩
  · intro run hmem
    rcases List.mem_append.mp hmem with hmem | hmem
    · obtain ⟨moment, hmoment, hcopy⟩ := List.mem_flatMap.mp hmem
      rw [List.eq_of_mem_replicate hcopy]
      exact hall moment hmoment
    · rw [List.mem_singleton.mp hmem]
      exact ⟨.of_record hrun.1, hrun.2⟩
  · apply Run.isChain_repeated
    have hindex : final.index = final.record.index := rfl
    exact Watched.isChain_congr hindex hchain

theorem run_consistent_of_threePhases :
    ∃ w' observed final, (threePhases.run "plan.md" (.text "agent") attended).Ends w'
        (.error (.foreign ⟨"ValueError", "", false⟩)) ∧
      w'.journal.shown = observed.map some ∧ observed.length = 8 ∧
      w'.current = some final ∧ final.status = .failed ∧
      (∀ run ∈ observed ++ [final], run.IsConsistent) ∧ (observed ++ [final]).IsChain Run.Next := by
  have hends := Course.ends_of_finish (c := threePhases.run "plan.md" (.text "agent") attended)
    (r := .error (.foreign ⟨"ValueError", "", false⟩)) (by decide +kernel)
  have hquiet : attended.Quiet := by simp [World.Quiet, attended]
  have hdated : Dated attended (threePhases.run "plan.md" (.text "agent") attended).finish.1 :=
    dated_of_now rfl (by decide +kernel)
  obtain ⟨observed, final, hshown, hfinal, hall, hchain⟩ := run_consistent rfl hquiet hends hdated
  have hlength : (threePhases.run "plan.md" (.text "agent")
      attended).finish.1.journal.shown.length = 8 := by decide +kernel
  have hstatus : (threePhases.run "plan.md" (.text "agent") attended).finish.1.current.map
      (·.status) = some .failed := by decide +kernel
  have hnone : attended.journal.shown = [] := rfl
  rw [hnone, List.nil_append] at hshown
  rw [hshown, List.length_map] at hlength
  rw [hfinal] at hstatus
  refine ⟨_, observed, final, hends, hshown, hlength, hfinal, by simpa using hstatus, ?_, hchain⟩
  exact fun run hrun => (hall run hrun).1

end Orchestrator

end Conductor
