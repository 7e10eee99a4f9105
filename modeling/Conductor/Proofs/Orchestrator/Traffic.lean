import Conductor.Proofs.Interference
import Conductor.Proofs.Orchestrator.Stint

/-!
Calls that overlap. While a call waits, others may be made, and the world may change in other ways;
a call that waits goes on, or is told to stop, at any moment. Only one run is ever under way: it is
the current one, and it is the run of the only call that waits. A call that comes in the meantime is
refused and leaves no trace. Any other call starts afresh, and the runs before it stay as they are.
-/

namespace Conductor

open World

/-! ### Where the current run stands -/

namespace World

/-- The number and the status of the current run, and the number of runs. -/
def stage (w : World) : Option (Nat × RunStatus) × Nat :=
  (w.current.map fun run => (run.number, run.status), w.runCount)

/-- Run number `n` is the latest one, with this status. -/
def IsLatest (n : Nat) (status : RunStatus) (w : World) : Prop :=
  w.stage = (some (n, status), n + 1)

/-- Run number `n` is under way. -/
def IsRunning (n : Nat) (w : World) : Prop := w.IsLatest n .running

/-- Run number `n` is the latest one. -/
def IsLast (n : Nat) (w : World) : Prop := ∃ status, w.IsLatest n status

variable {n : Nat} {status : RunStatus} {u v w : World}

theorem IsRunning.isLast (h : w.IsRunning n) : w.IsLast n := ⟨.running, h⟩

theorem Onward.stage (h : Onward u v) : v.stage = u.stage := by
  have hrecord := congrArg (Option.map fun run => (run.number, run.status)) h.record
  simp only [Option.map_map, Function.comp_def, Run.record] at hrecord
  unfold World.stage
  rw [hrecord, h.runCount]

theorem isKept_isRunning (n : Nat) : IsKept (IsRunning n) := by
  intro u v hstep hu
  exact (Step.onward hstep).stage.trans hu

theorem IsLatest.publish (h : w.IsLatest n status) (event : Event) :
    (w.publish event).1.IsLatest n status :=
  (publish_onlyJournal event w).onward.stage.trans h

theorem IsLatest.announce (h : w.IsLatest n status) (event : Stamp → Event) :
    (w.announce event).1.IsLatest n status := by
  unfold World.announce
  cases w.stamp with
  | ok stamp => exact h.publish _
  | error fault => exact h

theorem IsLatest.current (h : w.IsLatest n status) :
    ∃ run, w.current = some run ∧ run.number = n ∧ run.status = status ∧ w.runCount = n + 1 := by
  obtain ⟨hrun, hcount⟩ := Prod.mk.inj h
  obtain ⟨run, hcurrent, hmarks⟩ := Option.map_eq_some_iff.mp hrun
  obtain ⟨hnumber, hstatus⟩ := Prod.mk.inj hmarks
  exact ⟨run, hcurrent, hnumber, hstatus, hcount⟩

theorem IsLatest.modifyRun (h : w.IsLatest n status) {f : Run → Run} {status' : RunStatus}
    (hnumber : ∀ run, (f run).number = run.number)
    (hstatus : ∀ run, run.status = status → (f run).status = status') :
    (w.modifyRun f).IsLatest n status' := by
  obtain ⟨run, hcurrent, rfl, hrun, hcount⟩ := h.current
  unfold IsLatest World.stage World.modifyRun
  rw [hcurrent]
  simp [hnumber, hstatus run hrun, hcount]

theorem IsLatest.modifyPhase (h : w.IsLatest n status) (f : Phase → Phase) :
    (w.modifyRun (·.modifyCurrent f)).IsLatest n status :=
  h.modifyRun (fun _ => rfl) fun _ hstatus => hstatus

theorem IsLast.current (h : w.IsLast n) :
    ∃ run, w.current = some run ∧ run.number = n ∧ w.runCount = n + 1 := by
  obtain ⟨status, hlatest⟩ := h
  obtain ⟨run, hcurrent, hnumber, -, hcount⟩ := hlatest.current
  exact ⟨run, hcurrent, hnumber, hcount⟩

theorem IsRunning.isBusy (h : w.IsRunning n) : Orchestrator.isBusy w = true := by
  obtain ⟨run, hcurrent, -, hstatus, -⟩ := IsLatest.current h
  unfold Orchestrator.isBusy
  simp [hcurrent, hstatus]

end World

/-! ### What a call does to the current run -/

namespace Orchestrator

variable {brief : Brief} {action : PhaseAction} {n : Nat} {w : World}

theorem passOn_abides {p : World → Prop} {q : World → Except Fault Unit → Prop}
    {event : Stamp → Event} {fault : Fault} (hq : ∀ fault, q (w.announce event).1 (.error fault)) :
    (passOn event fault w).Abides p q := by
  unfold passOn Flow.seq
  apply Course.abides_bind (Flow.step_abides (q := fun v _ => ∀ fault, q v (.error fault))
    fun _ => hq)
  · intro v _ hv
    exact .ended (hv fault)
  · intro v fault hv
    exact hv fault

theorem failPhase_keeps (fault : Fault) (hw : w.IsRunning n) :
    (failPhase action fault w).Keeps (IsRunning n) := by
  have hmarked : (w.modifyRun (·.modifyCurrent fun phase =>
      { phase with status := .failed, error := some fault.summary })).IsRunning n :=
    IsLatest.modifyPhase hw _
  unfold failPhase
  apply Flow.stamped_abides
  · intro stamp
    apply passOn_abides
    intro r
    exact (IsLatest.modifyPhase hmarked _).announce _
  · intro fault
    exact hmarked

theorem completePhase_keeps (start : Stamp) (hw : w.IsRunning n) :
    (completePhase action start w).Keeps (IsRunning n) := by
  have hmarked : (w.modifyRun (·.modifyCurrent fun phase =>
      { phase with status := .completed })).IsRunning n := IsLatest.modifyPhase hw _
  unfold completePhase
  apply Flow.stamped_abides
  · intro stamp
    apply Flow.step_abides
    intro r
    exact (IsLatest.modifyPhase hmarked _).announce _
  · intro fault
    exact hmarked

/-- A phase goes on with nothing but the run that it belongs to. -/
theorem executePhase_keeps (hw : w.IsRunning n) :
    (executePhase brief action w).Keeps (IsRunning n) := by
  have hmarked : (w.modifyRun (·.modifyCurrent fun phase =>
      { phase with status := .running })).IsRunning n := IsLatest.modifyPhase hw _
  unfold executePhase
  apply Flow.stamped_abides
  · intro start
    have hbegun : ((w.modifyRun (·.modifyCurrent fun phase =>
        { phase with status := .running })).modifyRun (·.modifyCurrent fun phase =>
        { phase with start := some start })).IsRunning n := IsLatest.modifyPhase hmarked _
    have htold := hbegun.announce (phaseStartedEvent action)
    apply Course.keeps_bind (Flow.step_keeps htold)
    intro v _ hv
    apply Course.keeps_andThen (Activity.perform_keeps (isKept_isRunning n) _ hv)
    intro v s hv
    cases s with
    | ok _ => exact completePhase_keeps start hv
    | error fault =>
        simp only
        split
        · exact .ended hv
        · exact failPhase_keeps fault hv
  · intro fault
    exact hmarked

theorem failRun_abides (fault : Fault) (hw : w.IsRunning n) :
    (failRun action fault w).Abides (IsRunning n) fun v r =>
      v.IsLast n ∧ ∃ fault, r = .error fault := by
  have hmarked : (w.modifyRun fun run => { run with status := .failed }).IsLatest n .failed :=
    hw.modifyRun (fun _ => rfl) fun _ _ => rfl
  unfold failRun
  apply Flow.stamped_abides
  · intro stamp
    apply passOn_abides
    intro fault
    have hclosed := hmarked.modifyRun (f := fun run => { run with finish := some stamp })
      (fun _ => rfl) fun _ hstatus => hstatus
    exact ⟨⟨.failed, hclosed.announce _⟩, fault, rfl⟩
  · intro fault
    exact ⟨⟨.failed, hmarked⟩, fault, rfl⟩

theorem completeRun_abides (start : Stamp) (hw : w.IsRunning n) :
    (completeRun start w).Abides (IsRunning n) fun v _ => v.IsLast n := by
  have hmarked : (w.modifyRun fun run => { run with status := .completed }).IsLatest n .completed :=
    hw.modifyRun (fun _ => rfl) fun _ _ => rfl
  unfold completeRun
  apply Flow.stamped_abides
  · intro stamp
    apply Flow.step_abides
    intro r
    have hclosed := hmarked.modifyRun (f := fun run => { run with finish := some stamp })
      (fun _ => rfl) fun _ hstatus => hstatus
    exact ⟨.completed, hclosed.announce _⟩
  · intro fault
    exact ⟨.completed, hmarked⟩

/-- The phases of a run go on with nothing but that run, and it stays the latest one. -/
theorem phasesFrom_abides (total index : Nat) (actions : List PhaseAction) (hw : w.IsRunning n) :
    (phasesFrom brief total index actions w).Abides (IsRunning n) fun v r =>
      v.IsLast n ∧ (r = .ok () → v.IsRunning n) := by
  induction actions generalizing index w with
  | nil => exact .ended ⟨hw.isLast, fun _ => hw⟩
  | cons action rest ih =>
      have hindex : (w.modifyRun fun run => { run with index }).IsRunning n :=
        hw.modifyRun (fun _ => rfl) fun _ hstatus => hstatus
      unfold phasesFrom
      apply Course.abides_andThen (executePhase_keeps hindex)
      intro v s hv
      cases s with
      | error fault =>
          simp only
          split
          -- A fatal fault passes through: the run stays under way, and it is still the latest one.
          · exact .ended ⟨IsRunning.isLast hv, by simp⟩
          · apply (failRun_abides fault hv).mono
            rintro v r ⟨hlast, fault, rfl⟩
            exact ⟨hlast, by simp⟩
      | ok _ =>
          have htold := IsLatest.announce hv (progressEvent action (index + 1) total)
          apply Course.abides_bind (Flow.step_keeps htold)
          · intro v _ hv
            exact ih (index + 1) hv
          · intro v fault hv
            exact ⟨IsRunning.isLast hv, by simp⟩

/-- How a call goes on with the run that it has made. -/
def conduct (o : Orchestrator) (planRef : String) (agent : Value) (run : Run) : Flow Nat := fun w =>
  (Flow.step (World.announce (startedEvent run)) w).bind fun w _ =>
    (phasesFrom (o.briefing planRef agent) o.actions.length 0 o.actions w).bind fun w _ =>
      (completeRun run.start w).bind fun w _ => .ended w (.ok run.number)

/-- A call that is not refused makes a new run, and all that it does afterwards is for that run. -/
theorem run_eq_conduct (o : Orchestrator) (planRef : String) (agent : Value) {start : Stamp}
    (hidle : isBusy w = false) (hstart : w.stamp = .ok start) :
    o.run planRef agent w =
      o.conduct planRef agent (o.newRun planRef agent start w)
        (o.commence planRef agent start w) := by
  rw [run, if_neg (by simp [hidle]), Flow.stamped_of_stamp hstart]
  rfl

theorem conduct_abides (o : Orchestrator) (planRef : String) (agent : Value) (run : Run)
    (hw : w.IsRunning n) :
    (o.conduct planRef agent run w).Abides (IsRunning n) fun v _ => v.IsLast n := by
  unfold conduct
  have htold := IsLatest.announce hw (startedEvent run)
  apply Course.abides_bind (Flow.step_keeps htold)
  · intro v _ hv
    apply Course.abides_bind (phasesFrom_abides _ _ _ hv)
    · intro v _ hv
      apply Course.abides_bind (completeRun_abides run.start (hv.2 rfl))
      · intro v _ hv
        exact .ended hv
      · intro v fault hv
        exact hv
    · intro v fault hv
      exact hv.1
  · intro v fault hv
    exact IsRunning.isLast hv

theorem commence_isRunning (o : Orchestrator) (planRef : String) (agent : Value) (start : Stamp)
    (w : World) : (o.commence planRef agent start w).IsRunning w.runCount := rfl

end Orchestrator

/-! ### Calls that overlap -/

/-- A call that waits: the number of its run, and how it goes on. -/
structure Suspended where
  number : Nat
  course : Course Nat

/-- A world with all calls that wait in it. -/
structure Traffic where
  world : World
  waiting : List Suspended := []
  /-- The runs that are not current any more, as they were left. -/
  former : List Run := []

/-- What can happen next. -/
inductive Move where
  | call (planRef : String) (agent : Value)
  /-- What a call waits for has come. -/
  | resume (index : Nat)
  /-- A call that waits is told to stop. -/
  | stop (index : Nat) (message : String)
  /-- Anything else, by which runs are neither started nor changed. -/
  | elsewhere (change : World → World)
      (keeps : ∀ w, (change w).current = w.current ∧ (change w).runCount = w.runCount)

namespace Traffic

/-- All runs so far, the current one last. -/
def runs (s : Traffic) : List Run := s.former ++ s.world.current.toList

/-- A call has come to where it waits next, or to its end. If it has made a run in the meantime, the
run before that is left. -/
def settle (number : Nat) (course : Course Nat) (s : Traffic) :
    Traffic × Option (Except Fault Nat) :=
  let former := if course.world.runCount = s.world.runCount then s.former else s.runs
  match course with
  | .ended world result => ({ s with world, former }, some result)
  | course =>
    ({ world := course.world, waiting := s.waiting ++ [⟨number, course⟩], former }, none)

/-- A call that waits goes on in the world as it is now. -/
def proceed (index : Nat) (onward : Course Nat → Course Nat) (s : Traffic) :
    Traffic × Option (Except Fault Nat) :=
  match s.waiting[index]? with
  | some call =>
    settle call.number (onward (call.course.inWorld s.world))
      { s with waiting := s.waiting.eraseIdx index }
  | none => (s, none)

/-- One move, and the result of the call that ends with it, if one does. -/
def step (o : Orchestrator) : Move → Traffic → Traffic × Option (Except Fault Nat)
  | .call planRef agent, s => s.settle s.world.runCount (o.run planRef agent s.world)
  | .resume index, s => s.proceed index Course.resume
  | .stop index message, s => s.proceed index (·.cancel message)
  | .elsewhere change _, s => ({ s with world := change s.world }, none)

/-- Moves one after the other, with the results of the calls in the order in which they end. -/
def play (o : Orchestrator) : List Move → Traffic → Traffic × List (Except Fault Nat)
  | [], s => (s, [])
  | move :: later, s =>
    ((play o later (step o move s).1).1,
      (step o move s).2.toList ++ (play o later (step o move s).1).2)

/-- At most one call waits. Its run is under way, and it needs no more than that to go on. No run
that was left is under way, and runs are numbered in their order. -/
structure IsSound (s : Traffic) : Prop where
  alone : s.waiting = [] ∨ ∃ call : Suspended, s.waiting = [call] ∧
    s.world.IsRunning call.number ∧
    call.course.Abides (IsRunning call.number) fun v _ => v.IsLast call.number
  former : ∀ run ∈ s.former, run.status ≠ .running
  ordered : (s.runs.map (·.number)).Pairwise (· < ·)
  numbered : ∀ run ∈ s.runs, run.number < s.world.runCount

variable {o : Orchestrator} {s : Traffic} {n : Nat} {c : Course Nat} {earlier : List Run}

theorem settle_world (n : Nat) (c : Course Nat) (s : Traffic) :
    (s.settle n c).1.world = c.world := by
  cases c <;> rfl

theorem settle_former (n : Nat) (c : Course Nat) (s : Traffic) :
    (s.settle n c).1.former =
      if c.world.runCount = s.world.runCount then s.former else s.runs := by
  cases c <;> rfl

theorem settle_ended {r : Except Fault Nat} (n : Nat) (s : Traffic) :
    s.settle n (.ended s.world r) = (s, some r) := by
  simp [settle, Course.world]

/-- A call that was alone and has come to where it waits next, or to its end, leaves all in
order. -/
theorem settle_isSound (hc : c.Abides (IsRunning n) fun v _ => v.IsLast n)
    (halone : s.waiting = [])
    (hformer : (if c.world.runCount = s.world.runCount then s.former else s.runs) = earlier)
    (hover : ∀ run ∈ earlier, run.status ≠ .running)
    (hordered : (earlier.map (·.number)).Pairwise (· < ·))
    (hbelow : ∀ run ∈ earlier, run.number < n) : (s.settle n c).1.IsSound := by
  obtain ⟨run, hcurrent, hnumber, hcount⟩ :=
    (hc.world (fun _ => IsRunning.isLast) fun _ _ hlast => hlast).current
  have hformer' := (settle_former n c s).trans hformer
  have hruns : (s.settle n c).1.runs = earlier ++ [run] := by
    rw [runs, hformer', settle_world, hcurrent]
    rfl
  constructor
  · cases c with
    | ended w result => exact Or.inl halone
    | waiting w due go stop =>
        refine Or.inr ⟨⟨n, .waiting w due go stop⟩, by simp [settle, halone], ?_, hc⟩
        cases hc with
        | waiting hwait hgo hstop => exact hwait
    | hanging w stop =>
        refine Or.inr ⟨⟨n, .hanging w stop⟩, by simp [settle, halone], ?_, hc⟩
        cases hc with
        | hanging hwait hstop => exact hwait
  · rw [hformer']
    exact hover
  · rw [hruns, List.map_append]
    apply List.pairwise_append.mpr
    refine ⟨hordered, by simp, ?_⟩
    intro m hm k hk
    obtain ⟨other, hother, rfl⟩ := List.mem_map.mp hm
    have hlast : k = n := by simpa [hnumber] using hk
    rw [hlast]
    exact hbelow other hother
  · rw [hruns, settle_world, hcount]
    intro other hother
    rcases List.mem_append.mp hother with hother | hother
    · exact Nat.lt_succ_of_lt (hbelow other hother)
    · rw [List.mem_singleton.mp hother, hnumber]
      exact Nat.lt_succ_self n

theorem IsSound.alone_of_idle (h : s.IsSound) (hidle : Orchestrator.isBusy s.world = false) :
    s.waiting = [] := by
  rcases h.alone with hnone | ⟨call, -, hrunning, -⟩
  · exact hnone
  · rw [IsRunning.isBusy hrunning] at hidle
    cases hidle

theorem not_running_of_idle {w : World} (hidle : Orchestrator.isBusy w = false) :
    ∀ run ∈ w.current.toList, run.status ≠ .running := by
  intro run hrun
  have hcurrent : w.current = some run := by simpa using hrun
  unfold Orchestrator.isBusy at hidle
  rw [hcurrent] at hidle
  simpa using hidle

/-- While a run is under way, a call is refused and leaves everything as it is. -/
theorem step_call_of_busy (hbusy : Orchestrator.isBusy s.world = true) (planRef : String)
    (agent : Value) : step o (.call planRef agent) s = (s, some (.error .runInProgress)) := by
  rw [step, Orchestrator.run, if_pos hbusy]
  exact settle_ended _ s

/-- A call that cannot tell the time fails before it makes a run. -/
theorem step_call_of_dateless (hidle : Orchestrator.isBusy s.world = false) {fault : Fault}
    (hfault : s.world.stamp = .error fault) (planRef : String) (agent : Value) :
    step o (.call planRef agent) s = (s, some (.error fault)) := by
  rw [step, Orchestrator.run, if_neg (by simp [hidle]), Flow.stamped, hfault]
  exact settle_ended _ s

/-- A call that is not refused. -/
theorem step_call_of_idle (h : s.IsSound) (hidle : Orchestrator.isBusy s.world = false)
    {start : Stamp} (hstart : s.world.stamp = .ok start) (planRef : String) (agent : Value) :
    (step o (.call planRef agent) s).1.IsSound ∧
      (step o (.call planRef agent) s).1.former = s.runs ∧
      (step o (.call planRef agent) s).1.world.IsLast s.world.runCount := by
  have hc := o.conduct_abides planRef agent (o.newRun planRef agent start s.world)
    (o.commence_isRunning planRef agent start s.world)
  rw [← o.run_eq_conduct planRef agent hidle hstart] at hc
  have hlast := hc.world (fun _ => IsRunning.isLast) fun _ _ hlast => hlast
  -- The run that the call makes is counted, so the one before it is among those that are left.
  have hcount : (o.run planRef agent s.world).world.runCount ≠ s.world.runCount := by
    obtain ⟨run, -, -, hcount⟩ := hlast.current
    omega
  have hformer : (if (o.run planRef agent s.world).world.runCount = s.world.runCount then s.former
      else s.runs) = s.runs := if_neg hcount
  have halone := h.alone_of_idle hidle
  refine ⟨?_, ?_, ?_⟩
  · apply settle_isSound hc halone hformer _ h.ordered h.numbered
    intro run hrun
    rcases List.mem_append.mp hrun with hrun | hrun
    · exact h.former run hrun
    · exact not_running_of_idle hidle run hrun
  · rw [step, settle_former]
    exact hformer
  · rw [step, settle_world]
    exact hlast

/-- A call that waits goes on with its own run. -/
theorem settle_suspended {call : Suspended} (h : s.IsSound)
    (hrunning : s.world.IsRunning call.number)
    (hc : c.Abides (IsRunning call.number) fun v _ => v.IsLast call.number) :
    (settle call.number c { s with waiting := [] }).1.IsSound := by
  obtain ⟨run, hcurrent, hnumber, hcount⟩ := hrunning.isLast.current
  obtain ⟨other, -, -, hcount'⟩ :=
    (hc.world (fun _ => IsRunning.isLast) fun _ _ hlast => hlast).current
  -- It makes no other run, so that those that were left are the same as before.
  have hordered := h.ordered
  rw [runs, hcurrent, List.map_append] at hordered
  obtain ⟨hformer, -, hbelow⟩ := List.pairwise_append.mp hordered
  apply settle_isSound (s := { s with waiting := [] }) hc rfl
    (if_pos (hcount'.trans hcount.symm)) h.former hformer
  intro former hmem
  apply hbelow former.number (List.mem_map_of_mem hmem)
  simp [hnumber]

theorem proceed_isSound {index : Nat} {onward : Course Nat → Course Nat} (h : s.IsSound)
    (honward : ∀ {n c}, c.Abides (IsRunning n) (fun v _ => v.IsLast n) →
      (onward c).Abides (IsRunning n) fun v _ => v.IsLast n) :
    (s.proceed index onward).1.IsSound := by
  unfold proceed
  rcases h.alone with hnone | ⟨call, hone, hrunning, hc⟩
  · simpa [hnone] using h
  · rw [hone]
    cases index with
    | zero =>
        apply settle_suspended h hrunning
        exact honward (hc.inWorld hrunning fun _ => hrunning.isLast)
    | succ index => simpa using h

theorem step_isSound (o : Orchestrator) (move : Move) (h : s.IsSound) :
    (step o move s).1.IsSound := by
  cases move with
  | call planRef agent =>
      cases hbusy : Orchestrator.isBusy s.world with
      | true =>
          rw [step_call_of_busy hbusy]
          exact h
      | false =>
          cases hstart : s.world.stamp with
          | ok start => exact (step_call_of_idle h hbusy hstart planRef agent).1
          | error fault =>
              rw [step_call_of_dateless hbusy hstart]
              exact h
  | resume index =>
      apply proceed_isSound h
      intro n c hc
      exact hc.resume fun _ _ hw => hw
  | stop index message =>
      apply proceed_isSound h
      intro n c hc
      exact hc.cancel message
  | elsewhere change keeps =>
      obtain ⟨hcurrent, hcount⟩ := keeps s.world
      have hruns : (step o (.elsewhere change keeps) s).1.runs = s.runs := by
        simp [runs, step, hcurrent]
      constructor
      · rcases h.alone with hnone | ⟨call, hone, hrunning, hc⟩
        · exact Or.inl hnone
        · refine Or.inr ⟨call, hone, ?_, hc⟩
          have hstage : (change s.world).stage = s.world.stage := by
            simp [World.stage, hcurrent, hcount]
          exact hstage.trans hrunning
      · exact h.former
      · rw [hruns]
        exact h.ordered
      · rw [hruns]
        intro run hrun
        exact Nat.lt_of_lt_of_eq (h.numbered run hrun) hcount.symm

/-- Whatever moves are made, all stays in order. -/
theorem play_isSound (o : Orchestrator) (moves : List Move) (h : s.IsSound) :
    (play o moves s).1.IsSound := by
  induction moves generalizing s with
  | nil => exact h
  | cons move later ih => exact ih (step_isSound o move h)

/-- Before the first call. -/
def initial (w : World) : Traffic := { world := { w with current := none } }

theorem initial_isSound (w : World) : (initial w).IsSound where
  alone := Or.inl rfl
  former := by simp [initial]
  ordered := by simp [initial, runs]
  numbered := by simp [initial, runs]

/-! ### Runs that are left -/

theorem former_prefix_settle (n : Nat) (c : Course Nat) (s : Traffic) :
    s.former <+: (s.settle n c).1.former := by
  rw [settle_former]
  split
  · exact List.prefix_refl _
  · exact List.prefix_append _ _

theorem former_prefix_step (o : Orchestrator) (move : Move) (s : Traffic) :
    s.former <+: (step o move s).1.former := by
  have hproceed (index : Nat) (onward : Course Nat → Course Nat) :
      s.former <+: (s.proceed index onward).1.former := by
    unfold proceed
    split
    · exact former_prefix_settle _ _ { s with waiting := s.waiting.eraseIdx index }
    · exact List.prefix_refl _
  cases move with
  | call planRef agent => exact former_prefix_settle _ _ s
  | resume index => exact hproceed index _
  | stop index message => exact hproceed index _
  | elsewhere change keeps => exact List.prefix_refl _

/-- A run that is left is not changed any more. -/
theorem former_prefix_play (o : Orchestrator) (moves : List Move) (s : Traffic) :
    s.former <+: (play o moves s).1.former := by
  induction moves generalizing s with
  | nil => exact List.prefix_refl _
  | cons move later ih => exact (former_prefix_step o move s).trans (ih _)

/-! ### One run at a time -/

/-- A call starts afresh: what it does depends on no run before it. -/
structure StartsAfresh (o : Orchestrator) (planRef : String) (agent : Value) (start : Stamp)
    (s : Traffic) : Prop where
  /-- It makes one run, the current one from then on, with a number that no run has had. -/
  own : ∃ run, (step o (.call planRef agent) s).1.world.current = some run ∧
    run.number = s.world.runCount ∧ ∀ earlier ∈ s.runs, earlier.number ≠ run.number
  /-- Whatever run was current before, the call goes on in the same way. -/
  independent : ∀ other : Option Run,
    Orchestrator.isBusy { s.world with current := other } = false →
    o.run planRef agent { s.world with current := other } = o.run planRef agent s.world
  /-- All it does is for a run with no artifacts, none of whose phases has begun. -/
  begins : o.run planRef agent s.world =
      o.conduct planRef agent (o.newRun planRef agent start s.world)
        (o.commence planRef agent start s.world) ∧
    (o.newRun planRef agent start s.world).artifacts = [] ∧
    ∀ phase ∈ (o.newRun planRef agent start s.world).phases,
      phase.status = .pending ∧ phase.start = none ∧ phase.finish = none ∧ phase.error = none
  /-- The runs before it stay as they are, whatever happens later. -/
  earlier : ∀ later, s.runs <+: (play o (.call planRef agent :: later) s).1.former

/-- One run at a time. -/
structure IsExclusive (o : Orchestrator) (s : Traffic) : Prop where
  /-- No run that was left is under way; a move that goes on changes none but the current one. -/
  left : ∀ run ∈ s.former, run.status ≠ .running
  /-- Of all runs so far, at most one is under way. -/
  one : (s.runs.filter (·.status == .running)).length ≤ 1
  /-- A call is refused if and only if one is. -/
  busy : Orchestrator.isBusy s.world = true ↔ ∃ run ∈ s.runs, run.status = .running
  /-- At most one call waits, and the current run is its own. -/
  alone : s.waiting.length ≤ 1 ∧ ∀ call ∈ s.waiting, ∃ run,
    s.world.current = some run ∧ run.number = call.number ∧ run.status = .running
  /-- A call that is refused changes nothing, now or later. -/
  refused : Orchestrator.isBusy s.world = true → ∀ planRef agent,
    step o (.call planRef agent) s = (s, some (.error .runInProgress)) ∧
    ∀ later, play o (.call planRef agent :: later) s =
      ((play o later s).1, .error .runInProgress :: (play o later s).2)
  /-- Any other call starts afresh. -/
  fresh : Orchestrator.isBusy s.world = false → ∀ planRef agent start,
    s.world.stamp = .ok start → StartsAfresh o planRef agent start s

theorem IsSound.one (h : s.IsSound) : (s.runs.filter (·.status == .running)).length ≤ 1 := by
  have hformer : s.former.filter (·.status == .running) = [] := by
    apply List.filter_eq_nil_iff.mpr
    intro run hrun
    simpa using h.former run hrun
  rw [runs, List.filter_append, hformer, List.nil_append]
  apply Nat.le_trans (List.length_filter_le _ _)
  cases s.world.current <;> simp

theorem IsSound.busy (h : s.IsSound) :
    Orchestrator.isBusy s.world = true ↔ ∃ run ∈ s.runs, run.status = .running := by
  constructor
  · intro hbusy
    unfold Orchestrator.isBusy at hbusy
    cases hcurrent : s.world.current with
    | none => simp [hcurrent] at hbusy
    | some run => exact ⟨run, by simp [runs, hcurrent], by simpa [hcurrent] using hbusy⟩
  · rintro ⟨run, hrun, hrunning⟩
    rcases List.mem_append.mp hrun with hformer | hcurrent
    · exact absurd hrunning (h.former run hformer)
    · apply Bool.of_not_eq_false
      intro hidle
      exact not_running_of_idle hidle run hcurrent hrunning

theorem IsSound.startsAfresh (h : s.IsSound) (hidle : Orchestrator.isBusy s.world = false)
    (planRef : String) (agent : Value) {start : Stamp} (hstart : s.world.stamp = .ok start) :
    StartsAfresh o planRef agent start s := by
  obtain ⟨-, hformer, hlast⟩ := step_call_of_idle (o := o) h hidle hstart planRef agent
  constructor
  · obtain ⟨run, hcurrent, hnumber, -⟩ := hlast.current
    refine ⟨run, hcurrent, hnumber, ?_⟩
    intro earlier hearlier
    rw [hnumber]
    exact Nat.ne_of_lt (h.numbered earlier hearlier)
  · intro other hother
    rw [o.run_eq_conduct planRef agent hidle hstart]
    exact o.run_eq_conduct planRef agent hother hstart
  · refine ⟨o.run_eq_conduct planRef agent hidle hstart, rfl, ?_⟩
    intro phase hphase
    obtain ⟨action, -, rfl⟩ := List.mem_map.mp hphase
    exact ⟨rfl, rfl, rfl, rfl⟩
  · intro later
    rw [← hformer]
    exact former_prefix_play o later _

/-- Calls of one orchestrator may come at any moment, and the one that waits may go on or be told to
stop at any moment: only one run at a time is ever under way, a call that comes too early is refused
without a trace, and any other call starts afresh. -/
theorem play_isExclusive (o : Orchestrator) (w : World) (moves : List Move) :
    IsExclusive o (play o moves (initial w)).1 := by
  have h := play_isSound o moves (initial_isSound w)
  constructor
  · exact h.former
  · exact h.one
  · exact h.busy
  · rcases h.alone with hnone | ⟨call, hone, hrunning, -⟩
    · simp [hnone]
    · obtain ⟨run, hcurrent, hnumber, hstatus, -⟩ := IsLatest.current hrunning
      simp [hone, hcurrent, hnumber, hstatus]
  · intro hbusy planRef agent
    have hstep := step_call_of_busy (o := o) hbusy planRef agent
    refine ⟨hstep, ?_⟩
    intro later
    simp [play, hstep]
  · intro hidle planRef agent start hstart
    exact h.startsAfresh hidle planRef agent hstart

/-- An orchestrator whose only phase takes a second. -/
def napping : Orchestrator where
  client := {}
  workspace := .ofString "/workspace"
  actions := [⟨"nap", "Nap", "", fun _ => .sleep (some Time.second) .done⟩]

/-- The phase takes its second. -/
def asleep : Traffic := (play napping [.call "plan.md" (.text "agent")] (initial {})).1

/-- The second is over. -/
def awake : Traffic := (play napping [.call "plan.md" (.text "agent"), .resume 0] (initial {})).1

theorem play_isExclusive_of_napping :
    asleep.waiting.length = 1 ∧
      step napping (.call "other.md" (.text "agent")) asleep =
        (asleep, some (.error .runInProgress)) ∧
      awake.runs.map (·.status) = [.completed] ∧
      StartsAfresh napping "other.md" (.text "agent") ⟨1000000⟩ awake := by
  have hbusy : Orchestrator.isBusy asleep.world = true := by decide +kernel
  have hidle : Orchestrator.isBusy awake.world = false := by decide +kernel
  have hnow : Time.micros awake.world.now = 1000000 ∧ awake.world.epoch = ⟨0⟩ := by
    decide +kernel
  have hstart : awake.world.stamp = .ok ⟨1000000⟩ := by
    rw [World.stamp, hnow.1, hnow.2]
    rfl
  have hasleep : IsExclusive napping asleep := play_isExclusive napping {} _
  have hawake : IsExclusive napping awake := play_isExclusive napping {} _
  refine ⟨by decide +kernel, ?_, by decide +kernel, ?_⟩
  · exact (hasleep.refused hbusy "other.md" (.text "agent")).1
  · exact hawake.fresh hidle "other.md" (.text "agent") ⟨1000000⟩ hstart

end Traffic

end Conductor
