import Conductor.Proofs.Orchestrator.Settled
import Conductor.Proofs.Orchestrator.Stages
import Conductor.Proofs.Orchestrator.Trace
import Conductor.Proofs.Run

/-!
Whether a failed run tells which of its phases has failed. It is always at the phase with which it
has failed, with completed phases before that one and untouched ones after it. But that phase bears
its failure only if its activity has failed. If somebody fails on hearing that it has started, it is
left running, and if somebody fails on hearing that it is completed, it stays completed.
-/

namespace Conductor

open World

/-- A failed run names its failure if the phase it is at has failed, with an error and the moment of
its end, and if no other phase is running or has been touched after it. -/
structure Run.NamesFailure (run : Run) : Prop where
  stopped : ∀ phase ∈ run.phases, phase.status ≠ .running
  current : ∃ phase, run.currentPhase? = some phase ∧ phase.status = .failed ∧
    phase.error.isSome ∧ phase.finish.isSome
  later : ∀ phase ∈ run.phases.drop (run.index + 1), phase.status = .pending

namespace Orchestrator

/-- What is left of a phase that has ended with a fault in the world `w`: it has failed, with an
error and the moment of its end, unless somebody has failed on hearing of its start or of its
end. -/
structure IsLeft (fault : Fault) (w : World) (phase : Phase) : Prop where
  started : w.FailedOn .phaseStarted fault ↔ phase.status = .running
  completed : w.FailedOn .phaseCompleted fault ↔ phase.status = .completed
  touched : phase.status ≠ .pending
  error : phase.error.isSome ↔ phase.status = .failed
  finish : phase.finish.isSome ↔ phase.status ≠ .running

/-- A call from the world `w` has ended with a failed run, because in the world `v` the phase of
`action` had ended with a fault. The phases before it are completed, and those after it have not
been touched. -/
structure Ruins (brief : Brief) (actions : List PhaseAction) (action : PhaseAction) (fault : Fault)
    (w v w' : World) (run : Run) : Prop where
  phase : ∃ u, Elapses w u ∧ (executePhase brief action u).Ends v (.error fault)
  ended : ∃ r, (failRun action fault v).Ends w' r
  action : actions[run.index]? = some action
  earlier : ∀ phase ∈ run.phases.take run.index, phase.status = .completed
  current : ∃ phase, run.currentPhase? = some phase ∧ IsLeft fault v phase
  later : ∀ phase ∈ run.phases.drop (run.index + 1), phase.status = .pending

variable {brief : Brief} {action : PhaseAction} {w w' : World} {r : Except Fault Unit} {run : Run}
  {done rest : List Phase}

/-- A phase that returns is completed, and one that does not is left in one of three ways. -/
theorem PhaseEnds.isLeft (h : PhaseEnds action w w' r)
    (hstands : w.Stands (run.atPhase done rest action.phase)) :
    ∃ phase, w'.Stands (run.atPhase done rest phase) ∧
      (r = .ok () → phase.status = .completed) ∧
      ∀ fault, r = .error fault → fault.isFatal = false → IsLeft fault w' phase := by
  have hopened (start : Stamp) :
      (opened action start w).1.Stands (run.atPhase done rest (action.phase.begun start)) :=
    (hstands.modifyPhase _).publish _
  cases h with
  | @unheard start fault hstart hsome =>
      refine ⟨_, hopened start, by simp, ?_⟩
      rintro fault ⟨⟩ -
      obtain ⟨notice, hnotice⟩ :=
        Event.notice_of_severity (phaseStartedEvent action start) rfl
      constructor
      · exact iff_of_true (failedOn_of_publish hnotice hsome) rfl
      · apply iff_of_false
        · exact not_failedOn_of_publish hnotice (by simp [phaseStartedEvent]) fault
        · simp [Phase.begun]
      · simp [Phase.begun]
      · simp [Phase.begun, PhaseAction.phase]
      · simp [Phase.begun, PhaseAction.phase]
  | @returned start finish v hstart hnone hsteps hfinish =>
      have hv := (hopened start).of_record (Steps.onward hsteps).record
      refine ⟨_, (hv.modifyPhase (·.completed finish)).publish _, fun _ => rfl, ?_⟩
      intro fault hfault _
      obtain ⟨notice, hnotice⟩ :=
        Event.notice_of_severity (phaseCompletedEvent action start finish) rfl
      have hsome : (toldCompleted action start finish v).2 = some fault := by
        cases htold : (toldCompleted action start finish v).2 with
        | none =>
            rw [htold] at hfault
            cases hfault
        | some other =>
            rw [htold] at hfault
            cases hfault
            rfl
      constructor
      · apply iff_of_false
        · exact not_failedOn_of_publish hnotice (by simp [phaseCompletedEvent]) fault
        · simp [Phase.completed]
      · exact iff_of_true (failedOn_of_publish hnotice hsome) rfl
      · simp [Phase.completed]
      · simp [Phase.completed, Phase.begun, PhaseAction.phase]
      · simp [Phase.completed]
  | @failed start finish v fault hstart hnone hsteps hfinish =>
      have hv := (hopened start).of_record (Steps.onward hsteps).record
      refine ⟨_, (hv.modifyPhase (·.broken fault.summary finish)).publish _, by simp, ?_⟩
      intro other _ _
      obtain ⟨notice, hnotice⟩ :=
        Event.notice_of_severity (phaseFailedEvent action fault.summary finish) rfl
      constructor
      · apply iff_of_false
        · exact not_failedOn_of_publish hnotice (by simp [phaseFailedEvent]) other
        · simp [Phase.broken]
      · apply iff_of_false
        · exact not_failedOn_of_publish hnotice (by simp [phaseFailedEvent]) other
        · simp [Phase.broken]
      · simp [Phase.broken]
      · simp [Phase.broken]
      · simp [Phase.broken]
  | @fatal start v fault hstart hnone hsteps hfatal =>
      refine ⟨_, (hopened start).of_record (Steps.onward hsteps).record, by simp, ?_⟩
      rintro other ⟨⟩ hplain
      rw [hfatal] at hplain
      cases hplain

theorem Ruins.after {actions : List PhaseAction} {fault : Fault} {u v : World}
    (h : Ruins brief actions action fault u v w' run) (helapses : Elapses w u) :
    Ruins brief actions action fault w v w' run := by
  obtain ⟨first, hfirst, hphase⟩ := h.phase
  exact ⟨⟨first, helapses.trans hfirst, hphase⟩, h.ended, h.action, h.earlier, h.current, h.later⟩

/-- A run that fails with its phase. -/
theorem IsLeft.ruins {ran later : List PhaseAction} {fault : Fault} {u v : World} {phase : Phase}
    {now : Stamp} (hleft : IsLeft fault v phase) (hlength : ran.length = done.length)
    (hdone : ∀ phase ∈ done, phase.status = .completed) (helapses : Elapses w u)
    (hphase : (executePhase brief action u).Ends v (.error fault))
    (hstands : v.Stands (run.atPhase done (later.map (·.phase)) phase)) (hnow : v.stamp = .ok now)
    (hfail : (failRun action fault v).Ends w' r) :
    ∃ run', w'.Stands run' ∧
      Ruins brief (ran ++ action :: later) action fault w v w' run' := by
  refine ⟨(run.atPhase done (later.map (·.phase)) phase).closed .failed now, ?_,
    ⟨u, helapses, hphase⟩, ⟨r, hfail⟩, ?_, ?_,
    ⟨phase, Run.currentPhase?_atPhase done _ run phase, hleft⟩, ?_⟩
  · obtain ⟨rfl, -⟩ := failRun_ends hnow hfail
    exact (hstands.modifyRun (f := (·.closed .failed now)) fun _ => rfl).publish _
  · have hindex : ((run.atPhase done (later.map (·.phase)) phase).closed .failed now).index =
        ran.length := hlength.symm
    rw [hindex]
    simp
  · intro other hother
    have htake : (done ++ phase :: later.map (·.phase)).take done.length = done := List.take_left
    exact hdone other (htake ▸ hother)
  · intro other hother
    have hdrop := Run.drop_atPhase done (later.map (·.phase)) run phase
    obtain ⟨action, -, rfl⟩ := List.mem_map.mp (hdrop ▸ hother)
    rfl

/-- Phases that make the run fail do so with one of them. -/
theorem phasesFrom_ruins (run : Run) (done : List Phase) (ran : List PhaseAction) {total : Nat}
    {actions : List PhaseAction} (hdated : Dated w w')
    (hends : (phasesFrom brief total done.length actions w).Ends w' r)
    (hstands : w.Stands { run with phases := done ++ actions.map (·.phase) })
    (hlength : ran.length = done.length) (hdone : ∀ phase ∈ done, phase.status = .completed)
    (hrunning : run.status = .running)
    (hfailed : ∀ present, w'.Stands present → present.status = .failed) :
    ∃ action fault v run', w'.Stands run' ∧
      Ruins brief (ran ++ actions) action fault w v w' run' := by
  induction actions generalizing w run done ran with
  | nil =>
      obtain ⟨rfl, rfl⟩ := Course.ends_ended.mp hends
      have hstatus := hfailed _ hstands
      rw [hrunning] at hstatus
      cases hstatus
  | cons action rest ih =>
      obtain ⟨v, s, hphase, hproceeds⟩ := phasesFrom_cons.mp hends
      have hindex := (atIndex_books done.length w).elapses
      have hdated' := hdated.mono hindex hproceeds.elapses
      have hcurrent : (atIndex done.length w).Stands
          (run.atPhase done (rest.map (·.phase)) action.phase) :=
        hstands.modifyRun (f := fun run => { run with index := done.length }) fun _ => rfl
      obtain ⟨phase, hv, hreturned, hleft⟩ := (executePhase_ends hdated' hphase).isLeft hcurrent
      obtain ⟨stints, hchain, -⟩ := executePhase_chain hphase
      have helapses := hindex.trans hchain.elapses
      obtain ⟨now, hnow⟩ := (hdated.mono helapses (.refl w')).stamp hproceeds.elapses
      have hannounced : (v.announce (progressEvent action (done.length + 1) total)).1.Stands
          (run.atPhase done (rest.map (·.phase)) phase) := by
        rw [announce_of_stamp hnow]
        exact hv.publish _
      cases hproceeds with
      | returned hnone hgo =>
          have hbooks := announce_books (progressEvent action (done.length + 1) total) v
          have hnext := helapses.trans hbooks.elapses
          have hdone' : ∀ other ∈ done ++ [phase], other.status = .completed := by
            intro other hother
            rcases List.mem_append.mp hother with hother | hother
            · exact hdone other hother
            · rw [List.mem_singleton.mp hother]
              exact hreturned rfl
          obtain ⟨action', fault, v', run', hrun', hruins⟩ := ih
            (run.atPhase done (rest.map (·.phase)) phase) (done ++ [phase]) (ran ++ [action])
            (hdated.mono hnext (.refl w')) (by simpa using hgo)
            (by simpa [Run.atPhase] using hannounced) (by simp [hlength]) hdone' hrunning
          rw [List.append_assoc] at hruins
          exact ⟨action', fault, v', run', hrun', hruins.after hnext⟩
      | untold hsome =>
          -- Nobody marks the run failed here, nor after a fatal fault.
          have hstatus := hfailed _ hannounced
          rw [Run.atPhase, hrunning] at hstatus
          cases hstatus
      | @failed _ _ fault hplain hfail =>
          obtain ⟨run', hrun', hruins⟩ :=
            (hleft fault rfl hplain).ruins hlength hdone hindex hphase hv hnow hfail
          exact ⟨action, fault, v, run', hrun', hruins⟩
      | fatal hfatal =>
          have hstatus := hfailed _ hv
          rw [Run.atPhase, hrunning] at hstatus
          cases hstatus

/-! ### Whole runs -/

/-- The run names its failure exactly if nobody has failed on hearing of the start or of the end of
its phase. -/
theorem Ruins.namesFailure_iff {actions : List PhaseAction} {fault : Fault} {v : World}
    (h : Ruins brief actions action fault w v w' run) :
    run.NamesFailure ↔ ¬(v.FailedOn .phaseStarted fault ∨ v.FailedOn .phaseCompleted fault) := by
  obtain ⟨phase, hphase, hleft⟩ := h.current
  rw [hleft.started, hleft.completed]
  constructor
  · intro hnames
    obtain ⟨other, hother, hfailed, -⟩ := hnames.current
    rw [hphase] at hother
    cases hother
    simp [hfailed]
  · intro hneither
    have hfailed : phase.status = .failed := by
      have htouched := hleft.touched
      cases hstatus : phase.status with
      | pending => exact absurd hstatus htouched
      | running => exact absurd (Or.inl hstatus) hneither
      | completed => exact absurd (Or.inr hstatus) hneither
      | failed => rfl
    refine ⟨?_, ⟨phase, hphase, hfailed, hleft.error.mpr hfailed, ?_⟩, h.later⟩
    · intro other hother
      obtain ⟨hlt, hget⟩ := List.getElem?_eq_some_iff.mp hphase
      rw [← List.take_append_drop run.index run.phases, List.drop_eq_getElem_cons hlt, hget]
        at hother
      rcases List.mem_append.mp hother with hother | hother
      · simp [h.earlier other hother]
      · rcases List.mem_cons.mp hother with rfl | hother
        · simp [hfailed]
        · simp [h.later other hother]
    · rw [hleft.finish, hfailed]
      simp

theorem Ruins.of_record {actions : List PhaseAction} {fault : Fault} {v : World}
    (h : Ruins brief actions action fault w v w' run.record) :
    Ruins brief actions action fault w v w' run :=
  ⟨h.phase, h.ended, h.action, h.earlier, h.current, h.later⟩

/-- A call that leaves a failed run has failed with the phase at which the run is. The run names
that failure exactly if the fault is not that of somebody who failed on hearing that the phase had
started or that it was completed. -/
theorem run_namesFailure_iff {o : Orchestrator} {planRef : String} {agent : Value}
    {result : Except Fault Nat} (hidle : isBusy w = false)
    (hends : (o.run planRef agent w).Ends w' result) (hdated : Dated w w')
    (hrun : w'.current = some run) (hfailed : run.status = .failed) :
    ∃ action fault v,
      Ruins (o.briefing planRef agent) o.actions action fault w v w' run ∧
      (run.NamesFailure ↔
        ¬(v.FailedOn .phaseStarted fault ∨ v.FailedOn .phaseCompleted fault)) := by
  obtain ⟨stints, hall, -⟩ := run_chain hidle hends
  obtain ⟨start, hstart⟩ := hdated.stamp hall.elapses
  have hlaunched := (launched_books o planRef agent start w).elapses
  have hstands : (o.launched planRef agent start w).1.Stands (o.newRun planRef agent start w) :=
    Stands.publish (w := o.commence planRef agent start w) rfl _
  have hrecord : ∀ present, w'.Stands present → present = run.record := by
    intro present hpresent
    unfold Stands at hpresent
    rw [hrun] at hpresent
    exact (Option.some.inj hpresent).symm
  have hfailed' : ∀ present, w'.Stands present → present.status = .failed := by
    intro present hpresent
    rw [hrecord present hpresent]
    exact hfailed
  rcases run_cases hidle hends with ⟨start', hstart', hcases⟩ | ⟨other, hother, -, -⟩
  · rw [hstart] at hstart'
    cases hstart'
    rcases hcases with ⟨fault, -, rfl, -⟩ | ⟨-, v, s, hphases, hrest⟩
    · cases hfailed' _ hstands
    rcases hrest with ⟨fault, rfl, rfl, -⟩ | ⟨rfl, s', hcomplete, -⟩
    · obtain ⟨action, fault, v, run', hrun', hruins⟩ :=
        phasesFrom_ruins (o.newRun planRef agent start w) [] []
          (hdated.mono hlaunched (.refl w')) hphases hstands rfl (by simp) rfl hfailed'
      rw [hrecord run' hrun'] at hruins
      have hruins := (hruins.after hlaunched).of_record
      exact ⟨action, fault, v, hruins, hruins.namesFailure_iff⟩
    · have hstatus := completeRun_status hcomplete
      rw [progress?, hrun, Option.map_some, Option.map_some, hfailed] at hstatus
      cases hprogress : v.progress? with
      | none =>
          rw [hprogress] at hstatus
          cases hstatus
      | some progress =>
          rw [hprogress] at hstatus
          cases hstatus
  · rw [hstart] at hother
    cases hother

/-- A world with somebody who fails on hearing that a phase has started. -/
def startled : World where
  bus := { subscribers := [⟨"startled", fun _ event =>
    if event.kind = .phaseStarted then some (.foreign ⟨"ValueError", "boom", false⟩) else none⟩] }

theorem run_namesFailure_iff_of_startled :
    ∃ w' run, (onePhase.run "plan.md" (.text "agent") startled).Ends w'
        (.error (.foreign ⟨"ValueError", "boom", false⟩)) ∧
      w'.current = some run ∧ run.status = .failed ∧
      (∃ phase, run.currentPhase? = some phase ∧ phase.status = .running ∧ phase.error = none) ∧
      ¬run.NamesFailure := by
  have hends := Course.ends_of_finish (c := onePhase.run "plan.md" (.text "agent") startled)
    (r := .error (.foreign ⟨"ValueError", "boom", false⟩)) (by decide +kernel)
  have hdated : Dated startled (onePhase.run "plan.md" (.text "agent") startled).finish.1 :=
    dated_of_now rfl (by decide +kernel)
  have hstatus : (onePhase.run "plan.md" (.text "agent") startled).finish.1.current.map
      (fun run => (run.status, run.currentPhase?.map fun phase => (phase.status, phase.error))) =
        some (.failed, some (.running, none)) := by decide +kernel
  obtain ⟨run, hrun, hmarks⟩ := Option.map_eq_some_iff.mp hstatus
  obtain ⟨hfailed, hphase⟩ := Prod.mk.inj hmarks
  obtain ⟨phase, hcurrent, hrunning⟩ := Option.map_eq_some_iff.mp hphase
  obtain ⟨hrunning, hnone⟩ := Prod.mk.inj hrunning
  obtain ⟨action, fault, v, hruins, hiff⟩ := run_namesFailure_iff rfl hends hdated hrun hfailed
  refine ⟨_, run, hends, hrun, hfailed, ⟨phase, hcurrent, hrunning, hnone⟩, ?_⟩
  obtain ⟨other, hother, hleft⟩ := hruins.current
  rw [hcurrent] at hother
  cases hother
  rw [hiff, not_not]
  exact Or.inl (hleft.started.mpr hrunning)

end Orchestrator

end Conductor
