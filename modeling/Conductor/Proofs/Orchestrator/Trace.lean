import Conductor.Proofs.Orchestrator.Stint
import Mathlib.Control.Monad.Basic

/-!
What a run leaves behind when no subscriber fails: the record of the run, the fault that is passed
on, and the events that every subscriber has heard, in order. All three are determined by the stints
of the run, and these are those of its phases in their order, up to the first that does not return.
-/

namespace Conductor

open World Orchestrator

/-! ### Faults of phases -/

namespace Fault

/-- A fault that a phase may fail with: one from outside the library must not be fatal, and it has a
name. -/
def IsOrdinary : Fault → Prop
  | foreign fault => fault.fatal = false ∧ fault.name ≠ ""
  | _ => True

theorem IsOrdinary.not_fatal {fault : Fault} (h : fault.IsOrdinary) : fault.isFatal = false := by
  cases fault with
  | foreign fault => exact h.1
  | _ => rfl

theorem IsOrdinary.name_ne_empty {fault : Fault} (h : fault.IsOrdinary) : fault.name ≠ "" := by
  cases fault with
  | foreign fault => exact h.2
  | reply problem => cases problem <;> simp [name]
  | file problem => cases problem <;> simp [name, FileProblem.name]
  | login problem => cases problem <;> simp [name, LoginProblem.name]
  | tooLarge problem => cases problem <;> simp [name, TooLarge.name]
  | _ => simp [name]

/-- What a failed phase says of its fault is never empty. -/
theorem IsOrdinary.summary_ne_empty {fault : Fault} (h : fault.IsOrdinary) :
    fault.summary ≠ "" := by
  unfold summary
  split
  · exact h.name_ne_empty
  · next hmessage => exact fun hempty => hmessage (by rw [hempty]; rfl)

end Fault

/-! ### The record of a run -/

namespace World

/-- The record of the current run, but for the artifacts. -/
def Stands (w : World) (run : Run) : Prop := w.current.map Run.record = some run

variable {w : World} {run : Run} {done rest : List Phase} {phase : Phase}

theorem Stands.modifyRun (h : w.Stands run) {f : Run → Run}
    (hf : ∀ run, (f run).record = f run.record) : (w.modifyRun f).Stands (f run) := by
  obtain ⟨present, hpresent, rfl⟩ := Option.map_eq_some_iff.mp h
  unfold Stands World.modifyRun
  rw [hpresent]
  exact congrArg some (hf present)

theorem Stands.of_record {v : World} (h : w.Stands run)
    (hrecord : v.current.map Run.record = w.current.map Run.record) : v.Stands run :=
  hrecord.trans h

theorem Stands.publish (h : w.Stands run) (event : Event) : (w.publish event).1.Stands run :=
  h.of_record (publish_onlyJournal event w).onward.record

theorem Stands.modifyPhase
    (h : w.Stands { run with phases := done ++ phase :: rest, index := done.length })
    (f : Phase → Phase) :
    (w.modifyPhase f).Stands
      { run with phases := done ++ f phase :: rest, index := done.length } := by
  have hat : (done ++ phase :: rest).modify done.length f = done ++ f phase :: rest := by
    rw [List.modify_eq_take_cons_drop (by simp)]
    simp
  rw [← hat]
  exact h.modifyRun (f := (·.modifyCurrent f)) fun _ => rfl

theorem Stands.currentError (h : w.Stands run) (hphases : run.phases = done ++ phase :: rest)
    (hindex : run.index = done.length) : currentError w = phase.error := by
  obtain ⟨present, hpresent, hrecord⟩ := Option.map_eq_some_iff.mp h
  have hphases' : present.phases = done ++ phase :: rest := by
    rw [← hphases, ← hrecord]
    rfl
  have hindex' : present.index = done.length := by
    rw [← hindex, ← hrecord]
    rfl
  simp [Orchestrator.currentError, hpresent, Run.currentPhase?, hphases', hindex']

theorem publish_heard (hquiet : w.Quiet) (event : Event) {severity : Severity}
    (hlevel : event.level.severity? = some severity) :
    (w.publish event).2 = none ∧
      (w.publish event).1.journal.heard = w.journal.heard ++ w.told event := by
  obtain ⟨notice, hnotice⟩ := Event.notice_of_severity event hlevel
  exact publish_of_quiet hnotice hquiet

end World

/-! ### Accounts of stints -/

/-- A stint with its moments and with the events that were published in it. -/
structure Account extends Stint where
  start : Stamp
  finish : Stamp
  events : List Event

namespace Account

/-- An account is true if the stint was performed between these moments, and if all that was heard
meanwhile are these events. They are of the kinds that activities publish. -/
structure IsTrue (brief : Brief) (account : Account) : Prop where
  performed : account.IsPerformed brief
  start : account.before.stamp = .ok account.start
  finish : account.after.stamp = .ok account.finish
  heard : account.after.journal.heard =
    account.before.journal.heard ++ account.events.flatMap account.before.told
  work : ∀ event ∈ account.events, event.kind.IsWork

/-- The record of the phase when its activity has returned. -/
def completedPhase (account : Account) : Phase :=
  { account.action.phase with
    status := .completed, start := some account.start, finish := some account.finish }

/-- The record of the phase when its activity has failed. -/
def failedPhase (fault : Fault) (account : Account) : Phase :=
  { account.action.phase with
    status := .failed, start := some account.start, finish := some account.finish
    error := some fault.summary }

def phase (account : Account) : Phase :=
  match account.result with
  | .ok () => account.completedPhase
  | .error fault => account.failedPhase fault

/-- The event that tells how the phase ended. -/
def closing (account : Account) : Event :=
  match account.result with
  | .ok () => phaseCompletedEvent account.action account.start account.finish
  | .error fault => phaseFailedEvent account.action fault.summary account.finish

/-- What is heard of the phase. -/
def phaseEvents (account : Account) : List Event :=
  phaseStartedEvent account.action account.start :: account.events ++ [account.closing]

/-- What is heard of phases that return, of which the first is number `index` of `total`. -/
def blocks (total : Nat) : Nat → List Account → List Event
  | _, [] => []
  | index, account :: rest =>
    phaseStartedEvent account.action account.start :: account.events ++
      [phaseCompletedEvent account.action account.start account.finish,
        progressEvent account.action (index + 1) total account.finish] ++
      blocks total (index + 1) rest

/-- What is heard of one phase that returns. -/
def block (total index : Nat) (account : Account) : List Event :=
  phaseStartedEvent account.action account.start :: account.events ++
    [phaseCompletedEvent account.action account.start account.finish,
      progressEvent account.action (index + 1) total account.finish]

theorem blocks_cons (total index : Nat) (account : Account) (rest : List Account) :
    blocks total index (account :: rest) =
      account.block total index ++ blocks total (index + 1) rest := rfl

/-- What is heard of the phase that fails, and of the run that fails with it. -/
def failure (fault : Fault) (account : Account) : List Event :=
  phaseStartedEvent account.action account.start :: account.events ++
    [phaseFailedEvent account.action fault.summary account.finish,
      failedEvent account.action (some fault.summary) fault account.finish]

/-- The phase of the account is all that happens from the world `w` to the world `v`. -/
structure Leads (brief : Brief) (account : Account) (w v : World) : Prop where
  isTrue : account.IsTrue brief
  before : Books w account.before
  after : Books account.after v
  heard : v.journal.heard = w.journal.heard ++ account.phaseEvents.flatMap w.told

variable {brief : Brief} {account : Account} {w v : World}

theorem Leads.elapses (h : account.Leads brief w v) : Elapses w v :=
  (h.before.elapses.trans h.isTrue.performed.elapses).trans h.after.elapses

theorem Leads.stamp (h : account.Leads brief w v) : v.stamp = .ok account.finish :=
  h.after.stamp.trans h.isTrue.finish

theorem Leads.of_atIndex {index : Nat} (h : account.Leads brief (atIndex index w) v) :
    account.Leads brief w v := by
  have hbooks := atIndex_books index w
  refine ⟨h.isTrue, hbooks.trans h.before, h.after, ?_⟩
  rw [h.heard, told_of_bus hbooks.elapses.bus]
  rfl

/-- A phase that has returned counts as progress, and all are told. -/
theorem Leads.progress (h : account.Leads brief w v) (hquiet : w.Quiet)
    (hresult : account.result = .ok ()) (total index : Nat) :
    (v.announce (progressEvent account.action (index + 1) total)).2 = none ∧
      (v.announce (progressEvent account.action (index + 1) total)).1.journal.heard =
        w.journal.heard ++ (account.block total index).flatMap w.told := by
  rw [announce_of_stamp h.stamp]
  obtain ⟨hnone, hheard⟩ := publish_heard (hquiet.of_bus h.elapses.bus)
    (progressEvent account.action (index + 1) total account.finish) rfl
  refine ⟨hnone, ?_⟩
  rw [hheard, h.heard, told_of_bus h.elapses.bus]
  simp [phaseEvents, closing, block, hresult]

end Account

namespace Orchestrator

variable {brief : Brief} {action : PhaseAction} {w w' : World} {r : Except Fault Unit} {run : Run}
  {done : List Phase}

/-- A phase whose activity has ended says so, and its fault stays the same. -/
theorem Concludes.account {rest : List Phase} (account : Account) (hquiet : account.after.Quiet)
    (hfinish : account.after.stamp = .ok account.finish)
    (h : Concludes account.action account.start account.after account.result w' r)
    (hplain : ∀ fault, r = .error fault → fault.isFatal = false)
    (hstands : account.after.Stands
      { run with
        phases := done ++ account.action.phase.begun account.start :: rest
        index := done.length }) :
    account.result = r ∧
      w'.journal.heard = account.after.journal.heard ++ account.after.told account.closing ∧
      w'.Stands { run with phases := done ++ account.phase :: rest, index := done.length } := by
  obtain ⟨⟨action, before, v, s⟩, start, finish, events⟩ := account
  simp only at *
  cases h with
  | returned hends =>
      rcases completePhase_cases hends with ⟨stamp, hstamp, rfl, rfl⟩ | ⟨other, hother, -, -⟩
      · rw [hfinish] at hstamp
        cases hstamp
        have hbooks : Books v (v.modifyPhase (·.completed finish)) := modifyPhase_books _ v
        obtain ⟨hnone, hheard⟩ := publish_heard (hquiet.of_bus hbooks.elapses.bus)
          (phaseCompletedEvent action start finish) rfl
        rw [hnone, hheard, told_of_bus hbooks.elapses.bus]
        exact ⟨rfl, rfl, (hstands.modifyPhase _).publish _⟩
      · rw [hfinish] at hother
        cases hother
  | @failed _ _ fault hordinary hends =>
      rcases failPhase_cases hends with ⟨stamp, hstamp, rfl, rfl⟩ | ⟨other, hother, -, -⟩
      · rw [hfinish] at hstamp
        cases hstamp
        have hbooks : Books v (broken fault finish v) := modifyPhase_books _ v
        obtain ⟨hnone, hheard⟩ := publish_heard (hquiet.of_bus hbooks.elapses.bus)
          (phaseFailedEvent action fault.summary finish) rfl
        rw [hnone, hheard, told_of_bus hbooks.elapses.bus]
        exact ⟨rfl, rfl, (hstands.modifyPhase _).publish _⟩
      · rw [hfinish] at hother
        cases hother
  | fatal hfatal =>
      rw [hplain _ rfl] at hfatal
      cases hfatal

theorem executePhase_account {rest : List Phase} (hquiet : w.Quiet) (hdated : Dated w w')
    (hends : (executePhase brief action w).Ends w' r)
    (hplain : ∀ fault, r = .error fault → fault.isFatal = false)
    (hstands : w.Stands
      { run with phases := done ++ action.phase :: rest, index := done.length }) :
    ∃ account : Account, account.action = action ∧ account.result = r ∧
      account.Leads brief w w' ∧
      w'.Stands { run with phases := done ++ account.phase :: rest, index := done.length } := by
  obtain ⟨stints, hchain, -⟩ := executePhase_chain hends
  obtain ⟨start, hstart⟩ := hdated.stamp hchain.elapses
  have hbegun : Books w (w.modifyPhase (·.begun start)) := modifyPhase_books _ w
  obtain ⟨hnone, hheard⟩ : (opened action start w).2 = none ∧
      (opened action start w).1.journal.heard =
        w.journal.heard ++ w.told (phaseStartedEvent action start) := by
    have hpublish := publish_heard (hquiet.of_bus hbegun.elapses.bus)
      (phaseStartedEvent action start) rfl
    rw [told_of_bus hbegun.elapses.bus] at hpublish
    exact hpublish
  rcases executePhase_cases hends with ⟨start', hstart', hcases⟩ | ⟨other, hother, -, -⟩
  · rw [hstart] at hstart'
    cases hstart'
    rcases hcases with ⟨fault, hsome, -, -⟩ | ⟨-, v, s, hperform, hconcludes⟩
    · rw [hnone] at hsome
      cases hsome
    have hbefore := opened_books action start w
    have hsteps := Activity.perform_steps hperform
    have honward := Steps.onward hsteps
    have hafter := hconcludes.books.1
    have hbus := honward.bus.trans hbefore.elapses.bus
    obtain ⟨finish, hfinish⟩ :=
      (hdated.mono (hbefore.elapses.trans honward.toElapses) (.refl w')).stamp hafter.elapses
    obtain ⟨events, hwork, hevents⟩ := Steps.heard hsteps (hquiet.of_bus hbefore.elapses.bus)
    let account : Account := ⟨⟨action, (opened action start w).1, v, s⟩, start, finish, events⟩
    have hrecord : v.Stands
        { run with phases := done ++ action.phase.begun start :: rest, index := done.length } :=
      ((hstands.modifyPhase _).publish _).of_record honward.record
    obtain ⟨hresult, hclosing, hstands'⟩ :=
      Concludes.account account (hquiet.of_bus hbus) hfinish hconcludes hplain hrecord
    have htrue : account.IsTrue brief :=
      ⟨hperform, hbefore.stamp.trans hstart, hfinish, hevents, hwork⟩
    refine ⟨account, rfl, hresult, ⟨htrue, hbefore, hafter, ?_⟩, hstands'⟩
    rw [hclosing, told_of_bus hbus]
    change v.journal.heard ++ _ = _
    rw [hevents, hheard, told_of_bus hbefore.elapses.bus]
    simp [Account.phaseEvents, account]
  · rw [hstart] at hother
    cases hother

theorem Proceeds.not_fatal {total index : Nat} {rest : List PhaseAction} {v : World}
    {s : Except Fault Unit} (h : Proceeds brief total index action rest v s w' r)
    (hplain : ∀ fault, r = .error fault → fault.isFatal = false) :
    ∀ fault, s = .error fault → fault.isFatal = false := by
  intro fault hfault
  cases h with
  | returned hnone hends => cases hfault
  | untold hsome => cases hfault
  | failed hordinary hends =>
      cases hfault
      exact hordinary
  | fatal hfatal => exact hplain fault hfault

/-- A run that fails with its current phase says so, and its fault stays the same. -/
theorem failRun_quiet {rest : List Phase} {phase : Phase} {fault : Fault} {finish : Stamp}
    (hquiet : w.Quiet) (hstamp : w.stamp = .ok finish)
    (hends : (failRun action fault w).Ends w' r)
    (hstands : w.Stands { run with phases := done ++ phase :: rest, index := done.length }) :
    r = .error fault ∧
      w'.journal.heard = w.journal.heard ++ w.told (failedEvent action phase.error fault finish) ∧
      w'.Stands
        { run with
          phases := done ++ phase :: rest, index := done.length, status := .failed
          finish := some finish } := by
  rcases failRun_cases hends with ⟨stamp, hstamp', rfl, rfl⟩ | ⟨other, hother, -, -⟩
  · rw [hstamp] at hstamp'
    cases hstamp'
    have hbooks := modifyRun_books (·.closed .failed finish) w
    have hclosed : (w.modifyRun (·.closed .failed finish)).Stands
        { run with
          phases := done ++ phase :: rest, index := done.length, status := .failed
          finish := some finish } :=
      hstands.modifyRun (f := (·.closed .failed finish)) fun _ => rfl
    have herror : currentError (w.modifyRun (·.closed .failed finish)) = phase.error :=
      hclosed.currentError rfl rfl
    obtain ⟨hnone, hheard⟩ := publish_heard (hquiet.of_bus hbooks.elapses.bus)
      (failedEvent action phase.error fault finish) rfl
    rw [herror, hnone, hheard, told_of_bus hbooks.elapses.bus]
    exact ⟨rfl, rfl, hclosed.publish _⟩
  · rw [hstamp] at hother
    cases hother

theorem completeRun_quiet {start finish : Stamp} (hquiet : w.Quiet) (hstamp : w.stamp = .ok finish)
    (hends : (completeRun start w).Ends w' r) (hstands : w.Stands run) :
    r = .ok () ∧
      w'.journal.heard = w.journal.heard ++ w.told (completedEvent start finish) ∧
      w'.Stands { run with status := .completed, finish := some finish } := by
  rcases completeRun_cases hends with ⟨stamp, hstamp', rfl, rfl⟩ | ⟨other, hother, -, -⟩
  · rw [hstamp] at hstamp'
    cases hstamp'
    have hbooks := modifyRun_books (·.closed .completed finish) w
    have hclosed : (w.modifyRun (·.closed .completed finish)).Stands
        { run with status := .completed, finish := some finish } :=
      hstands.modifyRun (f := (·.closed .completed finish)) fun _ => rfl
    obtain ⟨hnone, hheard⟩ := publish_heard (hquiet.of_bus hbooks.elapses.bus)
      (completedEvent start finish) rfl
    rw [hnone, hheard, told_of_bus hbooks.elapses.bus]
    exact ⟨rfl, rfl, hclosed.publish _⟩
  · rw [hstamp] at hother
    cases hother

/-- All phases return. -/
structure Returns (total : Nat) (run : Run) (done : List Phase) (actions : List PhaseAction)
    (accounts : List Account) (w w' : World) (r : Except Fault Unit) : Prop where
  result : r = .ok ()
  order : accounts.map (·.action) = actions
  returned : ∀ account ∈ accounts, account.result = .ok ()
  record : w'.Stands
    { run with
      phases := done ++ accounts.map Account.completedPhase
      index := if actions.isEmpty then run.index else done.length + actions.length - 1 }
  heard : w'.journal.heard =
    w.journal.heard ++ (Account.blocks total done.length accounts).flatMap w.told

/-- The phases of `ran` return, the one of `last` fails, and `later` is left. -/
structure Breaks (brief : Brief) (total : Nat) (run : Run) (done : List Phase) (ran : List Account)
    (last : Account) (later : List PhaseAction) (fault : Fault) (w w' : World)
    (r : Except Fault Unit) : Prop where
  result : r = .error fault
  returned : ∀ account ∈ ran, account.result = .ok ()
  failed : last.result = .error fault
  record : w'.Stands
    { run with
      phases := done ++ (ran.map Account.completedPhase ++
        last.failedPhase fault :: later.map PhaseAction.phase)
      index := done.length + ran.length
      status := .failed
      finish := some last.finish }
  heard : w'.journal.heard =
    w.journal.heard ++ (Account.blocks total done.length ran ++ last.failure fault).flatMap w.told
  /-- It does not matter what is left. -/
  unread : ∀ others, (phasesFrom brief total done.length
    (ran.map (·.action) ++ last.action :: others) w).Ends w' r

theorem Returns.cons {actions : List PhaseAction} {accounts : List Account} {account : Account}
    {total : Nat} {v : World} (hresult : account.result = .ok ()) (hbus : v.bus = w.bus)
    (hheard : v.journal.heard =
      w.journal.heard ++ (account.block total done.length).flatMap w.told)
    (h : Returns total { run with index := done.length } (done ++ [account.completedPhase]) actions
      accounts v w' r) :
    Returns total run done (account.action :: actions) (account :: accounts) w w' r := by
  refine ⟨h.result, by simp [h.order], ?_, ?_, ?_⟩
  · intro other hother
    rcases List.mem_cons.mp hother with rfl | hmem
    · exact hresult
    · exact h.returned other hmem
  · have hlast : (if actions.isEmpty then done.length
        else (done ++ [account.completedPhase]).length + actions.length - 1) =
        done.length + (actions.length + 1) - 1 := by
      cases actions with
      | nil => simp
      | cons next more =>
          simp
          omega
    have hrecord := h.record
    rw [hlast] at hrecord
    simpa using hrecord
  · rw [h.heard, hheard, told_of_bus hbus, Account.blocks_cons]
    simp

theorem Breaks.cons {ran : List Account} {last account : Account} {later : List PhaseAction}
    {fault : Fault} {total : Nat} {v : World} (hresult : account.result = .ok ())
    (hbus : v.bus = w.bus)
    (hheard : v.journal.heard =
      w.journal.heard ++ (account.block total done.length).flatMap w.told)
    (hgo : ∀ rest, (phasesFrom brief total (done.length + 1) rest v).Ends w' r →
      (phasesFrom brief total done.length (account.action :: rest) w).Ends w' r)
    (h : Breaks brief total { run with index := done.length } (done ++ [account.completedPhase]) ran
      last later fault v w' r) :
    Breaks brief total run done (account :: ran) last later fault w w' r := by
  refine ⟨h.result, ?_, h.failed, ?_, ?_, ?_⟩
  · intro other hother
    rcases List.mem_cons.mp hother with rfl | hmem
    · exact hresult
    · exact h.returned other hmem
  · have hrecord := h.record
    rw [List.length_append, List.length_singleton, Nat.add_assoc, Nat.add_comm 1] at hrecord
    simpa using hrecord
  · rw [h.heard, hheard, told_of_bus hbus, Account.blocks_cons]
    simp
  · intro others
    have hothers := h.unread others
    rw [List.length_append, List.length_singleton] at hothers
    exact hgo _ hothers

theorem Breaks.of_failed {account : Account} {fault : Fault} {total : Nat} {v : World}
    {later : List PhaseAction} (hquiet : w.Quiet) (hleads : account.Leads brief w v)
    (hresult : account.result = .error fault)
    (hrecord : v.Stands
      { run with
        phases := done ++ account.phase :: later.map (·.phase), index := done.length })
    (hfail : (failRun account.action fault v).Ends w' r)
    (hgo : ∀ rest, (phasesFrom brief total done.length (account.action :: rest) w).Ends w' r) :
    Breaks brief total run done [] account later fault w w' r := by
  have hphase : account.phase = account.failedPhase fault := by simp [Account.phase, hresult]
  rw [hphase] at hrecord
  obtain ⟨hr, hlast, hrecord⟩ :=
    failRun_quiet (hquiet.of_bus hleads.elapses.bus) hleads.stamp hfail hrecord
  refine ⟨hr, by simp, hresult, hrecord, ?_, hgo⟩
  rw [hlast, hleads.heard, told_of_bus hleads.elapses.bus]
  simp [Account.blocks, Account.failure, Account.phaseEvents, Account.closing, hresult,
    Account.failedPhase]

/-- With quiet subscribers the phases return one after the other, up to the first that fails. -/
theorem phasesFrom_accounts {actions : List PhaseAction} {total : Nat} (hquiet : w.Quiet)
    (hdated : Dated w w') (hends : (phasesFrom brief total done.length actions w).Ends w' r)
    (hplain : ∀ fault, r = .error fault → fault.isFatal = false)
    (hstands : w.Stands { run with phases := done ++ actions.map (·.phase) }) :
    ∃ accounts : List Account, (∀ account ∈ accounts, account.IsTrue brief) ∧
      Stint.Chain brief w (accounts.map (·.toStint)) w' ∧
      (Returns total run done actions accounts w w' r ∨
        ∃ ran last later fault, accounts = ran ++ [last] ∧
          actions = ran.map (·.action) ++ last.action :: later ∧
          Breaks brief total run done ran last later fault w w' r) := by
  induction actions generalizing w run done with
  | nil =>
      obtain ⟨rfl, rfl⟩ := Course.ends_ended.mp hends
      refine ⟨[], by simp, Books.refl _, Or.inl ⟨rfl, rfl, by simp, hstands, ?_⟩⟩
      simp [Account.blocks]
  | cons action rest ih =>
      obtain ⟨v, s, hphase, hproceeds⟩ := phasesFrom_cons.mp hends
      have hindex := atIndex_books done.length w
      have hcurrent : (atIndex done.length w).Stands
          { run with
            phases := done ++ action.phase :: rest.map (·.phase), index := done.length } :=
        hstands.modifyRun (f := fun run => { run with index := done.length }) fun _ => rfl
      obtain ⟨account, rfl, rfl, hleads, hrecord⟩ :=
        executePhase_account (hquiet.of_bus hindex.elapses.bus)
          (hdated.mono hindex.elapses hproceeds.elapses) hphase (hproceeds.not_fatal hplain)
          hcurrent
      have hleads := hleads.of_atIndex
      generalize hresult : account.result = s at hphase hproceeds
      cases hproceeds with
      | fatal hfatal =>
          rw [hplain _ rfl] at hfatal
          cases hfatal
      | @failed _ _ fault hordinary hfail =>
          have hgo (others : List PhaseAction) :
              (phasesFrom brief total done.length (account.action :: others) w).Ends w' r :=
            phasesFrom_cons.mpr ⟨v, _, hphase, .failed hordinary hfail⟩
          refine ⟨[account], by simpa using hleads.isTrue, ?_,
            Or.inr ⟨[], account, rest, fault, rfl, rfl, ?_⟩⟩
          · exact ⟨hleads.before, hleads.isTrue.performed,
              hleads.after.trans (failRun_books hfail).1⟩
          · exact .of_failed hquiet hleads hresult hrecord hfail hgo
      | untold hsome =>
          rw [(hleads.progress hquiet hresult total done.length).1] at hsome
          cases hsome
      | returned hnone hgo =>
          obtain ⟨-, hheard⟩ := hleads.progress hquiet hresult total done.length
          have hbooks := announce_books (progressEvent account.action (done.length + 1) total) v
          have hnext := hleads.elapses.trans hbooks.elapses
          have hphase' : account.phase = account.completedPhase := by
            simp [Account.phase, hresult]
          have hstands' :
              (v.announce (progressEvent account.action (done.length + 1) total)).1.Stands
                { run with
                  phases := (done ++ [account.completedPhase]) ++ rest.map (·.phase)
                  index := done.length } := by
            rw [announce_of_stamp hleads.stamp, List.append_assoc, List.singleton_append, ← hphase']
            exact hrecord.publish _
          have hends' : (phasesFrom brief total (done ++ [account.completedPhase]).length rest
              (v.announce (progressEvent account.action (done.length + 1) total)).1).Ends w' r := by
            rw [List.length_append, List.length_singleton]
            exact hgo
          obtain ⟨accounts, htrues, hchain, hcases⟩ :=
            @ih _ { run with index := done.length } _ (hquiet.of_bus hnext.bus)
              (hdated.mono hnext (.refl w')) hends' hstands'
          refine ⟨account :: accounts, ?_, ?_, ?_⟩
          · intro other hother
            rcases List.mem_cons.mp hother with rfl | hmem
            · exact hleads.isTrue
            · exact htrues other hmem
          · exact ⟨hleads.before, hleads.isTrue.performed,
              hchain.after_books (hleads.after.trans hbooks)⟩
          rcases hcases with hreturns | ⟨ran, last, later, fault, rfl, rfl, hbreaks⟩
          · exact Or.inl (hreturns.cons hresult hnext.bus hheard)
          · refine Or.inr ⟨account :: ran, last, later, fault, rfl, rfl, ?_⟩
            apply hbreaks.cons hresult hnext.bus hheard
            intro others hothers
            exact phasesFrom_cons.mpr ⟨v, .ok (), hphase, .returned hnone hothers⟩

/-! ### Whole runs -/

section Run

variable {o : Orchestrator} {planRef : String} {agent : Value} {start finish : Stamp}
  {accounts : List Account} {result : Except Fault Nat}

/-- All phases of a run have returned, in their order, and the run is completed. -/
structure Completed (o : Orchestrator) (planRef : String) (agent : Value) (start finish : Stamp)
    (accounts : List Account) (w w' : World) (result : Except Fault Nat) : Prop where
  result : result = .ok w.runCount
  order : accounts.map (·.action) = o.actions
  returned : ∀ account ∈ accounts, account.result = .ok ()
  record : w'.Stands
    { o.newRun planRef agent start w with
      phases := accounts.map Account.completedPhase
      index := o.actions.length - 1
      status := .completed
      finish := some finish }
  heard : w'.journal.heard = w.journal.heard ++
    (startedEvent (o.newRun planRef agent start w) start ::
      Account.blocks o.actions.length 0 accounts ++ [completedEvent start finish]).flatMap w.told

/-- The phases of `ran` have returned, in their order, the one of `last` has failed, and the run
has failed with it; what the phases of `later` would have done does not matter. -/
structure Failed (o : Orchestrator) (planRef : String) (agent : Value) (start finish : Stamp)
    (ran : List Account) (last : Account) (later : List PhaseAction) (fault : Fault) (w w' : World)
    (result : Except Fault Nat) : Prop where
  result : result = .error fault
  order : o.actions = ran.map (·.action) ++ last.action :: later
  returned : ∀ account ∈ ran, account.result = .ok ()
  failed : last.result = .error fault
  error : fault.summary ≠ ""
  record : w'.Stands
    { o.newRun planRef agent start w with
      phases := ran.map Account.completedPhase ++
        last.failedPhase fault :: later.map PhaseAction.phase
      index := ran.length
      status := .failed
      finish := some finish }
  heard : w'.journal.heard = w.journal.heard ++
    (startedEvent (o.newRun planRef agent start w) start ::
      Account.blocks o.actions.length 0 ran ++ last.failure fault).flatMap w.told
  unread : ∀ others : List PhaseAction, others.map (·.phase) = later.map (·.phase) →
    (Orchestrator.run
      { o with
        actions := ran.map (fun account : Account => account.action) ++ last.action :: others }
      planRef agent w).Ends w' (.error fault)

theorem newRun_congr {actions : List PhaseAction}
    (hphases : actions.map (·.phase) = o.actions.map (·.phase)) :
    newRun { o with actions } planRef agent start w = o.newRun planRef agent start w := by
  simp [newRun, hphases]

theorem launched_congr {actions : List PhaseAction}
    (hphases : actions.map (·.phase) = o.actions.map (·.phase)) :
    launched { o with actions } planRef agent start w = o.launched planRef agent start w := by
  simp only [launched, commence, newRun_congr hphases]

theorem run_of_phases {fault : Fault} (hidle : isBusy w = false) (hstamp : w.stamp = .ok start)
    (hnone : (o.launched planRef agent start w).2 = none)
    (hphases : (phasesFrom (o.briefing planRef agent) o.actions.length 0 o.actions
      (o.launched planRef agent start w).1).Ends w' (.error fault)) :
    (o.run planRef agent w).Ends w' (.error fault) := by
  have hlaunched : (o.commence planRef agent start w).announce
      (startedEvent (o.newRun planRef agent start w)) = o.launched planRef agent start w :=
    announce_of_stamp ((commence_books o planRef agent start w).stamp.trans hstamp) _
  rw [run, if_neg (by simp [hidle]), Flow.stamped_of_stamp hstamp]
  rw [← hlaunched] at hnone hphases
  refine Flow.ends_step_bind.mpr (Or.inl ⟨hnone, ?_⟩)
  exact Course.ends_bind.mpr (Or.inr ⟨fault, hphases, rfl⟩)

theorem launched_quiet (o : Orchestrator) (planRef : String) (agent : Value) (start : Stamp)
    (hquiet : w.Quiet) :
    (o.launched planRef agent start w).2 = none ∧
      (o.launched planRef agent start w).1.journal.heard = w.journal.heard ++
        w.told (startedEvent (o.newRun planRef agent start w) start) ∧
      (o.launched planRef agent start w).1.Stands (o.newRun planRef agent start w) := by
  have hbooks := commence_books o planRef agent start w
  obtain ⟨hnone, hheard⟩ := publish_heard (hquiet.of_bus hbooks.elapses.bus)
    (startedEvent (o.newRun planRef agent start w) start) rfl
  have hlog : (o.commence planRef agent start w).journal.heard = w.journal.heard := by
    simp [commence, World.log, World.enter, Journal.heard, Journal.seen_cons, Entry.delivery?]
  rw [hlog, told_of_bus hbooks.elapses.bus] at hheard
  have hstands : (o.commence planRef agent start w).Stands (o.newRun planRef agent start w) := rfl
  exact ⟨hnone, hheard, hstands.publish _⟩

theorem Returns.completed {v : World} {s : Except Fault Unit} (hquiet : w.Quiet)
    (hv : Elapses w v) (hfinish : v.stamp = .ok finish)
    (hcomplete : (completeRun start v).Ends w' s)
    (h : Returns o.actions.length (o.newRun planRef agent start w) [] o.actions accounts
      (o.launched planRef agent start w).1 v (.ok ())) :
    Completed o planRef agent start finish accounts w w' (s.map fun _ => w.runCount) := by
  obtain ⟨-, hheard, -⟩ := launched_quiet o planRef agent start hquiet
  obtain ⟨rfl, hcompleted, hrecord⟩ :=
    completeRun_quiet (hquiet.of_bus hv.bus) hfinish hcomplete h.record
  refine ⟨rfl, h.order, h.returned, ?_, ?_⟩
  · have hindex : (if o.actions.isEmpty then (o.newRun planRef agent start w).index
        else ([] : List Phase).length + o.actions.length - 1) = o.actions.length - 1 := by
      cases o.actions <;> simp [newRun]
    rw [hindex] at hrecord
    exact hrecord
  · rw [hcompleted, h.heard, hheard,
      told_of_bus (launched_books o planRef agent start w).elapses.bus, told_of_bus hv.bus]
    simp

/-- A run that breaks with a phase has failed, and would have with other phases after that one. -/
theorem Breaks.failed_run {ran : List Account} {last : Account} {later : List PhaseAction}
    {fault : Fault} (hidle : isBusy w = false) (hquiet : w.Quiet) (hstart : w.stamp = .ok start)
    (hordinary : fault.IsOrdinary) (horder : o.actions = ran.map (·.action) ++ last.action :: later)
    (h : Breaks (o.briefing planRef agent) o.actions.length (o.newRun planRef agent start w) [] ran
      last later fault (o.launched planRef agent start w).1 w' (.error fault)) :
    Failed o planRef agent start last.finish ran last later fault w w' (.error fault) := by
  obtain ⟨hnone, hheard, -⟩ := launched_quiet o planRef agent start hquiet
  refine ⟨rfl, horder, h.returned, h.failed, hordinary.summary_ne_empty, ?_, ?_, ?_⟩
  · have hrecord := h.record
    simpa using hrecord
  · rw [h.heard, hheard, told_of_bus (launched_books o planRef agent start w).elapses.bus]
    simp
  · intro others hothers
    have hphases : (ran.map (fun account : Account => account.action) ++
        last.action :: others).map (·.phase) = o.actions.map (·.phase) := by
      rw [horder]
      simp [hothers]
    have hlength := congrArg List.length hphases
    rw [List.length_map, List.length_map] at hlength
    have hends := h.unread others
    rw [← hlength] at hends
    apply run_of_phases hidle hstart
    · rw [launched_congr hphases]
      exact hnone
    · rw [launched_congr hphases]
      exact hends

/-- With subscribers that do not fail, and as long as the calendar lasts, a run performs its phases
in their order up to the first that does not return. Either all return and it is completed, or it
has failed with that phase and with the same fault. -/
theorem run_trace (hidle : isBusy w = false) (hquiet : w.Quiet)
    (hends : (o.run planRef agent w).Ends w' result) (hdated : Dated w w')
    (hordinary : ∀ fault, result = .error fault → fault.IsOrdinary) :
    ∃ start finish accounts, w.stamp = .ok start ∧ w'.stamp = .ok finish ∧
      (∀ account ∈ accounts, account.IsTrue (o.briefing planRef agent)) ∧
      Stint.Chain (o.briefing planRef agent) w (accounts.map (·.toStint)) w' ∧
      (Completed o planRef agent start finish accounts w w' result ∨
        ∃ ran last later fault, accounts = ran ++ [last] ∧
          Failed o planRef agent start finish ran last later fault w w' result) := by
  obtain ⟨stints, hall, -⟩ := run_chain hidle hends
  obtain ⟨start, hstart⟩ := hdated.stamp hall.elapses
  obtain ⟨hnone, -, hstands⟩ := launched_quiet o planRef agent start hquiet
  have hlaunched := launched_books o planRef agent start w
  rcases run_cases hidle hends with ⟨start', hstart', hcases⟩ | ⟨other, hother, -, -⟩
  · rw [hstart] at hstart'
    cases hstart'
    rcases hcases with ⟨fault, hsome, -, -⟩ | ⟨-, v, s, hphases, hrest⟩
    · rw [hnone] at hsome
      cases hsome
    have hlast : Elapses v w' := by
      rcases hrest with ⟨fault, -, rfl, -⟩ | ⟨-, s', hcomplete, -⟩
      · exact .refl w'
      · exact (completeRun_books hcomplete).elapses
    have hplain : ∀ fault, s = .error fault → fault.isFatal = false := by
      rintro fault rfl
      rcases hrest with ⟨fault', hfault, -, hresult⟩ | ⟨hok, -⟩
      · cases hfault
        exact (hordinary fault hresult).not_fatal
      · cases hok
    obtain ⟨accounts, htrue, hchain, hcases⟩ :=
      @phasesFrom_accounts _ _ _ _ (o.newRun planRef agent start w) [] _ _
        (hquiet.of_bus hlaunched.elapses.bus) (hdated.mono hlaunched.elapses hlast) hphases hplain
        hstands
    have hv := hlaunched.elapses.trans hchain.elapses
    have hwhole := hchain.after_books hlaunched
    rcases hcases with hreturns | ⟨ran, last, later, fault, rfl, horder, hbreaks⟩
    · obtain rfl := hreturns.result
      rcases hrest with ⟨fault, hfault, -, -⟩ | ⟨-, s', hcomplete, rfl⟩
      · cases hfault
      have hbooks := completeRun_books hcomplete
      obtain ⟨finish, hfinish⟩ := (hdated.mono (hv.trans hlast) (.refl w')).stamp (.refl w')
      exact ⟨start, finish, accounts, hstart, hfinish, htrue, hwhole.then_books hbooks,
        Or.inl (hreturns.completed hquiet hv (hbooks.stamp.symm.trans hfinish) hcomplete)⟩
    · obtain rfl := hbreaks.result
      rcases hrest with ⟨fault', hfault, rfl, rfl⟩ | ⟨hok, -⟩
      · cases hfault
        have hfinish : w'.stamp = .ok last.finish := by
          rw [List.map_append] at hchain
          exact hchain.last_books.stamp.trans (htrue last (by simp)).finish
        exact ⟨start, last.finish, ran ++ [last], hstart, hfinish, htrue, hwhole,
          Or.inr ⟨ran, last, later, fault, rfl,
            hbreaks.failed_run hidle hquiet hstart (hordinary fault rfl) horder⟩⟩
      · cases hok
  · rw [hstart] at hother
    cases hother

/-- Three phases of which the second fails, without a message. -/
def threePhases : Orchestrator where
  client := {}
  workspace := .ofString "/workspace"
  actions :=
    [⟨"first", "First", "", fun _ => .log "Working..." .info .done⟩,
      ⟨"second", "Second", "", fun _ => .fail (.foreign ⟨"ValueError", "", false⟩)⟩,
      ⟨"third", "Third", "", fun _ => .done⟩]

/-- A world with somebody who listens. -/
def attended : World where
  bus := { subscribers := [⟨"listener", fun _ _ => none⟩], issued := [] }

theorem run_trace_of_threePhases :
    ∃ w', (threePhases.run "plan.md" (.text "agent") attended).Ends w'
        (.error (.foreign ⟨"ValueError", "", false⟩)) ∧
      ∃ start finish ran last later,
        Failed threePhases "plan.md" (.text "agent") start finish ran last later
          (.foreign ⟨"ValueError", "", false⟩) attended w'
          (.error (.foreign ⟨"ValueError", "", false⟩)) := by
  have hends := Course.ends_of_finish (c := threePhases.run "plan.md" (.text "agent") attended)
    (r := .error (.foreign ⟨"ValueError", "", false⟩)) (by decide +kernel)
  have hquiet : attended.Quiet := by simp [World.Quiet, attended]
  have hdated : Dated attended (threePhases.run "plan.md" (.text "agent") attended).finish.1 :=
    dated_of_now rfl (by decide +kernel)
  obtain ⟨start, finish, accounts, -, -, -, -,
      hcompleted | ⟨ran, last, later, fault, -, hfailed⟩⟩ :=
    run_trace rfl hquiet hends hdated fun fault hfault => by
      cases hfault
      exact ⟨rfl, by decide⟩
  · exact absurd hcompleted.result (by simp)
  · obtain rfl : Fault.foreign ⟨"ValueError", "", false⟩ = fault := by
      simpa using hfailed.result
    exact ⟨_, hends, start, finish, ran, last, later, hfailed⟩

end Run

end Orchestrator

end Conductor
