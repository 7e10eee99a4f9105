import Conductor.Proofs.Session.Login
import Conductor.Proofs.Launch.Lifetime

/-!
What a login leaves behind. While the agent's own login is waited for there are up to two tasks: the
one that runs it, and one that watches for the event that calls it off. `attend` keeps both in sight
until each of them is over, and forgetting them gives back the wait that is run. So whichever of the
two, the deadline or the caller ends the wait, both tasks are over afterwards, and the program of a
login that is over is gone.
-/

namespace Conductor

open World

namespace Course

variable {α β γ : Type}

theorem andThen_assoc (c : Course α) (first : World → Except Fault α → Course β)
    (second : World → Except Fault β → Course γ) :
    (c.andThen first).andThen second = c.andThen fun w r => (first w r).andThen second := by
  induction c with
  | ended w r => rfl
  | waiting w due go stop ihgo ihstop => simp only [andThen, ihgo, ihstop]
  | hanging w stop ihstop => simp only [andThen, ihstop]

theorem andThen_ended (c : Course α) : c.andThen .ended = c := by
  induction c with
  | ended w r => rfl
  | waiting w due go stop ihgo ihstop => simp only [andThen, ihgo, ihstop]
  | hanging w stop ihstop => simp only [andThen, ihstop]

/-- The moment a course waits for. -/
def due? : Course α → Option Time
  | waiting _ due _ _ => some due
  | _ => none

end Course

namespace Session

/-! ### The tasks of a login -/

/-- The event that may call a login off, if there is one, and the moment it is set, if it ever
is. -/
abbrev CancelEvent := Option (Option Time)

/-- Waits until the event is set. -/
def watching : Option Time → Flow Unit
  | some t => Flow.sleepUntil t
  | none => fun w => .hanging w fun w message => .ended w (.error (.cancelled message))

/-- The task that runs the login, and the one that watches for the event if there is one. -/
structure Tasks where
  login : Course Outcome
  watch : Option (Course Unit)

/-- No task is pending. -/
def Tasks.areOver (tasks : Tasks) : Bool :=
  tasks.login.isEnded && tasks.watch.all (·.isEnded)

/-- Sees to it that a task is over: one that still waits is told to stop and followed to its
end. -/
def stopTask {α β : Type} (task : Course α) (next : Course α → Flow β) : Flow β := fun w =>
  ((task.inWorld w).cancel "").andThen fun w r => next (.ended w r) w

/-- The watching task has its turn for all that is due, and is then stopped. -/
def stopWatch {β : Type} (next : Option (Course Unit) → Flow β) : Option (Course Unit) → Flow β
  | none => next none
  | some watch => fun w =>
    stopTask ((watch.inWorld w).upTo w.now) (fun watch => next (some watch)) w

/-- The wait ended by itself: the watching task is stopped, and then the login. -/
def wrapUp (waited : Waited) (watch : Option (Course Unit)) (login : Course Outcome) :
    Flow (Except Fault Waited × Tasks) :=
  stopWatch (fun watch => stopTask login fun login w => .ended w (.ok (.ok waited, ⟨login, watch⟩)))
    watch

/-- The caller was told to stop: the login is stopped, and then the watching task. -/
def giveUp (message : String) (watch : Option (Course Unit)) (login : Course Outcome) :
    Flow (Except Fault Waited × Tasks) :=
  stopTask login fun login =>
    stopWatch (fun watch w => .ended w (.ok (.error (.cancelled message), ⟨login, watch⟩))) watch

/-- Waits for the tasks until one of them is over or the deadline has come. -/
def attend (deadline : Option Time) (watch : Option (Course Unit)) :
    Course Outcome → Course (Except Fault Waited × Tasks)
  | .ended w result => wrapUp (.over result) watch (.ended w result) w
  | .waiting w due go stop =>
    let abort := fun w message => giveUp message watch (.waiting w due go stop) w
    match earlier deadline (watch.bind Course.due?) with
    | some t =>
      if due < t then .waiting w due (fun w => attend deadline watch (go w)) abort
      else .waiting w t (fun w => wrapUp .cutOff watch (.waiting w due go stop) w) abort
    | none => .waiting w due (fun w => attend deadline watch (go w)) abort
  | .hanging w stop =>
    let abort := fun w message => giveUp message watch (.hanging w stop) w
    match earlier deadline (watch.bind Course.due?) with
    | some t => .waiting w t (fun w => wrapUp .cutOff watch (.hanging w stop) w) abort
    | none => .hanging w abort

/-- A result without the tasks that led to it. -/
def forget {α β : Type} (w : World) (r : Except Fault (Except Fault α × β)) : Course α :=
  .ended w (r.bind Prod.fst)

section Attend

variable {β : Type} {deadline : Option Time} {event : CancelEvent} {u w w' : World}
  {c : Course Outcome}

/-- The watching task once it is over. -/
def watched (event : CancelEvent) (w : World) : Option (Course Unit) :=
  event.map fun set => .ended w (if isThrown set w then .ok () else .error (.cancelled ""))

theorem watched_over (event : CancelEvent) (w : World) :
    (watched event w).all (·.isEnded) = true := by
  cases event <;> rfl

theorem bind_due_watching (event : CancelEvent) (u : World) :
    (event.map (watching · u)).bind Course.due? = event.join := by
  cases event with
  | none => rfl
  | some set => cases set <;> rfl

/-- Stopping the watching task takes no time and changes nothing else. -/
theorem stopWatch_watching (next : Option (Course Unit) → Flow β) (event : CancelEvent)
    (u w : World) : stopWatch next (event.map (watching · u)) w = next (watched event w) w := by
  cases event with
  | none => rfl
  | some set =>
      cases set with
      | none =>
          have hnow : w.advanceTo w.now = w := advanceTo_of_le (Nat.le_refl _)
          simp [stopWatch, stopTask, watching, watched, isThrown, Course.inWorld, Course.upTo,
            Course.cancel, Course.andThen, hnow]
      | some t =>
          have hnow : w.advanceTo w.now = w := advanceTo_of_le (Nat.le_refl _)
          by_cases hset : t ≤ w.now
          · simp [stopWatch, stopTask, watching, watched, isThrown, Flow.sleepUntil,
              Course.inWorld, Course.upTo, Course.cancel, Course.andThen, hset,
              advanceTo_of_le hset, hnow]
          · simp [stopWatch, stopTask, watching, watched, isThrown, Flow.sleepUntil,
              Course.inWorld, Course.upTo, Course.cancel, Course.andThen, hset, hnow]

theorem wrapUp_watching (waited : Waited) (event : CancelEvent) (u w : World) :
    wrapUp waited (event.map (watching · u)) c w =
      ((c.inWorld w).cancel "").andThen fun v r =>
        .ended v (.ok (.ok waited, ⟨.ended v r, watched event w⟩)) :=
  stopWatch_watching _ event u w

theorem giveUp_watching (message : String) (event : CancelEvent) (u w : World) :
    giveUp message (event.map (watching · u)) c w =
      ((c.inWorld w).cancel "").andThen fun v r =>
        .ended v (.ok (.error (.cancelled message), ⟨.ended v r, watched event v⟩)) := by
  unfold giveUp stopTask
  simp only [stopWatch_watching]

/-- Without the tasks, the wait is the one that is run. -/
theorem attend_forget (deadline : Option Time) (event : CancelEvent) (u : World)
    (c : Course Outcome) :
    (attend deadline (event.map (watching · u)) c).andThen forget =
      within (earlier deadline event.join) c := by
  have hwrap (waited : Waited) (c : Course Outcome) (w : World) :
      (wrapUp waited (event.map (watching · u)) c w).andThen forget =
        ((c.inWorld w).cancel "").andThen fun v _ => .ended v (.ok waited) := by
    rw [wrapUp_watching, Course.andThen_assoc]
    rfl
  have hgive (message : String) (c : Course Outcome) (w : World) :
      (giveUp message (event.map (watching · u)) c w).andThen forget =
        ((c.inWorld w).cancel "").andThen fun v _ => .ended v (.error (.cancelled message)) := by
    rw [giveUp_watching, Course.andThen_assoc]
    rfl
  generalize hlimit : earlier deadline event.join = limit
  induction c with
  | ended w result => exact hwrap (.over result) (.ended w result) w
  | waiting w due go stop ihgo ihstop =>
      rw [attend, bind_due_watching, hlimit]
      cases limit with
      | none => simp only [within, Course.andThen, ihgo, hgive]; rfl
      | some t =>
          by_cases hlt : due < t
          · simp only [within, if_pos hlt, Course.andThen, ihgo, hgive]; rfl
          · simp only [within, if_neg hlt, Course.andThen, hwrap, hgive]; rfl
  | hanging w stop ihstop =>
      rw [attend, bind_due_watching, hlimit]
      cases limit with
      | none => simp only [within, Course.andThen, hgive]; rfl
      | some t => simp only [within, Course.andThen, hwrap, hgive]; rfl

/-- A wait for a task has come to its end: both tasks are over, and the one that runs the login has
ended in this very world. -/
def Attended (c : Course Outcome) (w' : World) (r : Except Fault (Except Fault Waited × Tasks)) :
    Prop :=
  ∃ waited tasks s, r = .ok (waited, tasks) ∧ tasks.areOver = true ∧ c.Ends w' s

variable {r : Except Fault (Except Fault Waited × Tasks)}

theorem Attended.mono {c' : Course Outcome} (hattended : Attended c w' r)
    (hends : ∀ s, c.Ends w' s → c'.Ends w' s) : Attended c' w' r := by
  obtain ⟨waited, tasks, s, hr, hover, hc⟩ := hattended
  exact ⟨waited, tasks, s, hr, hover, hends s hc⟩

theorem wrapUp_attended {waited : Waited}
    (hends : (wrapUp waited (event.map (watching · u)) c w).Ends w' r) :
    Attended ((c.inWorld w).cancel "") w' r := by
  rw [wrapUp_watching, Course.ends_andThen] at hends
  obtain ⟨v, s, hcancel, hlast⟩ := hends
  obtain ⟨rfl, rfl⟩ := Course.ends_ended.mp hlast
  exact ⟨_, _, s, rfl, watched_over event w, hcancel⟩

theorem giveUp_attended {message : String}
    (hends : (giveUp message (event.map (watching · u)) c w).Ends w' r) :
    Attended ((c.inWorld w).cancel "") w' r := by
  rw [giveUp_watching, Course.ends_andThen] at hends
  obtain ⟨v, s, hcancel, hlast⟩ := hends
  obtain ⟨rfl, rfl⟩ := Course.ends_ended.mp hlast
  exact ⟨_, _, s, rfl, watched_over event _, hcancel⟩

/-- Whatever ends the wait, the login has ended with it. -/
theorem attend_attended (hends : (attend deadline (event.map (watching · u)) c).Ends w' r) :
    Attended c w' r := by
  induction c with
  | ended w result => exact wrapUp_attended hends
  | waiting w due go stop ihgo ihstop =>
      -- A login that is called off at any moment has ended at its own point of waiting.
      have hstops (t : Time) (s : Except Fault Outcome)
          (hstop : (stop (w.advanceTo t) "").Ends w' s) :
          (Course.waiting w due go stop).Ends w' s := .stops t "" hstop
      have hgoes (s : Except Fault Outcome) (hgo : (go (w.advanceTo due)).Ends w' s) :
          (Course.waiting w due go stop).Ends w' s := .goesOn hgo
      rw [attend] at hends
      split at hends
      · next t _ =>
          split at hends
          · rcases Course.ends_waiting.mp hends with hgo | ⟨t', message, habort⟩
            · exact (ihgo _ hgo).mono hgoes
            · exact (giveUp_attended habort).mono (hstops t')
          · rcases Course.ends_waiting.mp hends with hcut | ⟨t', message, habort⟩
            · exact (wrapUp_attended hcut).mono (hstops t)
            · exact (giveUp_attended habort).mono (hstops t')
      · rcases Course.ends_waiting.mp hends with hgo | ⟨t', message, habort⟩
        · exact (ihgo _ hgo).mono hgoes
        · exact (giveUp_attended habort).mono (hstops t')
  | hanging w stop ihstop =>
      have hstops (t : Time) (s : Except Fault Outcome)
          (hstop : (stop (w.advanceTo t) "").Ends w' s) :
          (Course.hanging w stop).Ends w' s := .isFreed t "" hstop
      rw [attend] at hends
      split at hends
      · next t _ =>
          rcases Course.ends_waiting.mp hends with hcut | ⟨t', message, habort⟩
          · exact (wrapUp_attended hcut).mono (hstops t)
          · exact (giveUp_attended habort).mono (hstops t')
      · obtain ⟨t', message, habort⟩ := Course.ends_hanging.mp hends
        exact (giveUp_attended habort).mono (hstops t')

end Attend

/-! ### The login with its tasks in sight -/

section Supervised

/-- What is done once the wait is over. -/
def afterWait (session : Session) (patience : Patience) (event : CancelEvent)
    (waited : Except Fault Waited) : Flow LoginMethod := fun w =>
  match waited with
  | .error fault => .ended w (.error fault)
  | .ok waited =>
    if isThrown event.join w then session.calledOff w else session.settle patience w waited

/-- The agent's own login; where it was tried, its tasks are handed back with the result. -/
def supervise (session : Session) (patience : Patience) (event : CancelEvent)
    (sink : Option Sink) : Flow (Except Fault LoginMethod × Option Tasks) := fun w =>
  let w := w.enter (.session (.loginStarted session.binary))
  match session.loginArgs with
  | .error fault => .ended w (.ok (.error fault, none))
  | .ok args =>
    (attend (patience.deadline w.now) (event.map (watching · w))
        (firstTurn ((session.loginOrder args sink).launch w))).bind fun w (waited, tasks) =>
      (session.afterWait patience event waited w).andThen fun w r => .ended w (.ok (r, some tasks))

/-- The whole login; the tasks are handed back with the result. -/
def supervisedLogin (session : Session) (patience : Patience) (event : CancelEvent)
    (sink : Option Sink) : Flow (Except Fault LoginMethod × Option Tasks) := fun w =>
  (session.checkStatus w).andThen fun w checked =>
    match checked with
    | .error fault => .ended w (.ok (.error fault, none))
    | .ok true => .ended w (.ok (.ok .existing, none))
    | .ok false =>
      if isThrown event.join w then
        .ended w (.ok (.error (.login (.cancelled session.binary.display)), none))
      else session.supervise patience event sink w

variable {session : Session} {patience : Patience} {event : CancelEvent} {sink : Option Sink}
  {w w' : World}

theorem supervise_forget (hpatience : session.patience = .ok patience) (event : CancelEvent)
    (sink : Option Sink) (w : World) :
    (session.supervise patience event sink w).andThen forget =
      session.interactive event.join sink w := by
  unfold supervise interactive
  rw [hpatience]
  cases session.loginArgs with
  | error fault => rfl
  | ok args =>
      simp only
      rw [← attend_forget _ event (w.enter (.session (.loginStarted session.binary))), Course.bind,
        Course.bind, Course.andThen_assoc, Course.andThen_assoc]
      refine congrArg (Course.andThen · _) (funext fun v => funext fun r => ?_)
      obtain fault | ⟨waited, tasks⟩ := r
      · rfl
      · have hforget : ((session.afterWait patience event waited v).andThen fun w r =>
            Course.ended w (.ok (r, some tasks))).andThen forget =
            session.afterWait patience event waited v := by
          rw [Course.andThen_assoc]
          exact Course.andThen_ended _
        refine hforget.trans ?_
        obtain fault | waited := waited
        · rfl
        · cases waited <;> rfl

/-- Without the tasks, the login is the one that is run. -/
theorem supervisedLogin_forget (hpatience : session.patience = .ok patience) (event : CancelEvent)
    (sink : Option Sink) (w : World) :
    (session.supervisedLogin patience event sink w).andThen forget =
      session.login event.join sink w := by
  unfold supervisedLogin login
  rw [Course.andThen_assoc, Course.bind]
  refine congrArg (Course.andThen · _) (funext fun v => funext fun r => ?_)
  rcases r with fault | authenticated
  · rfl
  · cases authenticated with
    | true => rfl
    | false =>
        simp only [← supervise_forget hpatience]
        split <;> rfl

/-! ### The programs of a login -/

/-- From the first world to the second, the agent was asked for its status at most once, and nothing
else was launched. -/
inductive Checks (session : Session) (u v : World) : Prop where
  | idle (hidle : Uneventful u v)
  | checked {args : List Value} {m : World} {r : Except Fault Outcome}
      (hargs : session.statusArgs = .ok args)
      (hlife : (session.statusOrder args).Lifetime u m r) (hidle : Uneventful m v)

theorem Checks.uneventful {u v : World} (hchecks : session.Checks u v) (hidle : Uneventful v w) :
    session.Checks u w := by
  cases hchecks with
  | idle hbefore => exact .idle (hbefore.trans hidle)
  | checked hargs hlife hafter => exact .checked hargs hlife (hafter.trans hidle)

theorem Checks.later {u v : World} (hchecks : session.Checks u v) : Later u v := by
  cases hchecks with
  | idle hidle => exact hidle.later
  | checked hargs hlife hidle => exact hlife.later.trans hidle.later

theorem statusOrder_discreet (session : Session) (args : List Value) :
    (session.statusOrder args).Discreet := by
  intro channel s hs
  cases channel <;> cases hs

theorem loginOrder_discreet (hsink : ∀ s, sink = some s → s.Discreet) (args : List Value) :
    (session.loginOrder args sink).Discreet := by
  intro channel s hs
  cases channel with
  | stdout => exact hsink s hs
  | stderr => exact hsink s hs

theorem checkStatus_checks {r : Except Fault Bool} (hends : (session.checkStatus w).Ends w' r) :
    session.Checks w w' := by
  unfold checkStatus at hends
  cases hargs : session.statusArgs with
  | error fault =>
      rw [hargs] at hends
      obtain ⟨rfl, -⟩ := Course.ends_ended.mp hends
      exact .idle (.refl _)
  | ok args =>
      rw [hargs] at hends
      obtain ⟨v, s, hlaunch, hlast⟩ := Course.ends_andThen.mp hends
      refine .checked hargs
        (Order.lifetime_of_launch (session.statusOrder_discreet args) hlaunch) ?_
      split at hlast
      · obtain ⟨rfl, -⟩ := Course.ends_ended.mp hlast
        exact .refl _
      · obtain ⟨rfl, -⟩ := Course.ends_ended.mp hlast
        exact .refl _
      · obtain ⟨rfl, -⟩ := Course.ends_ended.mp hlast
        exact uneventful_enter _ _ rfl

theorem confirm_checks {result : Except Fault Outcome} {r : Except Fault LoginMethod}
    (hends : (session.confirm result w).Ends w' r) : session.Checks w w' := by
  unfold confirm at hends
  simp only at hends
  split at hends
  · obtain ⟨rfl, -⟩ := Course.ends_ended.mp hends
    exact .idle (uneventful_enter _ _ rfl)
  · obtain ⟨rfl, -⟩ := Course.ends_ended.mp hends
    exact .idle (.refl _)
  · split at hends
    · rcases Course.ends_bind.mp hends with ⟨v, confirmed, hcheck, hlast⟩ | ⟨fault, hcheck, -⟩
      · refine (checkStatus_checks hcheck).uneventful ?_
        split at hlast
        · obtain ⟨rfl, -⟩ := Course.ends_ended.mp hlast
          exact uneventful_enter _ _ rfl
        · obtain ⟨rfl, -⟩ := Course.ends_ended.mp hlast
          exact .refl _
      · exact checkStatus_checks hcheck
    · obtain ⟨rfl, -⟩ := Course.ends_ended.mp hends
      exact .idle (.refl _)

theorem afterWait_checks {waited : Except Fault Waited} {r : Except Fault LoginMethod}
    (hends : (session.afterWait patience event waited w).Ends w' r) : session.Checks w w' := by
  unfold afterWait at hends
  split at hends
  · obtain ⟨rfl, -⟩ := Course.ends_ended.mp hends
    exact .idle (.refl _)
  · next waited =>
      split at hends
      · obtain ⟨rfl, -⟩ := Course.ends_ended.mp hends
        exact .idle ((uneventful_enter _ _ rfl).trans (uneventful_enter _ _ rfl))
      · rcases waited with result | _
        · exact confirm_checks hends
        · obtain ⟨rfl, -⟩ := Course.ends_ended.mp hends
          exact .idle (uneventful_enter _ _ rfl)

theorem ends_of_firstTurn {α : Type} {c : Course α} {r : Except Fault α}
    (hends : (firstTurn c).Ends w' r) : c.Ends w' r := by
  cases c with
  | ended w s => exact hends
  | hanging w stop => exact hends
  | waiting w due go stop =>
      rw [firstTurn] at hends
      split at hends
      · next hdue =>
          rw [← advanceTo_of_le hdue] at hends
          exact .goesOn hends
      · exact hends

/-- The agent's own login was tried once, from `u` on; its tasks are over, its program is gone, and
nothing but a status check came after it. -/
def TriedOnce (session : Session) (sink : Option Sink) (u w' : World) (tasks : Tasks) : Prop :=
  tasks.areOver = true ∧ ∃ args v s, session.loginArgs = .ok args ∧
    (session.loginOrder args sink).Lifetime u v s ∧ session.Checks v w' ∧
    ∀ script, u.responses.head? = some (.started script) →
      ((session.loginOrder args sink).child script u).Gone w'

theorem supervise_ends (hsink : ∀ s, sink = some s → s.Discreet)
    {r : Except Fault (Except Fault LoginMethod × Option Tasks)}
    (hends : (session.supervise patience event sink w).Ends w' r) :
    ∃ result tasks, r = .ok (result, tasks) ∧ ∃ u, Uneventful w u ∧
      (tasks = none ∧ Uneventful u w' ∨
        ∃ pair, tasks = some pair ∧ session.TriedOnce sink u w' pair) := by
  unfold supervise at hends
  simp only at hends
  have hbegun : Uneventful w (w.enter (.session (.loginStarted session.binary))) :=
    uneventful_enter _ _ rfl
  split at hends
  · next fault hargs =>
      obtain ⟨rfl, rfl⟩ := Course.ends_ended.mp hends
      exact ⟨_, _, rfl, _, hbegun, Or.inl ⟨rfl, .refl _⟩⟩
  · next args hargs =>
      rcases Course.ends_bind.mp hends with ⟨v, ⟨waited, tasks⟩, hwait, hlast⟩ | ⟨fault, hwait, -⟩
      · obtain ⟨_, _, s, hsame, hover, hlogin⟩ := attend_attended hwait
        cases hsame
        obtain ⟨v', result, hafter, hend⟩ := Course.ends_andThen.mp hlast
        obtain ⟨rfl, rfl⟩ := Course.ends_ended.mp hend
        have hlife := Order.lifetime_of_launch (loginOrder_discreet hsink args)
          (ends_of_firstTurn hlogin)
        have hchecks := afterWait_checks hafter
        refine ⟨result, some tasks, rfl, _, hbegun, Or.inr ⟨tasks, rfl, hover, args, v, s, hargs,
          hlife, hchecks, ?_⟩⟩
        intro script hstarted
        exact (hlife.gone hstarted).later hchecks.later
      · obtain ⟨_, _, _, hfault, -⟩ := attend_attended hwait
        cases hfault

/-- The login that is run is the supervised one without its tasks; and however that ends, whether it
has a result, runs out of time, is called off, or its caller is told to stop, one of two things
holds after the first status check. Either no login was tried, or it was tried once, its tasks are
over and its program is gone. -/
theorem login_leaves_nothing (hpatience : session.patience = .ok patience)
    (hsink : ∀ s, sink = some s → s.Discreet) :
    session.login event.join sink w =
        (session.supervisedLogin patience event sink w).andThen forget ∧
      ∀ w' r, (session.supervisedLogin patience event sink w).Ends w' r →
        ∃ result tasks u, r = .ok (result, tasks) ∧ session.Checks w u ∧
          (tasks = none ∧ Uneventful u w' ∨
            ∃ pair, tasks = some pair ∧ session.TriedOnce sink u w' pair) := by
  refine ⟨(supervisedLogin_forget hpatience event sink w).symm, ?_⟩
  intro w' r hends
  obtain ⟨v, checked, hcheck, hlast⟩ := Course.ends_andThen.mp hends
  have hfirst := checkStatus_checks hcheck
  split at hlast
  · obtain ⟨rfl, rfl⟩ := Course.ends_ended.mp hlast
    exact ⟨_, _, _, rfl, hfirst, Or.inl ⟨rfl, .refl _⟩⟩
  · obtain ⟨rfl, rfl⟩ := Course.ends_ended.mp hlast
    exact ⟨_, _, _, rfl, hfirst, Or.inl ⟨rfl, .refl _⟩⟩
  · split at hlast
    · obtain ⟨rfl, rfl⟩ := Course.ends_ended.mp hlast
      exact ⟨_, _, _, rfl, hfirst, Or.inl ⟨rfl, .refl _⟩⟩
    · obtain ⟨result, tasks, hr, u, hbegun, hrest⟩ := supervise_ends hsink hlast
      exact ⟨result, tasks, u, hr, hfirst.uneventful hbegun, hrest⟩

/-- The status check is refused, and the agent's own login prints a letter and never exits. -/
def lingering : World where
  responses := [.refused "busy", .started Order.endless]

/-- The event is set while the login lingers. -/
theorem login_leaves_nothing_of_lingering :
    agent.patience = .ok (.seconds (.ofNat 120)) ∧
      (Sink.recording .stdout fun _ => none).Discreet ∧
      ∃ w' result pair u, (agent.supervisedLogin (.seconds (.ofNat 120))
          (some (some (Time.milliseconds 50))) (some (.recording .stdout fun _ => none))
          lingering).Ends w' (.ok (result, some pair)) ∧
        agent.TriedOnce (some (.recording .stdout fun _ => none)) u w' pair := by
  have hdiscreet : (Sink.recording .stdout fun _ => none).Discreet := Sink.recording_discreet _ _
  have hsink : ∀ s, some (Sink.recording .stdout fun _ => none) = some s → s.Discreet := by
    rintro s ⟨⟩
    exact hdiscreet
  have htried : ((agent.supervisedLogin (.seconds (.ofNat 120))
      (some (some (Time.milliseconds 50))) (some (.recording .stdout fun _ => none))
      lingering).finish.2.bind fun r => r.toOption.bind Prod.snd).isSome = true := by
    decide +kernel
  obtain ⟨pair, hpair⟩ := Option.isSome_iff_exists.mp htried
  obtain ⟨r, hfinish, hr⟩ := Option.bind_eq_some_iff.mp hpair
  have hends := Course.ends_of_finish hfinish
  obtain ⟨result, tasks, u, rfl, -, ⟨rfl, -⟩ | ⟨pair', rfl, htried⟩⟩ :=
    (@login_leaves_nothing agent (.seconds (.ofNat 120)) (some (some (Time.milliseconds 50)))
      _ lingering rfl hsink).2 _ _ hends
  · cases hr
  · exact ⟨rfl, hdiscreet, _, result, pair', u, hends, htried⟩

end Supervised

end Session

end Conductor
