import Conductor.Proofs.Client.Frame
import Conductor.Proofs.Conversation
import Conductor.Proofs.Orchestrator.Stint

/-!
What an activity does, seen from the planning tool. A play is a list of calls together with what
came of them, the artifacts that were stored, and the result; it forgets everything else. Whatever
the tool answers, there is a play, and an activity that is carried out where no subscriber fails
goes through one.
-/

namespace Conductor

open World

/-- A request to the planning tool, and what came of it. -/
structure Call where
  request : Request
  result : Except Fault request.Answer

namespace Call

def IsAnswered (call : Call) : Prop := call.result.isOk = true

/-- What is asked of the system in a call. -/
def spawn (brief : Brief) (call : Call) : Spawn :=
  (brief.client.order call.request.words (some brief.workspace.toString) none).spawn

/-- The calls have the given answers, one after the other. -/
def Follow (answers : Nat → (request : Request) → Except Fault request.Answer)
    (calls : List Call) : Prop :=
  ∀ i call, calls[i]? = some call → call.result = answers i call.request

end Call

namespace Activity

/-- How an activity can go: its calls, what it has stored, and its result. It goes on after a call
only if that was answered. Of the other instructions only a wait can be cut short, and only a line
of an unknown level cannot be logged. -/
def Plays (files : Workspace) :
    Activity → List Call → List (String × Value) → Except Fault Value → Prop
  | done result, calls, stored, r => calls = [] ∧ stored = [] ∧ r = .ok result
  | fail fault, calls, stored, r => calls = [] ∧ stored = [] ∧ r = .error fault
  | log _ level next, calls, stored, r =>
    (level.severity? = none ∧ calls = [] ∧ stored = [] ∧ ∃ fault, r = .error fault) ∨
      next.Plays files calls stored r
  | store key value next, calls, stored, r =>
    ∃ rest, stored = (key, value) :: rest ∧ next.Plays files calls rest r
  | sleep _ next, calls, stored, r =>
    (calls = [] ∧ stored = [] ∧ ∃ message, r = .error (.cancelled message)) ∨
      next.Plays files calls stored r
  | ask request _ next, calls, stored, r =>
    (∃ fault, calls = [⟨request, .error fault⟩] ∧ stored = [] ∧ r = .error fault) ∨
      ∃ answer rest, calls = ⟨request, .ok answer⟩ :: rest ∧ (next answer).Plays files rest stored r
  | read path next, calls, stored, r => (next (files.readText path)).Plays files calls stored r

/-- Whatever the tool answers to the first call, to the second, and so on, there is a play. -/
theorem exists_plays (files : Workspace) (activity : Activity)
    (answers : Nat → (request : Request) → Except Fault request.Answer) :
    ∃ calls stored r, activity.Plays files calls stored r ∧ Call.Follow answers calls := by
  induction activity generalizing answers with
  | done result => exact ⟨[], [], _, ⟨rfl, rfl, rfl⟩, by simp [Call.Follow]⟩
  | fail fault => exact ⟨[], [], _, ⟨rfl, rfl, rfl⟩, by simp [Call.Follow]⟩
  | log message level next ih =>
      obtain ⟨calls, stored, r, hplays, hfollow⟩ := ih answers
      exact ⟨calls, stored, r, Or.inr hplays, hfollow⟩
  | store key value next ih =>
      obtain ⟨calls, stored, r, hplays, hfollow⟩ := ih answers
      exact ⟨calls, _, r, ⟨stored, rfl, hplays⟩, hfollow⟩
  | sleep span next ih =>
      obtain ⟨calls, stored, r, hplays, hfollow⟩ := ih answers
      exact ⟨calls, stored, r, Or.inr hplays, hfollow⟩
  | ask request echo next ih =>
      cases hfirst : answers 0 request with
      | error fault =>
          refine ⟨_, [], _, Or.inl ⟨fault, rfl, rfl, rfl⟩, ?_⟩
          intro i call hcall
          cases i with
          | zero =>
              cases hcall
              exact hfirst.symm
          | succ i => simp at hcall
      | ok answer =>
          obtain ⟨calls, stored, r, hplays, hfollow⟩ := ih answer fun i => answers (i + 1)
          refine ⟨_, stored, r, Or.inr ⟨answer, calls, rfl, hplays⟩, ?_⟩
          intro i call hcall
          cases i with
          | zero =>
              cases hcall
              exact hfirst.symm
          | succ i => exact hfollow i call hcall
  | read path next ih => exact ih _ answers

/-! ### Activities that are carried out -/

/-- From the first world to the second there were these calls, and these artifacts were stored. -/
structure Enacts (brief : Brief) (u : World) (calls : List Call) (stored : List (String × Value))
    (v : World) : Prop where
  launched : v.journal.launched = u.journal.launched ++ calls.map (Call.spawn brief)
  current : v.current = u.current.map fun run =>
    stored.foldl (fun run entry => run.store entry.1 entry.2) run

variable {brief : Brief} {phaseId : String} {u v w w' : World} {calls later : List Call}
  {stored more : List (String × Value)}

theorem Enacts.idle (hlaunched : v.journal.launched = u.journal.launched)
    (hcurrent : v.current = u.current) : Enacts brief u [] [] v := by
  refine ⟨by simpa using hlaunched, ?_⟩
  rw [hcurrent]
  simp

theorem Enacts.trans (hfirst : Enacts brief u calls stored v)
    (hsecond : Enacts brief v later more w) :
    Enacts brief u (calls ++ later) (stored ++ more) w := by
  refine ⟨?_, ?_⟩
  · rw [hsecond.launched, hfirst.launched, List.map_append, List.append_assoc]
  · rw [hsecond.current, hfirst.current, Option.map_map]
    simp only [Function.comp_def, List.foldl_append]

theorem announce_current (event : Stamp → Event) (w : World) :
    (w.announce event).1.current = w.current := by
  unfold announce
  cases w.stamp with
  | ok stamp =>
      simp only [proceed]
      rw [publish_onlyJournal]
  | error fault => rfl

theorem announce_enacts {event : Stamp → Event} (hwork : ∀ stamp, (event stamp).kind.IsWork)
    (w : World) : Enacts brief w [] [] (w.announce event).1 :=
  .idle (Stirs.launches (stirs_announce w hwork)).2 (announce_current event w)

theorem announce_of_quiet {event : Stamp → Event} {severity : Severity} (hquiet : w.Quiet)
    (hstamp : ∃ stamp, w.stamp = .ok stamp)
    (hlevel : ∀ stamp, (event stamp).level.severity? = some severity) :
    (w.announce event).2 = none := by
  obtain ⟨stamp, hstamp⟩ := hstamp
  obtain ⟨notice, hnotice⟩ := Event.notice_of_severity (event stamp) (hlevel stamp)
  unfold announce
  rw [hstamp]
  exact (publish_of_quiet hnotice hquiet).1

theorem keep_enacts (phaseId key : String) (value : Value) (w : World) :
    Enacts brief w [] [(key, value)] (keep phaseId key value w).1 := by
  refine ⟨?_, ?_⟩
  · rw [(Stirs.launches (keep_stirs phaseId key value w)).2]
    simp
  · rw [keep, announce_current]
    rfl

theorem keep_of_quiet {key : String} {value : Value} (hquiet : w.Quiet)
    (hstamp : ∃ stamp, w.stamp = .ok stamp) : (keep phaseId key value w).2 = none :=
  announce_of_quiet (w := w.modifyRun (·.store key value)) hquiet hstamp fun _ => rfl

theorem pause_enacts {span : Option Time} {r : Except Fault Unit}
    (hends : (pause span w).Ends v r) :
    Enacts brief w [] [] v ∧ ∀ fault, r = .error fault → ∃ message, fault = .cancelled message := by
  cases span with
  | none =>
      obtain ⟨t, message, hstop⟩ := Course.ends_hanging.mp hends
      obtain ⟨rfl, rfl⟩ := Course.ends_ended.mp hstop
      exact ⟨.idle rfl rfl, by rintro fault ⟨⟩; exact ⟨message, rfl⟩⟩
  | some span =>
      rcases Course.ends_waiting.mp hends with hgo | ⟨t, message, hstop⟩
      · obtain ⟨hv, rfl⟩ := Course.ends_ended.mp hgo
        rw [hv]
        exact ⟨.idle rfl rfl, by rintro fault ⟨⟩⟩
      · obtain ⟨rfl, rfl⟩ := Course.ends_ended.mp hstop
        exact ⟨.idle rfl rfl, by rintro fault ⟨⟩; exact ⟨message, rfl⟩⟩

theorem sink_aloof {echo : Bool} :
    ∀ s, (if echo then some (logChunk phaseId) else none) = some s → s.Aloof := by
  intro s hs
  cases echo with
  | false => simp at hs
  | true =>
      obtain rfl : logChunk phaseId = s := by simpa using hs
      intro text w
      simp only [logChunk]
      split
      · rfl
      · exact announce_current _ w

theorem ask_enacts {request : Request} {echo : Bool} {r : Except Fault request.Answer}
    (hends : (brief.client.ask request (some brief.workspace.toString)
      (if echo then some (logChunk phaseId) else none) w).Ends v r) :
    Enacts brief w [⟨request, r⟩] [] v := by
  refine ⟨(Exchange.made_of_ask sink_steady hends).launched, ?_⟩
  rw [Client.ask_endsIn sink_aloof request w v r hends]
  simp

/-- What an activity relies on when it goes on. -/
theorem goes_on (hsteps : Steps w v) (hquiet : w.Quiet) (hdated : Dated w w') :
    v.Quiet ∧ Dated v w' ∧ v.files = w.files :=
  ⟨hquiet.of_bus (Steps.onward hsteps).bus,
    hdated.mono (Steps.onward hsteps).toElapses (.refl w'), (Steps.onward hsteps).files⟩

/-- Where no subscriber fails, an activity that ends has gone through one of its plays, whatever the
programs did and whenever it was told to stop. -/
theorem carryOut_plays {activity : Activity} {r : Except Fault Value} (hquiet : w.Quiet)
    (hdated : Dated w w') (hends : (activity.carryOut brief phaseId w).Ends w' r) :
    ∃ calls stored, activity.Plays w.files calls stored r ∧ Enacts brief w calls stored w' := by
  induction activity generalizing w r with
  | done result =>
      obtain ⟨rfl, rfl⟩ := Course.ends_ended.mp hends
      exact ⟨[], [], ⟨rfl, rfl, rfl⟩, .idle rfl rfl⟩
  | fail fault =>
      obtain ⟨rfl, rfl⟩ := Course.ends_ended.mp hends
      exact ⟨[], [], ⟨rfl, rfl, rfl⟩, .idle rfl rfl⟩
  | log message level next ih =>
      have hstamp := hdated.stamp (Steps.onward (carryOut_steps hends)).toElapses
      have hwork : ∀ stamp, (logEvent phaseId message level stamp).kind.IsWork :=
        fun _ => Or.inl rfl
      rcases Flow.ends_step_bind.mp hends with ⟨-, hrest⟩ | ⟨fault, hfault, hw', rfl⟩
      · have hstirs : Stirs w (w.announce (logEvent phaseId message level)).1 :=
          stirs_announce w hwork
        obtain ⟨hquiet', hdated', hfiles⟩ := goes_on hstirs.steps hquiet hdated
        obtain ⟨calls, stored, hplays, henacts⟩ := ih hquiet' hdated' hrest
        rw [hfiles] at hplays
        exact ⟨calls, stored, Or.inr hplays, (announce_enacts hwork w).trans henacts⟩
      · cases hlevel : level.severity? with
        | none =>
            rw [hw']
            exact ⟨[], [], Or.inl ⟨hlevel, rfl, rfl, fault, rfl⟩, announce_enacts hwork w⟩
        | some severity =>
            rw [announce_of_quiet hquiet hstamp fun _ => hlevel] at hfault
            cases hfault
  | store key value next ih =>
      have hstamp := hdated.stamp (Steps.onward (carryOut_steps hends)).toElapses
      rcases Flow.ends_step_bind.mp hends with ⟨-, hrest⟩ | ⟨fault, hfault, hw', rfl⟩
      · have hstirs := keep_stirs phaseId key value w
        obtain ⟨hquiet', hdated', hfiles⟩ := goes_on hstirs.steps hquiet hdated
        obtain ⟨calls, stored, hplays, henacts⟩ := ih hquiet' hdated' hrest
        rw [hfiles] at hplays
        exact ⟨calls, _, ⟨stored, rfl, hplays⟩, (keep_enacts phaseId key value w).trans henacts⟩
      · rw [keep_of_quiet hquiet hstamp] at hfault
        cases hfault
  | sleep span next ih =>
      rw [carryOut, Flow.ends_seq] at hends
      rcases hends with ⟨v, _, hpause, hrest⟩ | ⟨fault, hpause, rfl⟩
      · have hstirs := pause_stirs hpause
        obtain ⟨hquiet', hdated', hfiles⟩ := goes_on hstirs.steps hquiet hdated
        obtain ⟨calls, stored, hplays, henacts⟩ := ih hquiet' hdated' hrest
        rw [hfiles] at hplays
        exact ⟨calls, stored, Or.inr hplays, (pause_enacts hpause).1.trans henacts⟩
      · obtain ⟨henacts, hcancelled⟩ := pause_enacts hpause
        obtain ⟨message, rfl⟩ := hcancelled fault rfl
        exact ⟨[], [], Or.inl ⟨rfl, rfl, message, rfl⟩, henacts⟩
  | ask request echo next ih =>
      rw [carryOut, Flow.ends_seq] at hends
      rcases hends with ⟨v, answer, hask, hrest⟩ | ⟨fault, hask, rfl⟩
      · obtain ⟨hquiet', hdated', hfiles⟩ :=
          goes_on (Client.ask_steps sink_steady hask) hquiet hdated
        obtain ⟨calls, stored, hplays, henacts⟩ := ih answer hquiet' hdated' hrest
        rw [hfiles] at hplays
        exact ⟨_, stored, Or.inr ⟨answer, calls, rfl, hplays⟩, (ask_enacts hask).trans henacts⟩
      · exact ⟨_, [], Or.inl ⟨fault, rfl, rfl, rfl⟩, ask_enacts hask⟩
  | read path next ih => exact ih _ hquiet hdated hends

/-- The activity waits for nothing that never comes. -/
def IsPatient : Activity → Prop
  | done _ => True
  | fail _ => True
  | log _ _ next => next.IsPatient
  | store _ _ next => next.IsPatient
  | sleep span next => span.isSome = true ∧ next.IsPatient
  | ask _ _ next => ∀ answer, (next answer).IsPatient
  | read _ next => ∀ content, (next content).IsPatient

theorem seq_finishes {α β : Type} {first : Flow α} {second : α → Flow β}
    (hfirst : (first w).finish.2.isSome = true)
    (hsecond : ∀ v a, (first w).Ends v (.ok a) → (second a v).finish.2.isSome = true) :
    (Flow.seq first second w).finish.2.isSome = true := by
  refine Course.finishes_andThen hfirst ?_
  intro v s hfinish
  cases s with
  | error fault => rfl
  | ok a =>
      have hends := Course.ends_of_finish (c := first w) (r := .ok a) (by rw [hfinish])
      rw [hfinish] at hends
      exact hsecond v a hends

theorem step_finishes (act : World → World × Option Fault) (w : World) :
    (Flow.step act w).finish.2.isSome = true := by
  unfold Flow.step
  cases act w with
  | mk v fault => cases fault <;> rfl

/-- If every program that is started exits, an activity that waits for nothing else comes to an end,
also where subscribers fail. -/
theorem carryOut_finishes {activity : Activity} (hpatient : activity.IsPatient)
    (hexits : ∀ script, .started script ∈ w.responses → script.exit.isSome = true) :
    (activity.carryOut brief phaseId w).finish.2.isSome = true := by
  induction activity generalizing w with
  | done result => rfl
  | fail fault => rfl
  | log message level next ih =>
      refine seq_finishes (step_finishes _ w) fun v _ hstep => ih hpatient ?_
      rw [(Stirs.launches (step_stirs hstep (stirs_announce w fun _ => Or.inl rfl))).1]
      exact hexits
  | store key value next ih =>
      refine seq_finishes (step_finishes _ w) fun v _ hstep => ih hpatient ?_
      rw [(Stirs.launches (step_stirs hstep (keep_stirs phaseId key value w))).1]
      exact hexits
  | sleep span next ih =>
      obtain ⟨time, rfl⟩ := Option.isSome_iff_exists.mp hpatient.1
      refine seq_finishes rfl fun v _ hpause => ih hpatient.2 ?_
      rw [(Stirs.launches (pause_stirs hpause)).1]
      exact hexits
  | ask request echo next ih =>
      have hhead : ∀ script, w.responses.head? = some (.started script) →
          script.exit.isSome = true := by
        intro script hscript
        exact hexits script (List.mem_of_head? hscript)
      refine seq_finishes (brief.client.ask_finishes request _ _ hhead) fun v answer hask =>
        ih answer (hpatient answer) ?_
      rw [(Exchange.made_of_ask sink_steady hask).left]
      exact fun script hscript => hexits script (List.mem_of_mem_drop hscript)
  | read path next ih => exact ih _ (hpatient _) hexits

end Activity

end Conductor
