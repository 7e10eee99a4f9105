import Conductor.Proofs.Client.Frame

/-!
The life of a launched program, from its start to its end. Whatever the program does, whatever the
sinks do and whenever the caller is told to stop, the launch is over only when the program is gone;
and of every launch exactly one end is told: that it failed, that the program has exited, or that it
was killed.
-/

namespace Conductor

open World

/-! ### What the journal tells of programs -/

/-- An entry about a program: an attempt to launch it, a kill, or what is told of either. -/
def Entry.vital? : Entry → Option Entry
  | launch event => some (launch event)
  | spawn s pid => some (spawn s pid)
  | kill pid => some (kill pid)
  | _ => none

/-- The entries about programs so far. -/
def Journal.lives (journal : Journal) : List Entry := journal.seen Entry.vital?

theorem Journal.mem_lives {journal : Journal} {entry : Entry} :
    entry ∈ journal.lives ↔ entry ∈ journal ∧ entry.vital? = some entry := by
  have hself (entry' : Entry) (hvital : entry'.vital? = some entry) : entry' = entry := by
    cases entry' <;> simp_all [Entry.vital?]
  unfold lives seen
  rw [List.mem_filterMap]
  constructor
  · rintro ⟨entry', hmem, hvital⟩
    obtain rfl := hself entry' hvital
    exact ⟨List.mem_reverse.mp hmem, hvital⟩
  · rintro ⟨hmem, hvital⟩
    exact ⟨entry, List.mem_reverse.mpr hmem, hvital⟩

namespace World

theorem enter_lives (w : World) (entry : Entry) :
    (w.enter entry).journal.lives = w.journal.lives ++ entry.vital?.toList := by
  rw [enter, Journal.lives, Journal.seen_cons, Journal.lives]

/-- From the first world to the second nothing happened to any program, and time did not run
backwards. -/
structure Uneventful (u v : World) : Prop where
  lives : v.journal.lives = u.journal.lives
  now : u.now ≤ v.now

theorem Uneventful.refl (w : World) : Uneventful w w := ⟨rfl, Nat.le_refl _⟩

theorem Uneventful.trans {u v w : World} (huv : Uneventful u v) (hvw : Uneventful v w) :
    Uneventful u w :=
  ⟨hvw.lives.trans huv.lives, Nat.le_trans huv.now hvw.now⟩

theorem uneventful_pass (w : World) (t : Time) : Uneventful w (w.advanceTo t) :=
  ⟨rfl, Nat.le_max_left _ _⟩

theorem uneventful_enter (w : World) (entry : Entry) (hentry : entry.vital? = none) :
    Uneventful w (w.enter entry) := by
  refine ⟨?_, Nat.le_refl _⟩
  rw [enter_lives, hentry]
  exact List.append_nil _

/-- The second world comes after the first: what has been told of programs stays told, and time did
not run backwards. -/
structure Later (u v : World) : Prop where
  lives : u.journal.lives <+: v.journal.lives
  now : u.now ≤ v.now

theorem Later.trans {u v w : World} (huv : Later u v) (hvw : Later v w) : Later u w :=
  ⟨huv.lives.trans hvw.lives, Nat.le_trans huv.now hvw.now⟩

theorem Uneventful.later {u v : World} (huv : Uneventful u v) : Later u v :=
  ⟨huv.lives ▸ List.prefix_refl _, huv.now⟩

end World

/-! ### Sinks -/

/-- A sink that leaves programs alone. It may fail. -/
def Sink.Discreet (sink : Sink) : Prop := ∀ text w, Uneventful w (sink text w).1

theorem Sink.recording_discreet (channel : Channel) (react : Journal → Option Fault) :
    (recording channel react).Discreet := fun _ w => uneventful_enter w _ rfl

theorem Sink.hand_uneventful {sink : Option Sink} (hsink : ∀ s, sink = some s → s.Discreet)
    (chunks : List (List Char)) (w : World) : Uneventful w (hand sink chunks w).1 := by
  fun_induction hand sink chunks w with
  | case1 => exact .refl _
  | case2 => exact .refl _
  | case3 sink chunk rest w v hchunk ih =>
      have hfirst := hsink sink rfl (String.ofList chunk) w
      rw [hchunk] at hfirst
      exact hfirst.trans (ih hsink)
  | case4 sink chunk rest w v fault hchunk =>
      have hfirst := hsink sink rfl (String.ofList chunk) w
      rw [hchunk] at hfirst
      exact hfirst

theorem Sink.hand_fault {sink : Option Sink} {chunks : List (List Char)} {w : World}
    {fault : Fault} (hfault : (hand sink chunks w).2 = some fault) :
    ∃ s text v, sink = some s ∧ (s text v).2 = some fault := by
  fun_induction hand sink chunks w with
  | case1 => cases hfault
  | case2 => cases hfault
  | case3 sink chunk rest w v hchunk ih => exact ih hfault
  | case4 sink chunk rest w v fault' hchunk =>
      cases hfault
      exact ⟨sink, String.ofList chunk, w, rfl, by rw [hchunk]⟩

namespace Order

/-- The sinks of an order leave programs alone. -/
def Discreet (order : Order) : Prop := ∀ channel s, order.sink channel = some s → s.Discreet

/-- One of the sinks of an order can fail with this fault. -/
def Raises (order : Order) (fault : Fault) : Prop :=
  ∃ channel s text w, order.sink channel = some s ∧ (s text w).2 = some fault

end Order

/-! ### The end of a program -/

namespace Child

variable {child : Child} {pumps : Pumps} {turn : Turn} {u v w w' : World} {fault : Fault}
  {r : Except Fault Outcome}

/-- The program is no longer there: it has exited, a kill took effect, or the system did not find it
when it was to be killed. -/
def Gone (child : Child) (w : World) : Prop :=
  child.hasExited w = true ∨ .kill child.pid ∈ w.journal ∨
    child.script.killable = false ∧
      ∃ reason, .launch (.killed child.order.program child.pid reason) ∈ w.journal

theorem hasExited_mono (hexited : child.hasExited u = true) (hnow : u.now ≤ v.now) :
    child.hasExited v = true := by
  obtain ⟨exit, hexit, hle⟩ := hasExited_iff.mp hexited
  exact hasExited_iff.mpr ⟨exit, hexit, Nat.le_trans hle hnow⟩

/-- A program that is gone does not come back. -/
theorem Gone.later (hgone : child.Gone u) (huv : Later u v) : child.Gone v := by
  have hkept {entry : Entry} (hvital : entry.vital? = some entry) (hmem : entry ∈ u.journal) :
      entry ∈ v.journal :=
    (Journal.mem_lives.mp (huv.lives.mem (Journal.mem_lives.mpr ⟨hmem, hvital⟩))).1
  rcases hgone with hexited | hkilled | ⟨hmissing, reason, htold⟩
  · exact Or.inl (hasExited_mono hexited huv.now)
  · exact Or.inr (Or.inl (hkept rfl hkilled))
  · exact Or.inr (Or.inr ⟨hmissing, reason, hkept rfl htold⟩)

theorem read_uneventful (hsinks : child.order.Discreet) (turn : Turn) (pumps : Pumps) (w : World) :
    Uneventful w (child.read turn pumps w).2.1 := by
  have hstdout : ∀ s, child.order.onStdout = some s → s.Discreet := hsinks .stdout
  have hstderr : ∀ s, child.order.onStderr = some s → s.Discreet := hsinks .stderr
  rw [read_sinks]
  exact (Sink.hand_uneventful hstdout _ w).trans (Sink.hand_uneventful hstderr _ _)

theorem read_fault (turn : Turn) (pumps : Pumps) (w : World)
    (hfault : (child.read turn pumps w).2.2 = some fault) :
    child.order.Raises fault := by
  rw [read_sinks] at hfault
  rcases Option.or_eq_some_iff.mp hfault with hfirst | ⟨-, hsecond⟩
  · obtain ⟨s, text, v, hs, hraised⟩ := Sink.hand_fault hfirst
    exact ⟨.stdout, s, text, v, hs, hraised⟩
  · obtain ⟨s, text, v, hs, hraised⟩ := Sink.hand_fault hsecond
    exact ⟨.stderr, s, text, v, hs, hraised⟩

/-- From the first world to the second the program came to its end. One end is told of it, and it is
gone: it has exited, or it was killed for the sake of a fault, which is then passed on. -/
inductive Closes (child : Child) (u v : World) : Except Fault Outcome → Prop where
  | exited (outcome : Outcome) (size : Nat) (tail : String) (hnow : u.now ≤ v.now)
      (htold : v.journal.lives =
        u.journal.lives ++ [.launch (.exited child.order.program outcome.exitCode size tail)])
      (hgone : child.hasExited v = true) : Closes child u v (.ok outcome)
  | killed (fault : Fault) (kills : List Entry) (hnow : u.now ≤ v.now)
      (hcause : (∃ message, fault = .cancelled message) ∨ child.order.Raises fault)
      (hkills : kills = [] ∨ kills = [.kill child.pid])
      (htold : v.journal.lives =
        u.journal.lives ++ .launch (.killed child.order.program child.pid fault.name) :: kills)
      (hgone : child.Gone v) : Closes child u v (.error fault)

theorem Closes.after (huv : Uneventful u v) (h : child.Closes v w r) : child.Closes u w r := by
  cases h with
  | exited outcome size tail hnow htold hgone =>
      rw [huv.lives] at htold
      exact .exited outcome size tail (Nat.le_trans huv.now hnow) htold hgone
  | killed fault kills hnow hcause hkills htold hgone =>
      rw [huv.lives] at htold
      exact .killed fault kills (Nat.le_trans huv.now hnow) hcause hkills htold hgone

theorem abandon_closes (hcause : (∃ message, fault = .cancelled message) ∨ child.order.Raises fault)
    (hends : (child.abandon fault w).Ends w' r) : child.Closes w w' r := by
  obtain ⟨rfl, rfl⟩ := Course.ends_ended.mp hends
  have htold (v : World) (hv : Uneventful (w.enter (.launch (.killed child.order.program child.pid
      fault.name))) v) : v.journal.lives = w.journal.lives ++
        [.launch (.killed child.order.program child.pid fault.name)] :=
    hv.lives.trans (enter_lives w _)
  have hlogged := uneventful_enter (w.enter (.launch (.killed child.order.program child.pid
    fault.name))) (.log .info logger ("Killing " ++ child.order.program.display ++
      s!" (pid {child.pid}) after " ++ fault.name)) rfl
  split
  · next hspared =>
      refine .killed fault [] (Nat.le_refl _) hcause (Or.inl rfl) (htold _ hlogged) ?_
      rcases Bool.or_eq_true_iff.mp hspared with hexited | hmissing
      · exact Or.inl hexited
      · refine Or.inr (Or.inr ⟨by simpa using hmissing, fault.name, ?_⟩)
        exact List.mem_cons_of_mem _ List.mem_cons_self
  · refine .killed fault [.kill child.pid] (Nat.le_refl _) hcause (Or.inr rfl) ?_
      (Or.inr (Or.inl ?_))
    · rw [enter_lives]
      exact (congrArg (· ++ [Entry.kill child.pid]) (htold _ hlogged)).trans
        (List.append_assoc _ _ _)
    · exact List.mem_cons_self

theorem stopped_closes {t : Time} {message : String}
    (hends : (child.stopped (w.advanceTo t) message).Ends w' r) : child.Closes w w' r :=
  .after (uneventful_pass w t) (abandon_closes (Or.inl ⟨message, rfl⟩) hends)

theorem conclude_closes (hexited : child.hasExited w = true)
    (hends : (child.conclude pumps w).Ends w' r) : child.Closes w w' r := by
  obtain ⟨rfl, rfl⟩ := Course.ends_ended.mp hends
  exact .exited _ _ _ (Nat.le_refl _) (enter_lives w _) hexited

theorem reap_closes (hends : (child.reap pumps w).Ends w' r) : child.Closes w w' r := by
  unfold reap at hends
  split at hends
  · next hexited => exact conclude_closes hexited hends
  · split at hends
    · next time htime =>
        rcases Course.ends_waiting.mp hends with hgo | ⟨t, message, hstop⟩
        · have hexited : child.hasExited (w.advanceTo (Time.after child.born time)) = true := by
            refine hasExited_iff.mpr ⟨Time.after child.born time, ?_, Nat.le_max_right _ _⟩
            rw [exit?, htime]
            rfl
          exact .after (uneventful_pass w _) (conclude_closes hexited hgo)
        · exact stopped_closes hstop
    · obtain ⟨t, message, hstop⟩ := Course.ends_hanging.mp hends
      exact stopped_closes hstop

/-- Turn by turn, nothing happens to the program until its end is told. -/
theorem follow_closes (hsinks : child.order.Discreet) {turns : List Turn}
    (hends : (child.follow pumps turns w).Ends w' r) : child.Closes w w' r := by
  induction turns generalizing pumps w with
  | nil =>
      obtain ⟨t, message, hstop⟩ := Course.ends_hanging.mp hends
      exact stopped_closes hstop
  | cons turn rest ih =>
      have hread := read_uneventful hsinks turn pumps w
      unfold follow at hends
      cases hturn : child.read turn pumps w with
      | mk pumps' after =>
          obtain ⟨v, reaction⟩ := after
          rw [hturn] at hread hends
          refine .after hread ?_
          cases reaction with
          | some fault =>
              have hraised : child.order.Raises fault :=
                read_fault turn pumps w (by rw [hturn])
              exact abandon_closes (Or.inr hraised) hends
          | none =>
              simp only at hends
              split at hends
              · rcases Course.ends_waiting.mp hends with hgo | ⟨t, message, hstop⟩
                · exact .after (uneventful_pass v _) (reap_closes hgo)
                · exact stopped_closes hstop
              · cases rest with
                | nil =>
                    obtain ⟨t, message, hstop⟩ := Course.ends_hanging.mp hends
                    exact stopped_closes hstop
                | cons next more =>
                    rcases Course.ends_waiting.mp hends with hgo | ⟨t, message, hstop⟩
                    · exact .after (uneventful_pass v _) (ih hgo)
                    · exact stopped_closes hstop

/-- A program that is left alone is given up only because a sink has failed. -/
theorem follow_finish_error {turns : List Turn}
    (hfinish : (child.follow pumps turns w).finish.2 = some (.error fault)) :
    child.order.Raises fault := by
  induction turns generalizing pumps w with
  | nil => cases hfinish
  | cons turn rest ih =>
      unfold follow at hfinish
      cases hturn : child.read turn pumps w with
      | mk pumps' after =>
          obtain ⟨v, reaction⟩ := after
          rw [hturn] at hfinish
          cases reaction with
          | some fault' =>
              cases hfinish
              exact read_fault turn pumps w (by rw [hturn])
          | none =>
              simp only at hfinish
              split at hfinish
              · rw [Course.finish] at hfinish
                unfold reap at hfinish
                split at hfinish
                · cases hfinish
                · split at hfinish <;> cases hfinish
              · cases rest with
                | nil => cases hfinish
                | cons next more => exact ih hfinish

end Child

/-! ### The end of a launch -/

namespace Order

variable {order : Order} {w w' : World} {r : Except Fault Outcome}

/-- What is told of a launch before it is known what becomes of it. -/
def opening (order : Order) (pid : Option Nat) : List Entry :=
  [.launch (.started order.command order.directory), .spawn order.spawn pid]

/-- How a launch in the world `w` ends: what is told of it from its start on, what its result is,
and what has become of the program. Time does not run backwards meanwhile. -/
inductive Lifetime (order : Order) (w w' : World) : Except Fault Outcome → Prop where
  | refused (reason : String) (hnow : w.now ≤ w'.now)
      (hrefused : ∀ script, w.responses.head? ≠ some (.started script))
      (htold : w'.journal.lives = w.journal.lives ++ order.opening none ++
        [.launch (.failed order.program reason)]) :
      Lifetime order w w' (.error (.launchFailed order.program reason))
  | exited (script : Script) (outcome : Outcome) (size : Nat) (tail : String)
      (hnow : w.now ≤ w'.now) (hstarted : w.responses.head? = some (.started script))
      (htold : w'.journal.lives = w.journal.lives ++ order.opening (some w.nextPid) ++
        [.launch (.exited order.program outcome.exitCode size tail)])
      (hgone : (order.child script w).hasExited w' = true) : Lifetime order w w' (.ok outcome)
  | killed (script : Script) (fault : Fault) (kills : List Entry)
      (hnow : w.now ≤ w'.now) (hstarted : w.responses.head? = some (.started script))
      (hcause : (∃ message, fault = .cancelled message) ∨ order.Raises fault)
      (hkills : kills = [] ∨ kills = [.kill w.nextPid])
      (htold : w'.journal.lives = w.journal.lives ++ order.opening (some w.nextPid) ++
        .launch (.killed order.program w.nextPid fault.name) :: kills)
      (hgone : (order.child script w).Gone w') : Lifetime order w w' (.error fault)

theorem begun_lives (order : Order) (w : World) :
    (order.begun w).journal.lives =
      w.journal.lives ++ [.launch (.started order.command order.directory)] := by
  have hlogged := uneventful_enter (w.enter (.launch (.started order.command order.directory)))
    (.log .debug Child.logger ("Launching " ++ (Value.list order.command).shown)) rfl
  exact hlogged.lives.trans (enter_lives w _)

theorem launching_lives (order : Order) (w : World) (pid : Option Nat) (nextPid : Nat) :
    ((order.begun w).launching order.spawn pid nextPid).journal.lives =
      w.journal.lives ++ order.opening pid := by
  rw [launching, enter_lives]
  exact (congrArg (· ++ [Entry.spawn order.spawn pid]) (order.begun_lives w)).trans
    (List.append_assoc _ _ _)

theorem refuse_lifetime {reason : String} {rest : List Response} (hrest : w.responses.tail = rest)
    (hrefused : ∀ script, w.responses.head? ≠ some (.started script))
    (hends : (order.refuse reason { order.begun w with responses := rest }).Ends w' r) :
    order.Lifetime w w' r := by
  obtain ⟨rfl, rfl⟩ := Course.ends_ended.mp hends
  subst hrest
  refine .refused reason (Nat.le_refl _) hrefused ?_
  rw [enter_lives]
  exact congrArg (· ++ _) (order.launching_lives w none w.nextPid)

theorem lifetime_of_closes {script : Script}
    (hstarted : w.responses.head? = some (.started script))
    (hcloses : (order.child script w).Closes (order.started w) w' r) : order.Lifetime w w' r := by
  have hopening := order.launching_lives w (some w.nextPid) (w.nextPid + 1)
  cases hcloses with
  | exited outcome size tail hnow htold hgone =>
      refine .exited script outcome size tail hnow hstarted ?_ hgone
      rw [htold]
      exact congrArg (· ++ _) hopening
  | killed fault kills hnow hcause hkills htold hgone =>
      refine .killed script fault kills hnow hstarted hcause hkills ?_ hgone
      rw [htold]
      exact congrArg (· ++ _) hopening

/-- However a launch ends, one end is told of it and its program is gone. -/
theorem lifetime_of_launch (hsinks : order.Discreet) (hends : (order.launch w).Ends w' r) :
    order.Lifetime w w' r := by
  cases hall : w.responses with
  | nil =>
      rw [launch_of_nil hall] at hends
      exact refuse_lifetime (by rw [hall]; rfl) (by simp [hall]) hends
  | cons response rest =>
      cases response with
      | refused reason =>
          rw [launch_of_refused hall] at hends
          exact refuse_lifetime (by rw [hall]; rfl) (by simp [hall]) hends
      | started script =>
          have hstarted : w.responses.head? = some (.started script) := by rw [hall]; rfl
          rw [launch_of_head hstarted] at hends
          refine lifetime_of_closes hstarted ?_
          rcases Course.ends_waiting.mp hends with hgo | ⟨t, message, hstop⟩
          · exact .after (uneventful_pass _ _) (Child.follow_closes hsinks hgo)
          · exact Child.stopped_closes hstop

theorem Lifetime.later (hlife : order.Lifetime w w' r) : Later w w' := by
  cases hlife with
  | refused reason hnow hrefused htold =>
      rw [List.append_assoc] at htold
      exact ⟨htold ▸ List.prefix_append _ _, hnow⟩
  | exited script outcome size tail hnow hstarted htold hgone =>
      rw [List.append_assoc] at htold
      exact ⟨htold ▸ List.prefix_append _ _, hnow⟩
  | killed script fault kills hnow hstarted hcause hkills htold hgone =>
      rw [List.append_assoc] at htold
      exact ⟨htold ▸ List.prefix_append _ _, hnow⟩

theorem Lifetime.gone (hlife : order.Lifetime w w' r) {script : Script}
    (hstarted : w.responses.head? = some (.started script)) : (order.child script w).Gone w' := by
  cases hlife with
  | refused reason hnow hrefused htold => exact absurd hstarted (hrefused script)
  | exited script' outcome size tail hnow hstarted' htold hgone =>
      obtain rfl : script' = script := by
        rw [hstarted] at hstarted'
        cases hstarted'
        rfl
      exact Or.inl hgone
  | killed script' fault kills hnow hstarted' hcause hkills htold hgone =>
      obtain rfl : script' = script := by
        rw [hstarted] at hstarted'
        cases hstarted'
        rfl
      exact hgone

/-- Every launch tells of its start and then of exactly one end, and no program outlives it: where
the system refuses, the launch fails; else the program has exited and there is a result, or it is
gone because it was to be killed, and the fault for whose sake it was is passed on. A program that
exits gives a result unless a sink fails or the caller is told to stop; there is no exit code just
when a signal has ended the program. -/
theorem launch_lifetime (hsinks : order.Discreet) :
    (∀ w' r, (order.launch w).Ends w' r → order.Lifetime w w' r) ∧
    ∀ script, w.responses.head? = some (.started script) → script.exit.isSome = true →
      (∀ fault, ¬ order.Raises fault) →
      ∃ w' outcome, (order.launch w).finish = (w', some (.ok outcome)) ∧
        (outcome.exitCode = none ↔ script.exitCode < 0) ∧
        (0 ≤ script.exitCode → outcome.exitCode = some script.exitCode) := by
  refine ⟨fun w' r hends => lifetime_of_launch hsinks hends, ?_⟩
  intro script hstarted hexits hquiet
  have hover : (order.launch w).finish.2.isSome = true := by
    refine order.launch_finishes fun script' hscript' => ?_
    rw [hstarted] at hscript'
    cases hscript'
    exact hexits
  obtain ⟨result, hresult⟩ := Option.isSome_iff_exists.mp hover
  cases result with
  | error fault =>
      rw [launch_of_head hstarted] at hresult
      exact absurd (Child.follow_finish_error hresult) (hquiet fault)
  | ok outcome =>
      have hcode : outcome.exitCode = Script.visibleExitCode (some script.exitCode) := by
        rw [eq_outcome_of_launch hstarted (Course.ends_of_finish hresult)]
        rfl
      refine ⟨(order.launch w).finish.1, outcome, Prod.ext_iff.mpr ⟨rfl, hresult⟩, ?_, ?_⟩
      · rw [hcode, Script.visibleExitCode, Option.filter_eq_none_iff]
        simp
      · intro hpositive
        rw [hcode, Script.visibleExitCode, Option.filter_eq_some_iff]
        exact ⟨rfl, by simpa using hpositive⟩

/-- Its sink refuses whatever it is handed. -/
def refusing : Order where
  program := .text "tool"
  args := []
  onStdout := some (.recording .stdout fun _ => some (.tooLarge .toShow))

/-- A program that prints a letter and never exits. -/
def endless : Script where
  stdout := some [⟨1, [0x61]⟩]
  exit := none

theorem launch_lifetime_of_refusing :
    refusing.Discreet ∧
      ∃ w', (refusing.launch { responses := [.started endless] }).Ends w'
          (.error (.tooLarge .toShow)) ∧
        (refusing.child endless { responses := [.started endless] }).Gone w' ∧
        ∃ kills, w'.journal.lives = refusing.opening (some 1001) ++
          .launch (.killed (.text "tool") 1001 "ValueError") :: kills := by
  have hdiscreet : refusing.Discreet := by
    intro channel s hs
    cases channel with
    | stdout =>
        cases hs
        exact Sink.recording_discreet _ _
    | stderr => cases hs
  have hends := Course.ends_of_finish (c := refusing.launch { responses := [.started endless] })
    (r := .error (.tooLarge .toShow)) rfl
  refine ⟨hdiscreet, _, hends, ?_⟩
  cases (launch_lifetime hdiscreet).1 _ _ hends with
  | killed script fault kills hnow hstarted hcause hkills htold hgone =>
      cases hstarted
      exact ⟨hgone, kills, htold⟩

end Order

end Conductor
