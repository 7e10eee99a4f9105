import Conductor.Proofs.Activity

/-!
What holds of a course that is not alone. While it waits, others may change the world. A course
abides by a condition on the world if the condition holds whenever it waits, and if it needs no more
than that to go on. Whatever an activity does, it abides by every condition that its single steps
keep.
-/

namespace Conductor

open World

namespace Course

variable {α β : Type} {p : World → Prop} {q : World → Except Fault α → Prop}
  {q' : World → Except Fault β → Prop}

/-- Whenever the course waits, `p` holds; and if `p` holds again when it goes on or is told to stop,
whatever has happened in between, it goes on like this and ends with `q`. -/
inductive Abides (p : World → Prop) (q : World → Except Fault α → Prop) : Course α → Prop where
  | ended {w : World} {r : Except Fault α} (hend : q w r) : Abides p q (ended w r)
  | waiting {w : World} {due : Time} {go : World → Course α} {stop : World → String → Course α}
      (hwait : p w) (hgo : ∀ v, p v → Abides p q (go v))
      (hstop : ∀ v message, p v → Abides p q (stop v message)) :
      Abides p q (waiting w due go stop)
  | hanging {w : World} {stop : World → String → Course α} (hwait : p w)
      (hstop : ∀ v message, p v → Abides p q (stop v message)) : Abides p q (hanging w stop)

/-- The course abides by `p` to its end. -/
def Keeps (p : World → Prop) (c : Course α) : Prop := c.Abides p fun w _ => p w

theorem Abides.world {c : Course α} {held : World → Prop} (h : c.Abides p q)
    (hp : ∀ w, p w → held w) (hq : ∀ w r, q w r → held w) : held c.world := by
  cases h with
  | ended hend => exact hq _ _ hend
  | waiting hwait hgo hstop => exact hp _ hwait
  | hanging hwait hstop => exact hp _ hwait

theorem Abides.mono {c : Course α} {q' : World → Except Fault α → Prop} (h : c.Abides p q)
    (hq : ∀ w r, q w r → q' w r) : c.Abides p q' := by
  induction h with
  | ended hend => exact .ended (hq _ _ hend)
  | waiting hwait hgo hstop ihgo ihstop => exact .waiting hwait ihgo ihstop
  | hanging hwait hstop ihstop => exact .hanging hwait ihstop

theorem abides_andThen {c : Course α} {next : World → Except Fault α → Course β}
    (hc : c.Abides p q) (hnext : ∀ v s, q v s → (next v s).Abides p q') :
    (c.andThen next).Abides p q' := by
  induction hc with
  | ended hend => exact hnext _ _ hend
  | waiting hwait hgo hstop ihgo ihstop => exact .waiting hwait ihgo ihstop
  | hanging hwait hstop ihstop => exact .hanging hwait ihstop

theorem abides_bind {c : Course α} {next : World → α → Course β} (hc : c.Abides p q)
    (hnext : ∀ v a, q v (.ok a) → (next v a).Abides p q')
    (hfault : ∀ v fault, q v (.error fault) → q' v (.error fault)) :
    (c.bind next).Abides p q' := by
  apply abides_andThen hc
  intro v s hs
  cases s with
  | ok a => exact hnext v a hs
  | error fault => exact .ended (hfault v fault hs)

theorem keeps_ended {w : World} (hw : p w) (r : Except Fault α) : (ended w r).Keeps p := .ended hw

theorem keeps_andThen {c : Course α} {next : World → Except Fault α → Course β} (hc : c.Keeps p)
    (hnext : ∀ v s, p v → (next v s).Keeps p) : (c.andThen next).Keeps p :=
  abides_andThen hc fun v s hv => hnext v s hv

theorem keeps_bind {c : Course α} {next : World → α → Course β} (hc : c.Keeps p)
    (hnext : ∀ v a, p v → (next v a).Keeps p) : (c.bind next).Keeps p :=
  abides_bind hc (fun v a hv => hnext v a hv) fun _ _ hv => hv

/-- What a course waits for has come. -/
def resume : Course α → Course α
  | ended w r => ended w r
  | waiting w due go _ => go (w.advanceTo due)
  | hanging w stop => hanging w stop

theorem Abides.inWorld {c : Course α} {w : World} (h : c.Abides p q) (hw : p w)
    (hq : ∀ r, q w r) : (c.inWorld w).Abides p q := by
  cases h with
  | ended hend => exact .ended (hq _)
  | waiting hwait hgo hstop => exact .waiting hw hgo hstop
  | hanging hwait hstop => exact .hanging hw hstop

theorem Abides.resume {c : Course α} (h : c.Abides p q)
    (hpass : ∀ w t, p w → p (w.advanceTo t)) : c.resume.Abides p q := by
  cases h with
  | ended hend => exact .ended hend
  | waiting hwait hgo hstop => exact hgo _ (hpass _ _ hwait)
  | hanging hwait hstop => exact .hanging hwait hstop

theorem Abides.cancel {c : Course α} (h : c.Abides p q) (message : String) :
    (c.cancel message).Abides p q := by
  cases h with
  | ended hend => exact .ended hend
  | waiting hwait hgo hstop => exact hstop _ message hwait
  | hanging hwait hstop => exact hstop _ message hwait

end Course

namespace Flow

variable {α β : Type} {p : World → Prop} {q : World → Except Fault α → Prop} {w : World}

theorem stamped_abides {next : Stamp → Flow α} (hnext : ∀ stamp, (next stamp w).Abides p q)
    (hfault : ∀ fault, q w (.error fault)) : (stamped next w).Abides p q := by
  unfold stamped
  cases w.stamp with
  | ok stamp => exact hnext stamp
  | error fault => exact .ended (hfault fault)

theorem step_abides {act : World → World × Option Fault} {q : World → Except Fault Unit → Prop}
    (hq : ∀ r, q (act w).1 r) : (step act w).Abides p q := by
  unfold step
  cases hact : act w with
  | mk v fault =>
      rw [hact] at hq
      cases fault <;> exact .ended (hq _)

theorem step_keeps {act : World → World × Option Fault} (hact : p (act w).1) :
    (step act w).Keeps p := step_abides fun _ => hact

end Flow

namespace World

/-- No step of an activity puts an end to `p`. -/
def IsKept (p : World → Prop) : Prop := ∀ ⦃u v⦄, Step u v → p u → p v

variable {p : World → Prop} {u v : World}

theorem IsKept.steps (hp : IsKept p) (hsteps : Steps u v) (hu : p u) : p v := by
  induction hsteps with
  | refl => exact hu
  | tail _ hstep ih => exact hp hstep ih

theorem IsKept.stirs (hp : IsKept p) (hstirs : Stirs u v) (hu : p u) : p v :=
  hp.steps hstirs.steps hu

theorem IsKept.enter (hp : IsKept p) {entry : Entry} (haside : entry.isAside = true) (hu : p u) :
    p (u.enter entry) :=
  hp.stirs (stirs_enter u haside) hu

end World

theorem Activity.pause_keeps {p : World → Prop} {w : World} (span : Option Time) (hw : p w) :
    (pause span w).Keeps p := by
  cases span with
  | none => exact .hanging hw fun _ _ hv => .ended hv
  | some span => exact .waiting hw (fun _ hv => .ended hv) fun _ _ hv => .ended hv

section

variable {p : World → Prop} (hp : IsKept p) {w : World}
include hp

namespace Child

variable {child : Child} {pumps : Pumps}

theorem abandon_keeps (fault : Fault) (hw : p w) : (child.abandon fault w).Keeps p :=
  .ended (hp.stirs (abandon_stirs (.ended _ _)).1 hw)

theorem stopped_keeps (w : World) (message : String) (hw : p w) :
    (child.stopped w message).Keeps p := abandon_keeps hp _ hw

theorem conclude_keeps (hw : p w) : (child.conclude pumps w).Keeps p :=
  .ended (hp.stirs (conclude_stirs (.ended _ _)) hw)

theorem reap_keeps (hw : p w) : (child.reap pumps w).Keeps p := by
  unfold reap
  split
  · exact conclude_keeps hp hw
  · split
    · exact .waiting hw (fun v hv => conclude_keeps hp hv) (stopped_keeps hp)
    · exact .hanging hw (stopped_keeps hp)

theorem follow_keeps (hsteady : child.order.Steady) (turns : List Turn) (hw : p w) :
    (child.follow pumps turns w).Keeps p := by
  induction turns generalizing pumps w with
  | nil => exact .hanging hw (stopped_keeps hp)
  | cons turn rest ih =>
      have hread := hp.stirs (read_stirs hsteady turn pumps w) hw
      unfold follow
      cases hturn : child.read turn pumps w with
      | mk pumps' after =>
          obtain ⟨v, fault⟩ := after
          rw [hturn] at hread
          cases fault with
          | some fault => exact abandon_keeps hp fault hread
          | none =>
              simp only
              split
              · exact .waiting hread (fun v hv => reap_keeps hp hv) (stopped_keeps hp)
              · cases rest with
                | nil => exact .hanging hread (stopped_keeps hp)
                | cons next more =>
                    exact .waiting hread (fun v hv => ih hv) (stopped_keeps hp)

end Child

theorem Order.launch_keeps {order : Order} (hsteady : order.Steady) (hw : p w) :
    (order.launch w).Keeps p := by
  have hbegun := hp.stirs (order.begun_stirs w) hw
  have hrefused : p (order.refused w) := hp (.launch _ _ _ _) hbegun
  cases hall : w.responses with
  | nil =>
      rw [launch_of_nil hall]
      exact .ended (hp.stirs (refuse_ends (by rw [hall]; rfl) (.ended _ _)).2 hrefused)
  | cons response rest =>
      cases response with
      | refused reason =>
          rw [launch_of_refused hall]
          exact .ended (hp.stirs (refuse_ends (by rw [hall]; rfl) (.ended _ _)).2 hrefused)
      | started script =>
          rw [launch_of_started hall]
          have hstarted : p (order.started w) := hp (.launch _ _ _ _) hbegun
          apply Course.Abides.waiting hstarted
          · intro v hv
            exact Child.follow_keeps hp hsteady _ hv
          · exact Child.stopped_keeps hp

namespace Client

variable {client : Client} {cwd : Option String} {sink : Option Sink}

theorem run_keeps (hsteady : ∀ s, sink = some s → s.Steady) (args : List Value) (hw : p w) :
    (client.run args cwd sink w).Keeps p := by
  have hboth : (client.order args cwd sink).Steady := ⟨hsteady, hsteady⟩
  unfold run
  apply Course.keeps_andThen (Order.launch_keeps hp hboth (hp.enter rfl hw))
  intro v s hv
  cases s with
  | error fault =>
      cases fault
      case launchFailed program reason =>
        exact .ended (hp.enter rfl (hp.enter rfl hv))
      all_goals exact .ended hv
  | ok outcome =>
      simp only
      split
      · exact .ended (hp.enter rfl hv)
      · split <;> exact .ended (hp.enter rfl hv)

theorem ask_keeps (hsteady : ∀ s, sink = some s → s.Steady) (request : Request) (hw : p w) :
    (client.ask request cwd sink w).Keeps p := by
  unfold ask
  apply Course.keeps_bind (run_keeps hp hsteady _ hw)
  intro v outcome hv
  split
  · exact .ended hv
  · apply Course.keeps_ended
    unfold reportExec
    split
    · exact hp.enter rfl hv
    · exact hv

end Client

namespace Activity

variable {brief : Brief} {phaseId : String}

/-- An activity abides by what its steps keep. -/
theorem carryOut_keeps (activity : Activity) (hw : p w) :
    (activity.carryOut brief phaseId w).Keeps p := by
  induction activity generalizing w with
  | done result => exact .ended hw
  | fail fault => exact .ended hw
  | log message level next ih =>
      have hlogged : p (w.announce (logEvent phaseId message level)).1 :=
        hp.stirs (stirs_announce w fun _ => Or.inl rfl) hw
      exact Course.keeps_bind (Flow.step_keeps hlogged) fun _ _ hv => ih hv
  | store key value next ih =>
      have hstored : p (keep phaseId key value w).1 :=
        hp.stirs (keep_stirs phaseId key value w) hw
      exact Course.keeps_bind (Flow.step_keeps hstored) fun _ _ hv => ih hv
  | sleep span next ih =>
      exact Course.keeps_bind (pause_keeps span hw) fun v _ hv => ih hv
  | ask request echo next ih =>
      exact Course.keeps_bind (Client.ask_keeps hp sink_steady request hw) fun v answer hv =>
        ih answer hv
  | read path next ih => exact ih _ hw

theorem perform_keeps (activity : Activity) (hw : p w) :
    (activity.perform brief phaseId w).Keeps p :=
  Course.keeps_bind (carryOut_keeps hp activity hw) fun _ _ hv => .ended hv

end Activity

end

end Conductor
