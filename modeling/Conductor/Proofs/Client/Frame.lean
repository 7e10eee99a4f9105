import Conductor.Proofs.Client.Contract

/-!
What a request leaves alone, and when it is over. Whatever the tool does and whenever the request is
told to stop, the current run stays as it is; and a request to a tool that exits comes to an end,
even if the sink fails on the way.
-/

namespace Conductor

open World

namespace Course

variable {α β : Type} {run : Option Run} {w : World} {due : Time} {go : World → Course α}
  {stop : World → String → Course α}

/-- However the course ends, `run` is the current run then. -/
def EndsIn (run : Option Run) (c : Course α) : Prop := ∀ w' r, c.Ends w' r → w'.current = run

theorem endsIn_ended {r : Except Fault α} (hrun : w.current = run) : (ended w r).EndsIn run := by
  intro w' r' hends
  rw [(ends_ended.mp hends).1]
  exact hrun

theorem endsIn_waiting (hgo : (go (w.advanceTo due)).EndsIn run)
    (hstop : ∀ t message, (stop (w.advanceTo t) message).EndsIn run) :
    (waiting w due go stop).EndsIn run := by
  intro w' r hends
  rcases ends_waiting.mp hends with hgone | ⟨t, message, hstopped⟩
  · exact hgo w' r hgone
  · exact hstop t message w' r hstopped

theorem endsIn_hanging (hstop : ∀ t message, (stop (w.advanceTo t) message).EndsIn run) :
    (hanging w stop).EndsIn run := by
  intro w' r hends
  obtain ⟨t, message, hstopped⟩ := ends_hanging.mp hends
  exact hstop t message w' r hstopped

theorem endsIn_andThen {c : Course α} {next : World → Except Fault α → Course β}
    (hc : c.EndsIn run) (hnext : ∀ v s, v.current = run → (next v s).EndsIn run) :
    (c.andThen next).EndsIn run := by
  intro w' r hends
  obtain ⟨v, s, hfirst, hsecond⟩ := ends_andThen.mp hends
  exact hnext v s (hc v s hfirst) w' r hsecond

end Course

/-- A sink that leaves the current run alone. -/
def Sink.Aloof (sink : Sink) : Prop := ∀ text w, (sink text w).1.current = w.current

def Order.Aloof (order : Order) : Prop := ∀ channel s, order.sink channel = some s → s.Aloof

theorem Sink.hand_current {sink : Option Sink} (hsink : ∀ s, sink = some s → s.Aloof)
    (chunks : List (List Char)) (w : World) : (hand sink chunks w).1.current = w.current := by
  fun_induction hand sink chunks w with
  | case1 => rfl
  | case2 => rfl
  | case3 sink chunk rest w v hchunk ih =>
      have hfirst := hsink sink rfl (String.ofList chunk) w
      rw [hchunk] at hfirst
      exact (ih hsink).trans hfirst
  | case4 sink chunk rest w v fault hchunk =>
      have hfirst := hsink sink rfl (String.ofList chunk) w
      rw [hchunk] at hfirst
      exact hfirst

namespace Child

variable {child : Child} {run : Option Run} {w : World}

theorem read_current (haloof : child.order.Aloof) (turn : Turn) (pumps : Pumps) (w : World) :
    (child.read turn pumps w).2.1.current = w.current := by
  have hstdout : ∀ s, child.order.onStdout = some s → s.Aloof := haloof .stdout
  have hstderr : ∀ s, child.order.onStderr = some s → s.Aloof := haloof .stderr
  rw [read_sinks]
  exact (Sink.hand_current hstderr _ _).trans (Sink.hand_current hstdout _ w)

theorem abandon_endsIn (hrun : w.current = run) (fault : Fault) :
    (child.abandon fault w).EndsIn run := by
  refine Course.endsIn_ended ?_
  split <;> exact hrun

theorem stopped_endsIn (hrun : w.current = run) (t : Time) (message : String) :
    (child.stopped (w.advanceTo t) message).EndsIn run :=
  abandon_endsIn (w := w.advanceTo t) hrun (.cancelled message)

theorem reap_endsIn (hrun : w.current = run) (pumps : Pumps) : (child.reap pumps w).EndsIn run := by
  unfold reap
  split
  · exact Course.endsIn_ended hrun
  · split
    · exact Course.endsIn_waiting (Course.endsIn_ended hrun) (stopped_endsIn hrun)
    · exact Course.endsIn_hanging (stopped_endsIn hrun)

theorem follow_endsIn (haloof : child.order.Aloof) (pumps : Pumps) (turns : List Turn)
    (hrun : w.current = run) : (child.follow pumps turns w).EndsIn run := by
  induction turns generalizing pumps w with
  | nil => exact Course.endsIn_hanging (stopped_endsIn hrun)
  | cons turn rest ih =>
      have hread := (read_current haloof turn pumps w).trans hrun
      unfold follow
      cases hturn : child.read turn pumps w with
      | mk pumps' after =>
          obtain ⟨v, fault⟩ := after
          rw [hturn] at hread
          cases fault with
          | some fault => exact abandon_endsIn hread fault
          | none =>
              simp only
              split
              · exact Course.endsIn_waiting (reap_endsIn (w := v.advanceTo v.now) hread pumps')
                  (stopped_endsIn hread)
              · cases rest with
                | nil => exact Course.endsIn_hanging (stopped_endsIn hread)
                | cons next more =>
                    exact Course.endsIn_waiting (ih (w := v.advanceTo _) pumps' hread)
                      (stopped_endsIn hread)

end Child

theorem Order.launch_endsIn {order : Order} (haloof : order.Aloof) (w : World) :
    (order.launch w).EndsIn w.current := by
  unfold launch
  simp only
  split
  · exact Course.endsIn_ended rfl
  · exact Course.endsIn_ended rfl
  · exact Course.endsIn_waiting (Child.follow_endsIn haloof _ _ rfl) (Child.stopped_endsIn rfl)

/-! ### Programs that exit -/

theorem Course.finishes_andThen {α β : Type} {c : Course α}
    {next : World → Except Fault α → Course β} (hc : c.finish.2.isSome = true)
    (hnext : ∀ v s, c.finish = (v, some s) → (next v s).finish.2.isSome = true) :
    (c.andThen next).finish.2.isSome = true := by
  rw [finish_andThen]
  cases hfinish : c.finish with
  | mk v result =>
      cases result with
      | none =>
          rw [hfinish] at hc
          cases hc
      | some s => exact hnext v s hfinish

namespace Child

variable {child : Child} {time : Time}

theorem reap_finishes (htime : child.script.exitTime? = some time) (pumps : Pumps) (w : World) :
    (child.reap pumps w).finish.2.isSome = true := by
  unfold reap
  split
  · rfl
  · rw [htime]
    rfl

/-- The pipes end at the last turn, if not before, and then only the exit is waited for. -/
theorem follow_finishes (htime : child.script.exitTime? = some time) (pumps : Pumps)
    {turns : List Turn} (hlast : ∃ turn ∈ turns, turn.isLast = true) (w : World) :
    (child.follow pumps turns w).finish.2.isSome = true := by
  induction turns generalizing pumps w with
  | nil => simp at hlast
  | cons turn rest ih =>
      unfold follow
      cases hturn : child.read turn pumps w with
      | mk pumps' after =>
          obtain ⟨v, fault⟩ := after
          cases fault with
          | some fault => rfl
          | none =>
              simp only
              split
              · exact reap_finishes htime pumps' _
              · next hopen =>
                have hlater : ∃ later ∈ rest, later.isLast = true := by
                  obtain ⟨last, hmem, htrue⟩ := hlast
                  rcases List.mem_cons.mp hmem with rfl | hmem
                  · have hdone : (child.read _ pumps w).1.isDone = true := read_isDone htrue
                    rw [hturn] at hdone
                    exact absurd hdone hopen
                  · exact ⟨last, hmem, htrue⟩
                cases rest with
                | nil => simp at hlater
                | cons next more => exact ih pumps' hlater _

end Child

theorem Order.launch_finishes (order : Order) {w : World}
    (hexits : ∀ script, w.responses.head? = some (.started script) → script.exit.isSome = true) :
    (order.launch w).finish.2.isSome = true := by
  obtain ⟨script, hscript⟩ | hnot := Response.started_or_not w.responses.head?
  · obtain ⟨moment, hmoment⟩ := Response.exists_overAt hexits w.now
    rw [hscript] at hmoment
    obtain ⟨time, htime, -⟩ := Option.map_eq_some_iff.mp hmoment
    rw [launch_of_head hscript]
    exact Child.follow_finishes htime _ (Script.exists_isLast htime) _
  · obtain ⟨v, reason, hlaunch, -, -⟩ := launch_of_not_started order hnot
    rw [hlaunch]
    rfl

namespace Client

variable {client : Client} {cwd : Option String} {sink : Option Sink}

theorem run_endsIn (hsink : ∀ s, sink = some s → s.Aloof) (args : List Value) (w : World) :
    (client.run args cwd sink w).EndsIn w.current := by
  have haloof : (client.order args cwd sink).Aloof := by
    intro channel s hs
    cases channel <;> exact hsink s hs
  unfold run
  refine Course.endsIn_andThen (Order.launch_endsIn haloof _) ?_
  intro v s hrun
  cases s with
  | error fault =>
      cases fault <;> exact Course.endsIn_ended hrun
  | ok outcome =>
      simp only
      split
      · exact Course.endsIn_ended hrun
      · split <;> exact Course.endsIn_ended hrun

/-- A request does not touch the current run. -/
theorem ask_endsIn (hsink : ∀ s, sink = some s → s.Aloof) (request : Request) (w : World) :
    (client.ask request cwd sink w).EndsIn w.current := by
  unfold ask
  refine Course.endsIn_andThen (run_endsIn hsink _ w) ?_
  intro v s hrun
  cases s with
  | error fault => exact Course.endsIn_ended hrun
  | ok outcome =>
      simp only
      split
      · exact Course.endsIn_ended hrun
      · refine Course.endsIn_ended ?_
        unfold reportExec
        split <;> exact hrun

/-- A request is over once the tool has exited. -/
theorem ask_finishes (client : Client) (request : Request) (cwd : Option String)
    (sink : Option Sink) {w : World}
    (hexits : ∀ script, w.responses.head? = some (.started script) → script.exit.isSome = true) :
    (client.ask request cwd sink w).finish.2.isSome = true := by
  have hlaunch := Order.launch_finishes (w := w.enter (.client (.started request.words)))
    (client.order request.words cwd sink) hexits
  obtain ⟨s, hs⟩ := Option.isSome_iff_exists.mp hlaunch
  obtain ⟨w', hask, -⟩ := ask_finish_of_launch (Prod.ext_iff.mpr ⟨rfl, hs⟩)
  rw [hask]
  rfl

end Client

end Conductor
