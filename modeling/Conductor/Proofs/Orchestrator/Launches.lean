import Conductor.Proofs.Orchestrator.Stint
import Conductor.Proofs.Phase.Standard

/-!
Which programs a run of the standard phases launches. The stints of a run hold all its exchanges,
and a stint comes after another only if that one has returned; so what is true of the requests of
one phase is true of the requests of a run.
-/

namespace Conductor

open World

namespace Path

theorem ne_empty_of_mem_names {text name : String} (hname : name ∈ (ofString text).names) :
    name ≠ "" := by
  obtain ⟨chars, hchars, rfl⟩ := List.mem_map.mp hname
  have hsolid := (List.mem_filter.mp hchars).2
  simp only [Bool.and_eq_true, Bool.not_eq_true', List.isEmpty_eq_false_iff] at hsolid
  simpa using hsolid.1

theorem intercalate_ne_empty {sep name : String} (hname : name ≠ "") (rest : List String) :
    String.intercalate sep (name :: rest) ≠ "" := by
  intro hempty
  cases rest with
  | nil => exact hname (by simpa using hempty)
  | cons next more =>
      rw [String.intercalate_cons_cons] at hempty
      simp [hname] at hempty

/-- A path is never written as the empty text, which would stand for no directory at all. -/
theorem toString_ofString_ne_empty (text : String) : (ofString text).toString ≠ "" := by
  unfold toString
  split
  · decide
  · next hsome =>
      intro hempty
      obtain ⟨hslashes, hnames⟩ := String.append_eq_empty_iff.mp hempty
      cases hp : (ofString text).names with
      | nil =>
          have hzero : (ofString text).slashes = 0 := by simpa using hslashes
          simp [hzero, hp] at hsome
      | cons name rest =>
          have hmem : name ∈ (ofString text).names := by simp [hp]
          rw [hp] at hnames
          exact intercalate_ne_empty (ne_empty_of_mem_names hmem) rest hnames

end Path

theorem Exchange.made_of_books (brief : Brief) {u v : World} (h : Books u v) :
    Made brief u [] v :=
  .none h.launched (by rw [h.same])

namespace Stint

variable {brief : Brief} {stint : Stint} {later stints : List Stint}

abbrev Talks (brief : Brief) (files : Workspace) : List Stint → List (List Exchange) → Prop :=
  List.Forall₂ fun stint exchanges =>
    (stint.action.activity brief).Converses brief.client files exchanges stint.result.isOk

/-- The launches of a run are those of its stints. -/
theorem Chain.exchanges {u v : World} (h : Chain brief u stints v) :
    ∃ talks, Talks brief u.files stints talks ∧ Exchange.Made brief u talks.flatten v := by
  induction stints generalizing u with
  | nil => exact ⟨[], .nil, Exchange.made_of_books brief h⟩
  | cons stint rest ih =>
      obtain ⟨hbooks, hperformed, hrest⟩ := h
      obtain ⟨exchanges, hconverses, hmade⟩ := Activity.perform_exchanges hperformed
      obtain ⟨talks, htalks, hlater⟩ := ih hrest
      have hbefore : stint.before.files = u.files := hbooks.elapses.files
      rw [hbefore] at hconverses
      rw [hperformed.elapses.files, hbefore] at htalks
      have hfirst := (Exchange.made_of_books brief hbooks).append hmade
      exact ⟨exchanges :: talks, .cons hconverses htalks, hfirst.append hlater⟩

theorem eq_nil_of_failed (hbefore : ∀ other ∈ (stint :: later).dropLast, other.result = .ok ())
    (hfailed : stint.result ≠ .ok ()) : later = [] := by
  by_contra hlater
  exact hfailed ((returned_before_cons.mp hbefore).1 hlater)

end Stint

namespace StandardPhase

open Exchange

variable {brief : Brief} {files : Workspace} {returned : Bool} {phases : List StandardPhase}
  {stints : List Stint} {exchanges : List Exchange} {talks : List (List Exchange)}

theorem exists_plans (brief : Brief) (phases : List StandardPhase) :
    ∃ plans, List.Forall₂ (Asks brief) phases plans := by
  induction phases with
  | nil => exact ⟨[], .nil⟩
  | cons phase rest ih =>
      obtain ⟨requests, hrequests⟩ := exists_asks brief phase
      obtain ⟨plans, hplans⟩ := ih
      exact ⟨requests :: plans, .cons hrequests hplans⟩

/-- Where no phase is left to ask anything, all that is left does not matter. -/
theorem covers_untaken (brief : Brief) (phases : List StandardPhase) {requests : List Request}
    (hcovers : Covers brief.client requests exchanges false) :
    ∃ plans, List.Forall₂ (Asks brief) phases plans ∧
      Covers brief.client (requests ++ plans.flatten) exchanges false := by
  obtain ⟨plans, hplans⟩ := exists_plans brief phases
  exact ⟨plans, hplans, hcovers.cut _⟩

/-- What the stints of a run ask is part of what its phases ask when all return. -/
theorem covers_stints (htalks : Stint.Talks brief files stints talks)
    (horder : stints.map (·.action) <+: phases.map (·.action))
    (hbefore : ∀ stint ∈ stints.dropLast, stint.result = .ok ())
    (hall : returned = true → stints.map (·.action) = phases.map (·.action) ∧
      ∀ stint ∈ stints, stint.result = .ok ()) :
    ∃ plans, List.Forall₂ (Asks brief) phases plans ∧
      Covers brief.client plans.flatten talks.flatten returned := by
  induction phases generalizing stints talks with
  | nil =>
      obtain rfl : stints = [] := by simpa using horder
      cases htalks
      exact ⟨[], .nil, covers_none brief.client returned⟩
  | cons phase rest ih =>
      cases htalks with
      | nil =>
          obtain rfl : returned = false := by
            cases returned with
            | false => rfl
            | true => simp at hall
          exact covers_untaken brief (phase :: rest) (covers_nil brief.client [])
      | @cons stint exchanges later talks htalk htalks =>
          obtain ⟨haction, horder⟩ : stint.action = phase.action ∧
              later.map (·.action) <+: rest.map (·.action) := by
            simpa [List.cons_prefix_cons] using horder
          rw [haction] at htalk
          obtain ⟨requests, hasks, hcovers⟩ := covers_action htalk
          cases hresult : stint.result with
          | ok done =>
              rw [hresult] at hcovers
              have hbefore' := (Stint.returned_before_cons.mp hbefore).2
              have hall' : returned = true → later.map (·.action) = rest.map (·.action) ∧
                  ∀ other ∈ later, other.result = .ok () := by
                intro hreturned
                obtain ⟨hactions, hresults⟩ := hall hreturned
                rw [List.map_cons, List.map_cons, List.cons.injEq] at hactions
                exact ⟨hactions.2, fun other hother => hresults other (by simp [hother])⟩
              obtain ⟨plans, hplans, hrest⟩ := ih htalks horder hbefore' hall'
              exact ⟨requests :: plans, .cons hasks hplans, hcovers.append hrest⟩
          | error fault =>
              rw [hresult] at hcovers
              have hfailed : stint.result ≠ .ok () := by simp [hresult]
              obtain rfl := Stint.eq_nil_of_failed hbefore hfailed
              obtain rfl : returned = false := by
                cases returned with
                | false => rfl
                | true => exact absurd ((hall rfl).2 stint (by simp)) hfailed
              cases htalks
              obtain ⟨plans, hplans, hcut⟩ := covers_untaken brief rest hcovers
              refine ⟨requests :: plans, .cons hasks hplans, ?_⟩
              rw [List.flatten_cons, List.flatten_cons, List.flatten_nil, List.append_nil]
              exact hcut

/-- Without a plan that can be read nothing is asked. -/
theorem talks_of_unreadable {plansDir : Value} {settleSeconds : Binary64}
    (hunreadable : ∀ path content, planPath brief.workspace plansDir brief.planRef = .ok path →
      files.readText path ≠ .ok content)
    (hfirst : phases.head? = some (loadPlan plansDir settleSeconds))
    (htalks : Stint.Talks brief files stints talks)
    (horder : stints.map (·.action) <+: phases.map (·.action))
    (hbefore : ∀ stint ∈ stints.dropLast, stint.result = .ok ()) : talks.flatten = [] := by
  cases htalks with
  | nil => rfl
  | @cons stint exchanges later talks htalk htalks =>
      have haction : stint.action = (loadPlan plansDir settleSeconds).action := by
        obtain ⟨rest, rfl⟩ := List.head?_eq_some_iff.mp hfirst
        rw [List.map_cons, List.map_cons, List.cons_prefix_cons] at horder
        exact horder.1
      rw [haction] at htalk
      have hsilent := (loadPlanActivity_isSilent plansDir settleSeconds brief).exchanges_eq htalk
      have hfailed : stint.result ≠ .ok () := by
        intro hok
        rw [hok] at htalk
        obtain ⟨path, content, hpath, hread⟩ := readText_of_loadPlan htalk
        exact hunreadable path content hpath hread
      obtain rfl := Stint.eq_nil_of_failed hbefore hfailed
      cases htalks
      rw [hsilent]
      rfl

/-- All that is asked of the planning tool in a run by default, where these tasks are executed. -/
def itinerary (planRef : String) (agent : Value) (agentExecutes : Bool) (tasks : List String) :
    List Request :=
  .prompt "plan" planRef ::
    ((if agentExecutes then rounds planRef agent tasks else []) ++ [.verify planRef])

example (planRef task : String) (agent : Value) :
    (itinerary planRef agent true [task]).map Request.words =
      [[.text "prompt", .text "plan", .text planRef],
        [.text "tasks", .text "next", .text planRef, .text "--prompt"],
        [.text "exec", .text task, .text planRef, .text "--agent", agent],
        [.text "tasks", .text "next", .text planRef, .text "--prompt"],
        [.text "verify", .text planRef]] := rfl

theorem exists_itinerary {plansDir : Value} {delaySeconds : Binary64} {agentExecutes : Bool}
    {plans : List (List Request)}
    (hplans : List.Forall₂ (Asks brief) (defaults plansDir delaySeconds agentExecutes) plans) :
    ∃ tasks, plans.flatten = itinerary brief.planRef brief.agent agentExecutes tasks := by
  simp only [defaults, List.forall₂_cons_left_iff, List.forall₂_nil_left_iff] at hplans
  obtain ⟨_, _, hload, ⟨_, _, hprompt, ⟨_, _, hresearch, ⟨_, _, hwork, ⟨_, _, hverify, rfl, rfl⟩,
    rfl⟩, rfl⟩, rfl⟩, rfl⟩ := hplans
  cases hload
  cases hprompt
  cases hresearch
  cases hverify
  cases agentExecutes with
  | false =>
      cases hwork
      exact ⟨[], rfl⟩
  | true =>
      cases hwork with
      | agentExec _ tasks => exact ⟨tasks, rfl⟩

end StandardPhase

namespace Orchestrator

open StandardPhase

/-- An orchestrator with the phases that a run has by default. -/
def standard (client : Client) (dir : String) (plansDir : Value) (delaySeconds : Binary64)
    (agentExecutes : Bool) : Orchestrator where
  client
  workspace := .ofString dir
  actions := (defaults plansDir delaySeconds agentExecutes).map (·.action)

variable {client : Client} {dir planRef : String} {plansDir agent : Value}
  {delaySeconds : Binary64} {agentExecutes : Bool} {w w' : World} {result : Except Fault Nat}

theorem spawn_standard (exchange : Exchange) :
    exchange.spawn ((standard client dir plansDir delaySeconds agentExecutes).briefing planRef
      agent) =
        ⟨client.binary :: exchange.request.words, some (Path.ofString dir).toString, none⟩ := by
  have hdir : (Path.ofString dir).toString.isEmpty = false := by
    simpa using Path.toString_ofString_ne_empty dir
  simp [Exchange.spawn, Order.spawn, Order.directory, Order.command, Client.order, briefing,
    standard, hdir]

/-- What is asked in a run of the standard phases, whether it is refused or not, and however it
ends. -/
theorem run_covers
    (hends : ((standard client dir plansDir delaySeconds agentExecutes).run planRef agent w).Ends w'
      result) :
    ∃ exchanges tasks returned,
      Exchange.Made ((standard client dir plansDir delaySeconds agentExecutes).briefing planRef
        agent) w exchanges w' ∧
      Exchange.Covers client (itinerary planRef agent agentExecutes tasks) exchanges returned ∧
      ((∀ path content, planPath (.ofString dir) plansDir planRef = .ok path →
        w.files.readText path ≠ .ok content) → exchanges = []) ∧
      (w.runCount < w'.runCount → w'.progress?.map (·.1) = some .completed → returned = true) := by
  by_cases hbusy : isBusy w = true
  · rw [run, if_pos hbusy] at hends
    obtain ⟨rfl, -⟩ := Course.ends_ended.mp hends
    exact ⟨[], [], false, .none rfl rfl, Exchange.covers_nil client _, fun _ => rfl,
      fun hbegun => absurd hbegun (Nat.lt_irrefl _)⟩
  · obtain ⟨stints, hchain, horder, hbefore, hall⟩ :=
      run_chain (Bool.eq_false_iff.mpr hbusy) hends
    obtain ⟨talks, htalks, hmade⟩ := hchain.exchanges
    let returned : Bool := decide (w.runCount < w'.runCount) &&
      decide (w'.progress?.map (·.1) = some .completed)
    have hreturned : returned = true ↔
        w.runCount < w'.runCount ∧ w'.progress?.map (·.1) = some .completed := by
      simp [returned]
    obtain ⟨plans, hplans, hcovers⟩ := covers_stints htalks horder hbefore
      fun hdone => hall (hreturned.mp hdone).1 (hreturned.mp hdone).2
    obtain ⟨tasks, htasks⟩ := exists_itinerary hplans
    rw [htasks] at hcovers
    have hfirst : (defaults plansDir delaySeconds agentExecutes).head? =
        some (loadPlan plansDir (delaySeconds.mul (.ofDivision 1 2))) := rfl
    refine ⟨talks.flatten, tasks, returned, hmade, hcovers, ?_, ?_⟩
    · intro hunreadable
      refine talks_of_unreadable ?_ hfirst htalks horder hbefore
      exact hunreadable
    · intro hbegun hcompleted
      exact hreturned.mpr ⟨hbegun, hcompleted⟩

/-- Whatever the system answers to its launches, a run of the standard phases launches the tool in
the workspace for the first requests of an itinerary, and for nothing else. A task is executed only
right after it was named. Without a plan that can be read there is no launch; there is none after
one that was not answered; and a run is completed only at the end of the itinerary. -/
theorem run_launches
    (hends : ((standard client dir plansDir delaySeconds agentExecutes).run planRef agent w).Ends w'
      result) :
    ∃ (exchanges : List Exchange) (tasks : List String),
      w'.journal.launched = w.journal.launched ++ exchanges.map (fun exchange =>
        ⟨client.binary :: exchange.request.words, some (Path.ofString dir).toString, none⟩) ∧
      Exchange.Served w.responses exchanges ∧
      exchanges.map (·.request) <+: itinerary planRef agent agentExecutes tasks ∧
      Exchange.Linked client exchanges ∧
      ((∀ path content, planPath (.ofString dir) plansDir planRef = .ok path →
        w.files.readText path ≠ .ok content) → exchanges = []) ∧
      (∀ exchange ∈ exchanges.dropLast, exchange.IsAnswered client) ∧
      (w.runCount < w'.runCount → w'.progress?.map (·.1) = some .completed →
        exchanges.map (·.request) = itinerary planRef agent agentExecutes tasks ∧
          ∀ exchange ∈ exchanges, exchange.IsAnswered client) := by
  obtain ⟨exchanges, tasks, returned, hmade, hcovers, hunreadable, hcompleted⟩ := run_covers hends
  refine ⟨exchanges, tasks, ?_, hmade.served, hcovers.order, hcovers.linked, hunreadable,
    hcovers.answered, ?_⟩
  · rw [hmade.launched, List.map_congr_left]
    intro exchange _
    exact spawn_standard exchange
  · intro hbegun hdone
    exact hcovers.complete (hcompleted hbegun hdone)

/-- A program that prints a text and exits. -/
def printing (output : String) : Response :=
  .started { stdout := some [⟨0, Utf8.encode output⟩] }

/-- A world with an empty plan, of which one task is left. -/
def oneTaskLeft : World where
  files := Workspace.put {} ["plan.md"] (.file [])
  responses := [printing "Go on.", printing "**Task ID**: task-1", printing "Written.",
    printing "All tasks completed", printing "Report saved: report.md"]

theorem run_launches_of_oneTaskLeft :
    ∃ w', ((standard {} "/workspace" defaultPlansDir ⟨0⟩ true).run "/plan.md" (.text "agent")
        oneTaskLeft).Ends w' (.ok 0) ∧
      ∃ (exchanges : List Exchange) (tasks : List String), exchanges.length = 5 ∧
        exchanges.map (·.request) = itinerary "/plan.md" (.text "agent") true tasks ∧
        ∀ exchange ∈ exchanges, exchange.IsAnswered {} := by
  let course := (standard {} "/workspace" defaultPlansDir ⟨0⟩ true).run "/plan.md" (.text "agent")
    oneTaskLeft
  obtain ⟨hfinish, hbegun, hdone, hcount⟩ : course.finish.2 = some (.ok 0) ∧
      oneTaskLeft.runCount < course.finish.1.runCount ∧
      course.finish.1.progress?.map (·.1) = some .completed ∧
      course.finish.1.journal.launched.length = 5 := by decide +kernel
  have hends : course.Ends course.finish.1 (.ok 0) := Course.ends_of_finish hfinish
  obtain ⟨exchanges, tasks, hlaunched, -, -, -, -, -, hcompleted⟩ := run_launches hends
  obtain ⟨horder, hanswered⟩ := hcompleted hbegun hdone
  refine ⟨_, hends, exchanges, tasks, ?_, horder, hanswered⟩
  rw [hlaunched] at hcount
  simpa [oneTaskLeft, Journal.launched, Journal.seen] using hcount

end Orchestrator

end Conductor
