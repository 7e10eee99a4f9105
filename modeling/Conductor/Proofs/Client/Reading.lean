import Conductor.Proofs.Client.Contract
import Conductor.Proofs.Reply.Notice

/-!
What can go wrong when a reply is read. Of all kinds of replies, two things only: a mandatory field
is missing, which is told as a fault of the tool together with the whole text, or a number is too
long. The second is not told as a fault of the tool, so it is the one way in which something else
comes out of a request after a clean exit.
-/

namespace Conductor

namespace Reply

open Text

variable {problem : Problem} {raw : String}

theorem map_eq_error_iff {α β : Type} {x : Except Problem α} {f : α → β} :
    x.map f = .error problem ↔ x = .error problem := by
  cases x <;> simp [Except.map]

/-- The kinds of replies. -/
inductive Kind where
  | notice (notice : Notice)
  | prompt
  | codeMap
  | taskQueue
  | nextTask
  | workflowStatus
  | guidance
  | agents
  | execFailure
  deriving DecidableEq, Repr

namespace Kind

/-- What a text is read as. -/
def read : Kind → String → Except Problem Value
  | notice .plan, raw => (Plan.decode raw).map Plan.value
  | notice .verification, raw => (Verification.decode raw).map Verification.value
  | notice .spec, raw => (Spec.decode raw).map Spec.value
  | prompt, raw => .ok (.text (trim raw))
  | codeMap, raw => (CodeMap.decode raw).map CodeMap.value
  | taskQueue, raw => .ok (TaskQueue.decode raw).value
  | nextTask, raw => .ok (NextTask.decode raw).value
  | workflowStatus, raw => (WorkflowStatus.decode raw).map WorkflowStatus.value
  | guidance, raw => .ok (Guidance.decode raw).value
  | agents, raw => .ok (agentsValue (Agent.decode raw))
  | execFailure, raw => .ok (textOrNull (ExecFailure.decode raw))

/-- The problem with a text that lacks a mandatory field. -/
inductive Lacks : Kind → String → Problem → Prop
  | notice {notice : Notice} {raw : String} (h : ¬ notice.IsIn raw.toList) :
      Lacks (.notice notice) raw (.unreadable notice.name raw)
  | workflowStatus {raw : String} (h : ¬ SomewhereIn WorkflowStatus.IdAt raw.toList) :
      Lacks .workflowStatus raw (.unreadable "workflow status" raw)

/-- The numbers that are read, in order. -/
def numerals : Kind → List Char → List (List Char → Prop)
  | notice kind, s => kind.numerals s
  | codeMap, s => CodeMap.counts s
  | workflowStatus, s => WorkflowStatus.counts s
  | _, _ => []

/-- The problem with a text that lacks nothing, but has a number that is too long. -/
def Overflows (kind : Kind) (raw : String) (problem : Problem) : Prop :=
  (∀ other, ¬ kind.Lacks raw other) ∧ Overlong (kind.numerals raw.toList) problem

theorem Lacks.eq_unreadable {kind : Kind} (h : kind.Lacks raw problem) :
    ∃ name, problem = .unreadable name raw := by
  cases h with
  | notice h => exact ⟨_, rfl⟩
  | workflowStatus h => exact ⟨_, rfl⟩

theorem lacks_or_overflows_iff {kind : Kind} {Has : Prop} {name : String}
    (hlacks : ∀ other, kind.Lacks raw other ↔ ¬ Has ∧ other = .unreadable name raw) :
    kind.Lacks raw problem ∨ kind.Overflows raw problem ↔
      ¬ Has ∧ problem = .unreadable name raw ∨
        Has ∧ Overlong (kind.numerals raw.toList) problem := by
  have hnone : (∀ other, ¬ kind.Lacks raw other) ↔ Has := by
    simp [hlacks]
  rw [Overflows, hnone, hlacks]

theorem read_notice_eq_error_iff {notice : Notice} :
    (Kind.notice notice).read raw = .error problem ↔ notice.read raw = .error problem := by
  cases notice <;> exact map_eq_error_iff.trans map_eq_error_iff.symm

/-- A text has no reading exactly for one of the two reasons. -/
theorem read_eq_error_iff (kind : Kind) :
    kind.read raw = .error problem ↔ kind.Lacks raw problem ∨ kind.Overflows raw problem := by
  cases kind with
  | notice notice =>
      rw [read_notice_eq_error_iff, Notice.read_eq_error_iff, lacks_or_overflows_iff]
      · rfl
      · intro other
        constructor
        · rintro ⟨hmissing⟩
          exact ⟨hmissing, rfl⟩
        · rintro ⟨hmissing, rfl⟩
          exact .notice hmissing
  | workflowStatus =>
      rw [read, map_eq_error_iff, WorkflowStatus.decode_eq_error_iff, lacks_or_overflows_iff]
      · rfl
      · intro other
        constructor
        · rintro ⟨⟩
          exact ⟨‹_›, rfl⟩
        · rintro ⟨hmissing, rfl⟩
          exact .workflowStatus hmissing
  | codeMap =>
      have hnone : ∀ other, ¬ Lacks .codeMap raw other := by rintro other ⟨⟩
      rw [or_iff_right (hnone problem), Overflows, and_iff_right hnone, read, map_eq_error_iff]
      exact CodeMap.decode_eq_error_iff
  | _ =>
      refine iff_of_false (by rintro ⟨⟩) ?_
      rintro (⟨⟨⟩⟩ | ⟨-, hlong⟩)
      exact hlong

end Kind

end Reply

/-- The fault is told as one of the planning tool: it could not be run, it failed, what it printed
lacks something, or it reported a failure itself. -/
def Fault.IsOfTool : Fault → Prop
  | toolNotFound _ | commandFailed .. | reply (.unreadable ..) | execReported .. | stillPending ..
  | toolReported .. => True
  | _ => False

namespace Request

open Reply

/-- How the answer to a request is read, if it has one that is read at all. -/
def kind? : Request → Option Kind
  | plan _ => some (.notice .plan)
  | verify _ => some (.notice .verification)
  | prompt .. => some .prompt
  | map _ => some .codeMap
  | spec .. => some (.notice .spec)
  | decompose _ | tasksList _ => some .taskQueue
  | tasksNext _ => some .nextTask
  | exec .. => some .execFailure
  | workflowStatus => some .workflowStatus
  | workflowNext => some .guidance
  | agents => some .agents
  | verifyPrompt .. | tasksComplete .. | tasksStart .. | workflowStart _ | workflowTransition .. =>
    none

variable {request : Request} {binary : Value} {out : String} {fault : Fault}

theorem ofReply_eq_error_iff {α : Type} {x : Except Problem α} :
    ofReply x = .error fault ↔ ∃ problem, x = .error problem ∧ fault = .reply problem := by
  cases x <;> simp [ofReply, eq_comm]

/-- An answer that does not come from an execution is refused only as a reply of its kind. -/
theorem decode_eq_error_iff (hexec : request.kind? ≠ some .execFailure) :
    request.decode binary out = .error fault ↔
      ∃ kind ∈ request.kind?, ∃ problem,
        kind.read out = .error problem ∧ fault = .reply problem := by
  cases request with
  | exec => exact absurd rfl hexec
  | plan | verify | map | spec | workflowStatus =>
      simp only [kind?, Option.mem_some_iff, exists_eq_left', Kind.read, map_eq_error_iff]
      exact ofReply_eq_error_iff
  | _ => simp [decode, kind?, Kind.read]

/-- A fault of a request that could be read but for one of its numbers is not told as one of the
tool, and there is no other such fault. -/
theorem decode_fault_iff (htexts : ∀ word ∈ binary :: request.words, word.isText = true) :
    request.decode binary out = .error fault ∧ ¬ fault.IsOfTool ↔
      ∃ kind ∈ request.kind?, ∃ problem, fault = .reply problem ∧ kind.Overflows out problem := by
  by_cases hexec : request.kind? = some .execFailure
  · -- What an execution reports is told as a fault of the tool, and nothing else is refused.
    cases request with
    | exec task planRef agent =>
        refine iff_of_false ?_ ?_
        · rintro ⟨herror, hfault⟩
          cases hfailure : ExecFailure.decode out with
          | none =>
              simp only [decode, hfailure] at herror
              cases herror
          | some failure =>
              cases herror.symm.trans (((Client.decode_exec out htexts).1 failure).mp hfailure)
              exact hfault trivial
        · rintro ⟨kind, ⟨⟩, problem, -, -, hlong⟩
          exact hlong
    | _ => cases hexec
  · rw [decode_eq_error_iff hexec]
    constructor
    · rintro ⟨⟨kind, hkind, problem, hread, rfl⟩, hfault⟩
      rcases (Kind.read_eq_error_iff kind).mp hread with hlacks | hlong
      · obtain ⟨name, rfl⟩ := hlacks.eq_unreadable
        exact absurd trivial hfault
      · exact ⟨kind, hkind, problem, rfl, hlong⟩
    · rintro ⟨kind, hkind, problem, rfl, hlong⟩
      refine ⟨⟨kind, hkind, problem, (Kind.read_eq_error_iff kind).mpr (Or.inr hlong), rfl⟩, ?_⟩
      obtain ⟨digits, rfl⟩ := hlong.2.eq_numberTooLong
      exact id

end Request

namespace Client

open World Reply Text

/-- A text of any kind has no reading exactly if a mandatory field is missing, and then the problem
holds the whole text, or if a number that is read has too many digits. So after a clean exit of the
tool a request ends in a fault that is not told as one of the tool exactly if what was printed lacks
nothing and has such a number. -/
theorem ask_fault_iff (client : Client) (request : Request) :
    (∀ (kind : Kind) (raw : String) (problem : Problem), kind.read raw = .error problem ↔
      kind.Lacks raw problem ∨ kind.Overflows raw problem) ∧
    ∀ (cwd : Option String) (sink : Option Sink) (w : World) (script : Script),
      client.binary.isText = true →
      (∀ task planRef agent, request = .exec task planRef agent → agent.isText = true) →
      (∀ s, sink = some s → s.Harmless) → w.responses.head? = some (.started script) →
      script.exit.isSome = true → script.exitCode = 0 →
      ∃ w' result, (client.ask request cwd sink w).finish = (w', some result) ∧
        ∀ fault, (result = .error fault ∧ ¬ fault.IsOfTool) ↔
          ∃ kind ∈ request.kind?, ∃ problem, fault = .reply problem ∧
            kind.Overflows (client.printed script .stdout) problem := by
  refine ⟨fun kind raw problem => kind.read_eq_error_iff, ?_⟩
  intro cwd sink w script hbinary hagent hsink hscript hexit hcode
  have hexits : ∀ other, w.responses.head? = some (.started other) → other.exit.isSome = true := by
    intro other hother
    cases hscript.symm.trans hother
    exact hexit
  obtain ⟨w', s, hask, -, -, hstarted⟩ := @ask_finish client request cwd sink w hsink hexits
  obtain rfl := hstarted script hscript
  refine ⟨w', _, hask, ?_⟩
  rw [verdict_of_clean ((Order.outcome_succeeded _ script).mpr hcode)]
  exact fun fault => Request.decode_fault_iff (texts_of_agent hbinary hagent)

/-- The tool prints a map of the code with more files than can be counted. -/
def longMap : Script where
  stdout := some [⟨0, Utf8.encode
    (String.ofList ("Files: ".toList ++ List.replicate (maxDigits + 1) '1'))⟩]

theorem ask_fault_of_longMap :
    ∃ w' fault, (({} : Client).ask (.map "summary") none none
        { responses := [.started longMap] }).finish = (w', some (.error fault)) ∧
      ¬ fault.IsOfTool ∧ fault.name = "ValueError" := by
  have hprinted : (printed {} longMap .stdout).toList =
      "Files: ".toList ++ List.replicate (maxDigits + 1) '1' := by
    rw [printed_eq_decode (by decide), String.toList_ofList]
    have hsent : longMap.sent .stdout = Utf8.encode
        (String.ofList ("Files: ".toList ++ List.replicate (maxDigits + 1) '1')) :=
      List.append_nil _
    rw [hsent, Utf8.decode_encode, String.toList_ofList]
  have hlong : Kind.Overflows .codeMap (printed {} longMap .stdout)
      (.numberTooLong (maxDigits + 1)) := by
    refine ⟨by rintro other ⟨⟩, Or.inl ⟨List.replicate (maxDigits + 1) '1', ?_, ?_, ?_⟩⟩
    · rw [hprinted]
      refine firstIn_of_front ⟨[], by rw [List.append_nil], by simp, ?_, by simp⟩
      intro c hc
      rw [List.eq_of_mem_replicate hc]
      decide
    · rw [List.length_replicate]
      exact Nat.lt_succ_self _
    · rw [List.length_replicate]
  obtain ⟨w', result, hfinish, hfault⟩ := (ask_fault_iff {} (.map "summary")).2 none none
    { responses := [.started longMap] } longMap rfl (by rintro _ _ _ ⟨⟩) (by rintro _ ⟨⟩) rfl rfl
    rfl
  obtain ⟨rfl, hother⟩ := (hfault _).mpr ⟨.codeMap, rfl, _, rfl, hlong⟩
  exact ⟨w', _, hfinish, hother, rfl⟩

end Client

end Conductor
