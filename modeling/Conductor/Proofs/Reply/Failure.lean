import Conductor.Proofs.Client.Contract
import Conductor.Proofs.Text.Lines

/-!
Failures that the tool reports although it exits cleanly. A text is searched from the start of each
of its lines on, and what is found is the whole of the first line that says so, with one exception:
the name of a missing agent may go on over the end of a line, and then so does the report.
-/

namespace Conductor

namespace Reply

open Text

theorem firstAtLineStart_eq {α : Type} (read : List Char → Option α) (s : List Char) :
    firstAtLineStart read false s = (laterLines s).findSome? read ∧
      firstAtLineStart read true s = (fromLines s).findSome? read := by
  induction s with
  | nil => exact ⟨rfl, by simp [firstAtLineStart, fromLines, laterLines]⟩
  | cons c s ih =>
      have hrest : firstAtLineStart read (c = '\n') s = (laterLines (c :: s)).findSome? read := by
        by_cases hc : c = '\n'
        · simpa [hc, laterLines, fromLines] using ih.2
        · simpa [hc, laterLines] using ih.1
      constructor
      · simpa [firstAtLineStart] using hrest
      · rw [firstAtLineStart, fromLines, List.findSome?_cons, ← hrest]
        rfl

namespace ExecFailure

variable {s here line name rest value : List Char}

/-! ### Reports -/

/-- The line says that the task failed. -/
def SaysFailed (line : List Char) : Prop := failedMark <+: line

/-- This is how a text goes on that says that the agent with this name is missing. -/
def missingText (name rest : List Char) : List Char := agentMark ++ (name ++ (missingMark ++ rest))

/-- A name that can stand in quotes. -/
def IsName (name : List Char) : Prop := name ≠ [] ∧ '\'' ∉ name

/-- The text, or the line, starts by saying that an agent is missing. -/
def SaysMissing (s : List Char) : Prop := ∃ name rest, s = missingText name rest ∧ IsName name

/-- The line that reports the failure: the first one that says that the task failed, or else the
first one that says that an agent is missing. -/
def IsReport (s line : List Char) : Prop :=
  IsFirst SaysFailed (feedLines s) line ∨
    (∀ other ∈ feedLines s, ¬ SaysFailed other) ∧ IsFirst SaysMissing (feedLines s) line

/-- No line says that the task failed, and the first agent that is said to be missing has a name
that goes on over the end of a line. -/
def Sprawls (s name rest : List Char) : Prop :=
  (∀ line ∈ feedLines s, ¬ SaysFailed line) ∧
    IsFirst SaysMissing (fromLines s) (missingText name rest) ∧ IsName name ∧ '\n' ∈ name

theorem IsReport.mem (h : IsReport s line) : line ∈ feedLines s := by
  rcases h with hfirst | ⟨-, hfirst⟩
  · exact hfirst.mem
  · exact hfirst.mem

theorem saysFailed_firstLine : SaysFailed (firstLine s) ↔ SaysFailed s := by
  constructor
  · intro hline
    exact hline.trans (prefix_firstLine s)
  · rintro ⟨rest, rfl⟩
    exact ⟨firstLine rest, (firstLine_append (by decide) rest).symm⟩

theorem taskFailed?_eq_some_iff :
    taskFailed? s = some value ↔ SaysFailed s ∧ value = firstLine s := by
  rw [taskFailed?, Option.map_eq_some_iff]
  simp only [after?_eq_some_iff]
  constructor
  · rintro ⟨rest, rfl, rfl⟩
    exact ⟨List.prefix_append failedMark rest, (firstLine_append (by decide) rest).symm⟩
  · rintro ⟨⟨rest, rfl⟩, rfl⟩
    exact ⟨rest, rfl, (firstLine_append (by decide) rest).symm⟩

theorem taskFailed?_isSome_iff : (taskFailed? s).isSome = true ↔ SaysFailed s := by
  rw [Option.isSome_iff_exists]
  simp [taskFailed?_eq_some_iff]

theorem agentMissing?_eq_some_iff :
    agentMissing? s = some value ↔ ∃ name rest, s = missingText name rest ∧ IsName name ∧
      value = missingText name (firstLine rest) := by
  simp only [agentMissing?, bind, Option.bind_eq_some_iff, Prod.exists, after?_eq_some_iff,
    run?_eq_some_iff, pure, Option.some.injEq]
  constructor
  · rintro ⟨_, rfl, name, _, ⟨rfl, hne, hname, -⟩, rest, rfl, rfl⟩
    refine ⟨name, rest, rfl, ⟨hne, fun hquote => ?_⟩, by simp [missingText]⟩
    simpa using hname _ hquote
  · rintro ⟨name, rest, rfl, ⟨hne, hquote⟩, rfl⟩
    refine ⟨_, rfl, name, missingMark ++ rest, ⟨rfl, hne, ?_, ?_⟩, rest, rfl, by simp [missingText]⟩
    · intro c hc
      simpa using ne_of_mem_of_not_mem hc hquote
    · rintro c ⟨⟩
      rfl

theorem agentMissing?_isSome_iff : (agentMissing? s).isSome = true ↔ SaysMissing s := by
  rw [Option.isSome_iff_exists]
  simp only [agentMissing?_eq_some_iff, SaysMissing]
  constructor
  · rintro ⟨-, name, rest, hs, hname, -⟩
    exact ⟨name, rest, hs, hname⟩
  · rintro ⟨name, rest, hs, hname⟩
    exact ⟨_, name, rest, hs, hname, rfl⟩

/-- A failed task is reported by the first line that says so. -/
theorem firstFailed_eq_some_iff :
    firstAtLineStart taskFailed? true s = some value ↔ IsFirst SaysFailed (feedLines s) value := by
  rw [(firstAtLineStart_eq taskFailed? s).2, findSome?_eq_some_iff_isFirst, feedLines_eq_map,
    isFirst_map]
  simp only [isFirst_congr fun _ => taskFailed?_isSome_iff, taskFailed?_eq_some_iff,
    saysFailed_firstLine]
  refine exists_congr fun here => and_congr_right fun hfirst => ?_
  rw [and_iff_right hfirst.holds, eq_comm]

theorem firstFailed_eq_none_iff :
    firstAtLineStart taskFailed? true s = none ↔ ∀ line ∈ feedLines s, ¬ SaysFailed line := by
  rw [Option.eq_none_iff_forall_ne_some]
  simp only [ne_eq, firstFailed_eq_some_iff, ← not_exists, exists_isFirst_iff]
  simp

/-- A missing agent is reported from the first place on at which the start of a line says so. -/
theorem firstMissing_eq_some_iff :
    firstAtLineStart agentMissing? true s = some value ↔
      ∃ name rest, IsFirst SaysMissing (fromLines s) (missingText name rest) ∧ IsName name ∧
        value = missingText name (firstLine rest) := by
  rw [(firstAtLineStart_eq agentMissing? s).2, findSome?_eq_some_iff_isFirst]
  simp only [isFirst_congr fun _ => agentMissing?_isSome_iff, agentMissing?_eq_some_iff]
  constructor
  · rintro ⟨here, hfirst, name, rest, rfl, hname, rfl⟩
    exact ⟨name, rest, hfirst, hname, rfl⟩
  · rintro ⟨name, rest, hfirst, hname, rfl⟩
    exact ⟨_, hfirst, name, rest, rfl, hname, rfl⟩

/-- What is found in a text, before its ends are stripped. -/
def Finds (s value : List Char) : Prop :=
  IsFirst SaysFailed (feedLines s) value ∨ (∀ line ∈ feedLines s, ¬ SaysFailed line) ∧
    ∃ name rest, IsFirst SaysMissing (fromLines s) (missingText name rest) ∧ IsName name ∧
      value = missingText name (firstLine rest)

theorem find?_eq_some_iff :
    find? s = some value ↔ ∃ found, Finds s found ∧ strip found = value := by
  rw [find?, Option.map_eq_some_iff]
  simp only [Option.or_eq_some_iff, firstFailed_eq_some_iff, firstFailed_eq_none_iff,
    firstMissing_eq_some_iff, Finds]

/-! ### Names on one line -/

theorem missingText_append (name rest more : List Char) :
    missingText name rest ++ more = missingText name (rest ++ more) := by
  simp [missingText]

theorem firstLine_missingText (hname : '\n' ∉ name) (rest : List Char) :
    firstLine (missingText name rest) = missingText name (firstLine rest) := by
  have hagent : '\n' ∉ agentMark := by decide
  have hmissing : '\n' ∉ missingMark := by decide
  rw [missingText, firstLine_append hagent, firstLine_append hname, firstLine_append hmissing,
    missingText]

/-- A line that says so starts a text that says so. -/
theorem SaysMissing.of_firstLine (h : SaysMissing (firstLine s)) : SaysMissing s := by
  obtain ⟨name, rest, hline, hname⟩ := h
  obtain ⟨more, hmore⟩ := prefix_firstLine s
  exact ⟨name, rest ++ more, by rw [← hmore, hline, missingText_append], hname⟩

/-- Where no name goes on over the end of a line, what is found is the line that reports it. -/
theorem finds_iff_isReport (hline : ∀ name rest, ¬ Sprawls s name rest) :
    Finds s value ↔ IsReport s value := by
  refine or_congr_right (and_congr_right fun hfailed => ?_)
  have hshort {name rest : List Char}
      (hfirst : IsFirst SaysMissing (fromLines s) (missingText name rest)) (hname : IsName name) :
      IsFirst (fun here => SaysMissing (firstLine here)) (fromLines s) (missingText name rest) ∧
        firstLine (missingText name rest) = missingText name (firstLine rest) := by
    have hfeed : '\n' ∉ name := fun hfeed => hline name rest ⟨hfailed, hfirst, hname, hfeed⟩
    have hfirstLine := firstLine_missingText hfeed rest
    refine ⟨hfirst.of_imp (fun _ => SaysMissing.of_firstLine) ?_, hfirstLine⟩
    exact ⟨name, firstLine rest, hfirstLine, hname⟩
  rw [feedLines_eq_map, isFirst_map]
  constructor
  · rintro ⟨name, rest, hfirst, hname, rfl⟩
    exact ⟨_, hshort hfirst hname⟩
  · rintro ⟨here, hhere, rfl⟩
    obtain ⟨there, hthere⟩ :=
      exists_isFirst_iff.mpr ⟨here, hhere.mem, SaysMissing.of_firstLine hhere.holds⟩
    obtain ⟨name, rest, rfl, hname⟩ := hthere.holds
    obtain ⟨hfirst, hfirstLine⟩ := hshort hthere hname
    obtain rfl := hhere.unique hfirst
    exact ⟨name, rest, hthere, hname, hfirstLine⟩

/-- Where one does, the report goes on over the end of the line too. -/
theorem Sprawls.find? (h : Sprawls s name rest) :
    find? s = some (strip (missingText name (firstLine rest))) ∧
      '\n' ∈ strip (missingText name (firstLine rest)) := by
  obtain ⟨hfailed, hfirst, hname, hfeed⟩ := h
  refine ⟨find?_eq_some_iff.mpr ⟨_, Or.inr ⟨hfailed, name, rest, hfirst, hname, rfl⟩, rfl⟩, ?_⟩
  have hform : missingText name (firstLine rest) =
      (agentMark ++ (name ++ missingMark)) ++ firstLine rest := by
    simp [missingText]
  have hprefix :
      agentMark ++ (name ++ missingMark) <+: strip (missingText name (firstLine rest)) := by
    rw [hform]
    refine prefix_strip ?_ ?_ (by simp [agentMark]) _
    · rintro c ⟨⟩
      decide
    · rw [List.getLast?_append, List.getLast?_append]
      rintro c ⟨⟩
      decide
  exact hprefix.mem (List.mem_append_right _ (List.mem_append_left _ hfeed))

/-- A text is read line by line exactly if no such name comes first in it. -/
theorem find?_isReport_iff :
    (∀ value, ExecFailure.find? s = some value ↔ ∃ line, IsReport s line ∧ strip line = value) ↔
      ∀ name rest, ¬ Sprawls s name rest := by
  constructor
  · intro hlines name rest hsprawls
    obtain ⟨hfind, hfeed⟩ := hsprawls.find?
    obtain ⟨line, hreport, hline⟩ := (hlines _).mp hfind
    have hmem := hreport.mem
    rw [feedLines_eq_map] at hmem
    obtain ⟨here, -, rfl⟩ := List.mem_map.mp hmem
    rw [← hline] at hfeed
    exact not_mem_firstLine here ((infix_strip _).mem hfeed)
  · intro hline value
    simp only [find?_eq_some_iff, finds_iff_isReport hline]

theorem exists_isReport_iff :
    (∃ line, IsReport s line) ↔ ∃ line ∈ feedLines s, SaysFailed line ∨ SaysMissing line := by
  by_cases hfailed : ∃ line ∈ feedLines s, SaysFailed line
  · refine iff_of_true ?_ ?_
    · obtain ⟨line, hfirst⟩ := exists_isFirst_iff.mpr hfailed
      exact ⟨line, .inl hfirst⟩
    · obtain ⟨line, hline, hsays⟩ := hfailed
      exact ⟨line, hline, .inl hsays⟩
  · have hnone : ∀ line ∈ feedLines s, ¬ SaysFailed line := by simpa using hfailed
    simp only [IsReport, exists_or, exists_isFirst_iff, hfailed, false_or, and_iff_right hnone]
    refine exists_congr fun line => and_congr_right fun hline => ?_
    rw [or_iff_right (hnone line hline)]

/-- Something is found in a text exactly if one of its lines reports it, or a name that goes on over
the end of a line comes first. -/
theorem find?_isSome_iff :
    (ExecFailure.find? s).isSome = true ↔
      (∃ line ∈ feedLines s, SaysFailed line ∨ SaysMissing line) ∨
        ∃ name rest, Sprawls s name rest := by
  by_cases hsprawls : ∃ name rest, Sprawls s name rest
  · refine iff_of_true ?_ (.inr hsprawls)
    obtain ⟨name, rest, hsprawls⟩ := hsprawls
    simp [hsprawls.find?.1]
  · have hline : ∀ name rest, ¬ Sprawls s name rest := by simpa using hsprawls
    rw [or_iff_left hsprawls, ← exists_isReport_iff, Option.isSome_iff_exists]
    simp only [find?_isReport_iff.mpr hline]
    constructor
    · rintro ⟨-, line, hreport, -⟩
      exact ⟨line, hreport⟩
    · rintro ⟨line, hreport⟩
      exact ⟨_, line, hreport, rfl⟩

theorem decode_eq_some_iff {text failure : String} :
    ExecFailure.decode text = some failure ↔
      ExecFailure.find? text.toList = some failure.toList := by
  rw [decode, Option.map_eq_some_iff]
  constructor
  · rintro ⟨value, hvalue, rfl⟩
    rw [hvalue, String.toList_ofList]
  · intro hvalue
    exact ⟨_, hvalue, String.ofList_toList⟩

theorem decode_isSome_iff {text : String} :
    (ExecFailure.decode text).isSome = true ↔ (ExecFailure.find? text.toList).isSome = true := by
  rw [decode, Option.isSome_map]

end ExecFailure

end Reply

namespace Client

open World Reply Text ExecFailure

variable {client : Client} {task planRef : String} {agent : Value}

/-- After a clean exit an execution fails only with what the tool has reported. -/
theorem decode_exec_fault {binary : Value} {out : String} {fault : Fault}
    (htexts : ∀ word ∈ binary :: (Request.exec task planRef agent).words, word.isText = true) :
    Request.decode binary (.exec task planRef agent) out = .error fault ↔
      ∃ failure, ExecFailure.decode out = some failure ∧
        fault = .execReported (binary :: (Request.exec task planRef agent).words) task out
          failure := by
  obtain ⟨hsome, hnone⟩ := decode_exec out htexts
  cases hdecode : ExecFailure.decode out with
  | none =>
      refine iff_of_false (fun herror => ?_) (by simp)
      have hanswer := hnone.mp hdecode
      rw [herror] at hanswer
      cases hanswer
  | some failure =>
      rw [(hsome failure).mp hdecode]
      simp [eq_comm]

/-- What is found in a text is, with its ends stripped, the line that reports a failure, and nothing
if there is none, exactly as long as no name of a missing agent that goes on over the end of a line
comes first; where one does, what is found is no single line. After a clean exit an execution fails
exactly if something is found in what the tool has printed. -/
theorem exec_fails_iff (client : Client) (task planRef : String) (agent : Value) :
    (∀ text : String,
      ((∀ failure, ExecFailure.decode text = some failure ↔
          ∃ line, IsReport text.toList line ∧ strip line = failure.toList) ↔
        ∀ name rest, ¬ Sprawls text.toList name rest) ∧
      ∀ name rest, Sprawls text.toList name rest →
        ∃ failure, ExecFailure.decode text = some failure ∧
          failure.toList = strip (missingText name (firstLine rest)) ∧ '\n' ∈ failure.toList) ∧
    ∀ (cwd : Option String) (sink : Option Sink) (w : World) (script : Script),
      client.binary.isText = true → agent.isText = true → (∀ s, sink = some s → s.Harmless) →
      w.responses.head? = some (.started script) → script.exit.isSome = true →
      script.exitCode = 0 →
      ∃ w' result, (client.ask (.exec task planRef agent) cwd sink w).finish =
          (w', some result) ∧
        (∀ fault, result = .error fault → fault.name = "TaskExecutionError") ∧
        ((∃ fault, result = .error fault) ↔
          (∃ line ∈ feedLines (client.printed script .stdout).toList,
            SaysFailed line ∨ SaysMissing line) ∨
          ∃ name rest, Sprawls (client.printed script .stdout).toList name rest) := by
  refine ⟨fun text => ⟨?_, fun name rest hsprawls => ?_⟩, ?_⟩
  · rw [← find?_isReport_iff]
    simp only [decode_eq_some_iff]
    constructor
    · intro hlines value
      simpa only [String.toList_ofList] using hlines (String.ofList value)
    · intro hlines failure
      exact hlines failure.toList
  · obtain ⟨hfind, hfeed⟩ := hsprawls.find?
    refine ⟨String.ofList (strip (missingText name (firstLine rest))), ?_, ?_, ?_⟩
    · rw [decode_eq_some_iff, String.toList_ofList, hfind]
    · exact String.toList_ofList
    · rwa [String.toList_ofList]
  · intro cwd sink w script hbinary hagent hsink hscript hexit hcode
    have hexits : ∀ other, w.responses.head? = some (.started other) →
        other.exit.isSome = true := by
      intro other hother
      cases hscript.symm.trans hother
      exact hexit
    obtain ⟨w', s, hask, -, -, hstarted⟩ := @ask_finish client _ cwd sink w hsink hexits
    obtain rfl := hstarted script hscript
    have htexts : ∀ word ∈ client.binary :: (Request.exec task planRef agent).words,
        word.isText = true := by
      refine texts_of_agent hbinary ?_
      rintro _ _ _ ⟨⟩
      exact hagent
    refine ⟨w', _, hask, ?_⟩
    rw [verdict_of_clean ((Order.outcome_succeeded _ script).mpr hcode), ← find?_isSome_iff]
    constructor
    · intro fault herror
      obtain ⟨failure, -, rfl⟩ := (decode_exec_fault htexts).mp herror
      rfl
    · rw [← decode_isSome_iff, Option.isSome_iff_exists]
      constructor
      · rintro ⟨fault, herror⟩
        obtain ⟨failure, hfailure, -⟩ := (decode_exec_fault htexts).mp herror
        exact ⟨failure, hfailure⟩
      · rintro ⟨failure, hfailure⟩
        exact ⟨_, (decode_exec_fault htexts).mpr ⟨failure, hfailure, rfl⟩⟩

/-- The tool misses an agent whose name goes on over the end of a line. -/
def missingBroken : Script where
  stdout := some [⟨0, Utf8.encode "❌ Agent 'a\nb' is not installed.\n"⟩]

theorem exec_fails_of_missingBroken :
    (∃ failure, ExecFailure.decode "❌ Agent 'a\nb' is not installed.\n" = some failure ∧
      '\n' ∈ failure.toList) ∧
    ∃ w' fault, (({} : Client).ask (.exec "task-1" "plan.md" (.text "agent")) none none
        { responses := [.started missingBroken] }).finish = (w', some (.error fault)) ∧
      fault.name = "TaskExecutionError" := by
  let text := "❌ Agent 'a\nb' is not installed.\n"
  have hsprawls : Sprawls text.toList "a\nb".toList "\n".toList := by
    have hname : IsName "a\nb".toList := ⟨by decide, by decide⟩
    have htext : text.toList = missingText "a\nb".toList "\n".toList := by decide +kernel
    refine ⟨?_, ?_, hname, by decide⟩
    · unfold SaysFailed
      decide +kernel
    · rw [fromLines, htext]
      exact (isFirst_cons_of_holds ⟨_, _, rfl, hname⟩).mpr rfl
  have hprinted : printed {} missingBroken .stdout = text := by
    rw [printed_eq_decode (by decide)]
    have hsent : missingBroken.sent .stdout = Utf8.encode text := List.append_nil _
    rw [hsent, Utf8.decode_encode, String.ofList_toList]
  obtain ⟨htexts, hexec⟩ := exec_fails_iff {} "task-1" "plan.md" (.text "agent")
  obtain ⟨failure, hfailure, -, hfeed⟩ := (htexts text).2 _ _ hsprawls
  refine ⟨⟨failure, hfailure, hfeed⟩, ?_⟩
  obtain ⟨w', result, hfinish, hname, hfails⟩ := hexec none none
    { responses := [.started missingBroken] } missingBroken rfl rfl (by rintro _ ⟨⟩) rfl rfl rfl
  rw [hprinted] at hfails
  obtain ⟨fault, rfl⟩ := hfails.mpr (.inr ⟨_, _, hsprawls⟩)
  exact ⟨w', fault, hfinish, hname fault rfl⟩

end Client

end Conductor
