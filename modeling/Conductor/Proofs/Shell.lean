import Conductor.Proofs.Client.Contract
import Conductor.Shell

/-!
Command lines are read back as the words that they were written for. The reader refuses a line with
an operator, an expansion, a pattern, a comment or an open quote in it, so nothing of this kind
stands in a command line outside of quotes. What a shell makes of the words is not looked at: a
first word that assigns a variable or is reserved by the shell is a word like any other here.
-/

namespace Conductor

namespace Shell

variable {c : Char} {word rest : List Char}

/-! ### Safe characters -/

theorem isSafe_eq_false_of_mem {marks : List Char} (hmarks : marks.all (!isSafe ·) = true)
    (hc : c ∈ marks) : isSafe c = false := by
  simpa using List.all_eq_true.mp hmarks c hc

/-- No quote, no blank and no backslash is safe, and nothing that a shell acts on. -/
theorem isSafe_inert (hc : isSafe c = true) :
    isSpace c = false ∧ c ≠ '\'' ∧ c ≠ '"' ∧ c ≠ '\\' ∧
      ∀ startsWord, isActive startsWord c = false := by
  have hunlike {marks : List Char} (hmarks : marks.all (!isSafe ·) = true) : c ∉ marks := by
    intro hmem
    rw [isSafe_eq_false_of_mem hmarks hmem] at hc
    cases hc
  have hmarks : c ∉ [' ', '\t', '\'', '"', '\\'] := hunlike (by decide)
  simp only [List.mem_cons, List.not_mem_nil, or_false, not_or] at hmarks
  obtain ⟨hspace, htab, hsingle, hdouble, hescape⟩ := hmarks
  have hacts : c ∉ "|&;<>()$`*?[\n".toList := hunlike (by decide)
  have hstarts : c ∉ "#~".toList := hunlike (by decide)
  refine ⟨?_, hsingle, hdouble, hescape, ?_⟩
  · simp [isSpace, hspace, htab]
  · intro startsWord
    rw [isActive, List.contains_eq_mem, List.contains_eq_mem, decide_eq_false hacts,
      decide_eq_false hstarts, Bool.and_false, Bool.or_false]

theorem splitFrom_cons_of_isSafe (hc : isSafe c = true) (before : Option (List Char))
    (rest : List Char) :
    splitFrom .bare before (c :: rest) = splitFrom .bare (push c before) rest := by
  obtain ⟨hspace, hsingle, hdouble, hescape, hactive⟩ := isSafe_inert hc
  simp [splitFrom, hspace, hsingle, hdouble, hescape, hactive]

theorem splitFrom_append_of_isSafe (hword : ∀ c ∈ word, isSafe c = true) (before rest : List Char) :
    splitFrom .bare (some before) (word ++ rest) =
      splitFrom .bare (some (word.reverse ++ before)) rest := by
  induction word generalizing before with
  | nil => rfl
  | cons c word ih =>
      obtain ⟨hc, hmore⟩ := List.forall_mem_cons.mp hword
      rw [List.cons_append, splitFrom_cons_of_isSafe hc, push, Option.getD_some, ih hmore,
        List.reverse_cons, List.append_assoc]
      rfl

/-! ### Words in quotes -/

/-- A quote inside a word is read in double quotes, between two pieces in single quotes. -/
theorem splitFrom_quoteBody (word before rest : List Char) :
    splitFrom .single (some before) (quoteBody word ++ rest) =
      splitFrom .single (some (word.reverse ++ before)) rest := by
  induction word generalizing before with
  | nil => rfl
  | cons c word ih =>
      rw [List.reverse_cons, List.append_assoc, List.singleton_append, ← ih, quoteBody]
      by_cases hc : c = '\''
      · rw [if_pos hc, hc]
        rfl
      · rw [if_neg hc, List.cons_append, splitFrom]
        simp only [hc, if_false]
        rfl

/-- A written word is read as this word, whatever follows. -/
theorem splitFrom_quoteChars (word rest : List Char) :
    splitFrom .bare none (quoteChars word ++ rest) = splitFrom .bare (some word.reverse) rest := by
  unfold quoteChars
  split
  · next hempty =>
      rw [List.isEmpty_iff.mp hempty]
      rfl
  · next hne =>
      split
      · next hsafe =>
          have hsafe : ∀ c ∈ word, isSafe c = true := List.all_eq_true.mp hsafe
          cases word with
          | nil => exact absurd rfl hne
          | cons c word =>
              obtain ⟨hc, hmore⟩ := List.forall_mem_cons.mp hsafe
              rw [List.cons_append, splitFrom_cons_of_isSafe hc, push, Option.getD_none,
                splitFrom_append_of_isSafe hmore, List.reverse_cons]
      · have hbody := splitFrom_quoteBody word [] ('\'' :: rest)
        rw [List.append_nil] at hbody
        rw [List.cons_append, List.append_assoc, List.singleton_append]
        exact hbody

/-! ### Lines -/

theorem splitFrom_space (word rest : List Char) :
    splitFrom .bare (some word.reverse) (' ' :: rest) =
      (splitFrom .bare none rest).map (word :: ·) := by
  have hfinished : finished (some word.reverse) = [word] := by simp [finished]
  rw [splitFrom, hfinished]
  rfl

theorem splitFrom_intercalate (words : List (List Char)) :
    splitFrom .bare none ([' '].intercalate (words.map quoteChars)) = some words := by
  induction words with
  | nil => rfl
  | cons word words ih =>
      cases words with
      | nil =>
          have hlast := splitFrom_quoteChars word []
          rw [List.append_nil] at hlast
          simp [hlast, splitFrom, finished]
      | cons next words =>
          rw [List.map_cons, List.map_cons, List.intercalate_cons_cons, List.append_assoc,
            splitFrom_quoteChars, ← List.map_cons, List.singleton_append, splitFrom_space, ih]
          rfl

theorem split_join (words : List String) : split (join words) = some words := by
  have hchars : (join words).toList =
      [' '].intercalate ((words.map String.toList).map quoteChars) := by
    rw [join, String.toList_intercalate, List.map_map, List.map_map]
    refine congrArg (List.intercalate _) (List.map_congr_left fun word _ => ?_)
    exact String.toList_ofList ..
  rw [split, hchars, splitFrom_intercalate]
  simp

theorem join_injective : Function.Injective join := by
  intro words others hsame
  have hread := split_join words
  rw [hsame, split_join] at hread
  exact (Option.some.inj hread).symm

end Shell

theorem Fault.message_commandFailed (command : List Value) (exitCode : Option Int)
    (stderr : String) :
    (Fault.commandFailed command exitCode stderr).message =
      "Command \"" ++ commandLine command ++ "\" failed with exit code " ++ exitCodeText exitCode :=
  rfl

theorem Fault.commandLine_of_texts (words : List String) :
    Fault.commandLine (words.map .text) = Shell.join words := by
  have hspelled : (words.map Value.text).map Value.spelled = words := by
    simp [Value.spelled, Function.comp_def]
  rw [Fault.commandLine, hspelled]

namespace Client

theorem commandLine_of_texts (client : Client) {binary : String}
    (hbinary : client.binary = .text binary) (args : List String) :
    client.commandLine (args.map .text) = .ok (Shell.join (binary :: args)) := by
  have htexts : ∀ word ∈ (binary :: args).map Value.text, word.isText = true :=
    List.forall_mem_map.mpr fun _ _ => rfl
  rw [commandLine, hbinary, ← List.map_cons, Request.checkWords_of_texts htexts,
    Fault.commandLine_of_texts]
  rfl

/-- The command line of any words, as a client tells it and as its complaint about a failed command
quotes it, is split by the rules of a shell into just these words; so no other words have this
command line. -/
theorem split_commandLine (client : Client) {binary : String}
    (hbinary : client.binary = .text binary) (args : List String) :
    ∃ line, client.commandLine (args.map .text) = .ok line ∧
      Shell.split line = some (binary :: args) ∧
      (∀ exitCode stderr,
        (Fault.commandFailed (client.binary :: args.map .text) exitCode stderr).message =
          "Command \"" ++ line ++ "\" failed with exit code " ++ exitCodeText exitCode) ∧
      ∀ (other : Client) (binary' : String) (args' : List String),
        other.binary = .text binary' →
          (other.commandLine (args'.map .text) = .ok line ↔ binary' = binary ∧ args' = args) := by
  refine ⟨Shell.join (binary :: args), client.commandLine_of_texts hbinary args,
    Shell.split_join (binary :: args), ?_, ?_⟩
  · intro exitCode stderr
    rw [hbinary, ← List.map_cons, Fault.message_commandFailed, Fault.commandLine_of_texts]
  · intro other binary' args' hother
    rw [other.commandLine_of_texts hother, Except.ok.injEq, Shell.join_injective.eq_iff,
      List.cons.injEq]

/-- A tool with a quote in its name. -/
def quoted : Client where
  binary := .text "it's"

theorem split_commandLine_knotty :
    ∃ line, quoted.commandLine (["", "'\"'", "$(a) \\", "b\n#c", "d=e"].map .text) = .ok line ∧
      line = "'it'\"'\"'s' '' ''\"'\"'\"'\"'\"'' '$(a) \\' 'b\n#c' d=e" ∧
      Shell.split line = some ["it's", "", "'\"'", "$(a) \\", "b\n#c", "d=e"] ∧
      quoted.commandLine (["", "'\"'", "$(a)", "\\", "b\n#c", "d=e"].map .text) ≠ .ok line := by
  obtain ⟨line, hline, hsplit, -, honly⟩ :=
    quoted.split_commandLine rfl ["", "'\"'", "$(a) \\", "b\n#c", "d=e"]
  refine ⟨line, hline, ?_, hsplit, ?_⟩
  · exact Except.ok.inj (hline.symm.trans (by rfl))
  · rw [Ne, honly quoted "it's" _ rfl]
    decide

end Client

end Conductor
