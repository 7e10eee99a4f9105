import Conductor.Proofs.Reply.Agents
import Conductor.Proofs.Reply.Sections

/-!
What is read from a text as a list of agents, whatever the text. There is one agent for each line
that lists one. Where an agent is not available, the way of installing that is given last before the
next agent's line goes to it, however far below its own line that stands. So a way of installing
belongs to the agent right above it only where no other one follows in the same section.
-/

namespace Conductor.Reply.Agent

open Text
open TaskQueue (HoldsAt positions positions_zero positions_succ mem_positions holdsAt_zero
  holdsAt_succ)

variable {agent : Agent} {agents : List Agent} {line : List Char} {lines : List (List Char)}
  {start i : Nat} {command : String}

/-! ### Lines -/

def IsEntry (line : List Char) : Prop := ∃ name glyph, Presents line name glyph

/-- The line lists an agent that is not available. -/
def IsMissing (line : List Char) : Prop := ∃ name glyph, Presents line name glyph ∧
  glyph ≠ "✅".toList

def IsHint (line : List Char) : Prop := ∃ command, Tells line command

theorem isEntry_iff : (ofLine? line).isSome = true ↔ IsEntry line := by
  rw [Option.isSome_iff_exists]
  simp only [ofLine?_eq_some_iff, IsEntry]
  constructor
  · rintro ⟨agent, name, glyph, hpresents, -⟩
    exact ⟨name, glyph, hpresents⟩
  · rintro ⟨name, glyph, hpresents⟩
    exact ⟨_, name, glyph, hpresents, rfl⟩

theorem isMissing_iff :
    (ofLine? line).any (fun agent => !agent.available) = true ↔ IsMissing line := by
  simp only [Option.any_eq_true, ofLine?_eq_some_iff, IsMissing]
  constructor
  · rintro ⟨agent, ⟨name, glyph, hpresents, rfl⟩, hmissing⟩
    exact ⟨name, glyph, hpresents, of_decide_eq_false (Bool.not_eq_true' _ ▸ hmissing)⟩
  · rintro ⟨name, glyph, hpresents, hmissing⟩
    exact ⟨_, ⟨name, glyph, hpresents, rfl⟩, Bool.not_eq_true' _ ▸ decide_eq_false hmissing⟩

theorem isHint_iff : (installLine? line).isSome = true ↔ IsHint line := by
  rw [Option.isSome_iff_exists]
  simp only [installLine?_eq_some_iff, IsHint]

instance (line : List Char) : Decidable (IsEntry line) :=
  decidable_of_iff ((ofLine? line).isSome = true) isEntry_iff

instance (line : List Char) : Decidable (IsMissing line) :=
  decidable_of_iff ((ofLine? line).any (fun agent => !agent.available) = true) isMissing_iff

instance (line : List Char) : Decidable (IsHint line) :=
  decidable_of_iff ((installLine? line).isSome = true) isHint_iff

instance (line command : List Char) : Decidable (Tells line command) :=
  decidable_of_iff (installLine? line = some command) installLine?_eq_some_iff

theorem IsHint.not_isEntry (h : IsHint line) : ¬ IsEntry line := by
  obtain ⟨command, htells⟩ := h
  rw [← isEntry_iff, ofLine?_of_tells htells]
  exact Bool.false_ne_true

/-- A line lists one agent at most. -/
theorem Presents.unique {name name' glyph glyph' : List Char} (h : Presents line name glyph)
    (h' : Presents line name' glyph') : name = name' ∧ glyph = glyph' := by
  obtain ⟨rest, rfl, hname⟩ := h
  obtain ⟨rest', hrest, hname'⟩ := h'
  obtain rfl := List.append_cancel_left hrest
  have hsame := (nameAndGlyph?_eq_some_iff.mpr hname).symm.trans
    (nameAndGlyph?_eq_some_iff.mpr hname')
  exact Prod.mk.inj (Option.some.inj hsame)

theorem Tells.unique {command command' : List Char} (h : Tells line command)
    (h' : Tells line command') : command = command' :=
  Option.some.inj ((installLine?_eq_some_iff.mpr h).symm.trans (installLine?_eq_some_iff.mpr h'))

/-! ### Positions -/

/-- The positions of the agents' lines. -/
def entriesAt (lines : List (List Char)) : List Nat := positions IsEntry (fun _ => True) lines 0

/-- The positions of the ways of installing from `start` on, up to the next agent's line. -/
def hintsFrom (lines : List (List Char)) (start : Nat) : List Nat :=
  positions IsHint (fun line => ¬ IsEntry line) lines start

/-- The command is the one that is given last from `start` on, before the next agent's line. -/
def LastFrom (lines : List (List Char)) (start : Nat) (command : List Char) : Prop :=
  ∃ k ∈ (hintsFrom lines start).getLast?, HoldsAt (Tells · command) lines k

/-- The command is the one that is given last between the line at the position and the next
agent's. -/
def HintedLast (lines : List (List Char)) (i : Nat) (command : String) : Prop :=
  LastFrom lines (i + 1) command.toList

/-- The command is given right below the line at the position. -/
def HintedBelow (lines : List (List Char)) (i : Nat) (command : String) : Prop :=
  HoldsAt (Tells · command.toList) lines (i + 1)

instance (lines : List (List Char)) (i : Nat) (command : String) :
    Decidable (HintedBelow lines i command) :=
  inferInstanceAs (Decidable (HoldsAt (Tells · command.toList) lines (i + 1)))

theorem HoldsAt.tells_unique {command command' : String}
    (h : HoldsAt (Tells · command.toList) lines i)
    (h' : HoldsAt (Tells · command'.toList) lines i) : command = command' := by
  obtain ⟨line, hline, htells⟩ := h
  obtain ⟨line', hline', htells'⟩ := h'
  obtain rfl := Option.mem_unique hline hline'
  exact String.toList_inj.mp (htells.unique htells')

theorem holdsAt_isHint_iff :
    HoldsAt IsHint lines i ↔ ∃ command : String, HoldsAt (Tells · command.toList) lines i := by
  constructor
  · rintro ⟨line, hline, command, htells⟩
    refine ⟨String.ofList command, line, hline, ?_⟩
    rw [String.toList_ofList]
    exact htells
  · rintro ⟨command, line, hline, htells⟩
    exact ⟨line, hline, command.toList, htells⟩

theorem lastFrom_succ {command : List Char} :
    LastFrom (line :: lines) (start + 1) command ↔ LastFrom lines start command := by
  simp only [LastFrom, hintsFrom, positions_succ, List.getLast?_map, Option.mem_def,
    Option.map_eq_some_iff, exists_exists_and_eq_and, holdsAt_succ]

/-- What is read as the way of installing is the last one in the section. -/
theorem installIn?_eq_some_iff {command : List Char} :
    installIn? lines = some command ↔ LastFrom lines 0 command := by
  induction lines generalizing command with
  | nil => simp [installIn?, LastFrom, hintsFrom, positions]
  | cons line lines ih =>
      rw [LastFrom, hintsFrom, positions_zero, ← hintsFrom, installIn?]
      by_cases hentry : IsEntry line
      · simp [isEntry_iff.mpr hentry, hentry]
      · have hnone : ¬ (ofLine? line).isSome = true := mt isEntry_iff.mp hentry
        rw [if_neg hnone, if_pos hentry, List.getLast?_append, List.getLast?_map,
          Option.or_eq_some_iff]
        cases hlast : (hintsFrom lines 0).getLast? with
        | some k =>
            -- A later one is given, so this line does not matter.
            obtain ⟨later, hlater⟩ :=
              holdsAt_isHint_iff.mp (mem_positions.mp (List.mem_of_getLast? hlast)).2.1
            have hsome : installIn? lines ≠ none := by
              rw [ih.mpr ⟨k, hlast, hlater⟩]
              exact Option.some_ne_none _
            simp [ih, LastFrom, hlast, hsome]
        | none =>
            have hmissing : installIn? lines = none := by
              refine Option.eq_none_iff_forall_ne_some.mpr fun other hother => ?_
              obtain ⟨k, hk, -⟩ := ih.mp hother
              cases hlast.symm.trans hk
            rw [hmissing, installLine?_eq_some_iff]
            by_cases hhint : IsHint line
            · simp [hhint]
            · have hno : ∀ command, ¬ Tells line command := not_exists.mp hhint
              simp [hhint, hno]

/-! ### Agents -/

/-- The agent whose line stands at the position: its name and whether it is available are those of
the line. Where it is not available, `Hinted` says which way of installing goes to it. -/
structure IsAgentAt (Hinted : Nat → String → Prop) (lines : List (List Char)) (i : Nat)
    (agent : Agent) : Prop where
  entry : ∃ glyph, HoldsAt (Presents · agent.name.toList glyph) lines i ∧
    (agent.available = true ↔ glyph = "✅".toList)
  install : ∀ command, agent.install = some command ↔
    agent.available = false ∧ Hinted i command

theorem IsAgentAt.shift (h : IsAgentAt (HintedLast lines) lines i agent) :
    IsAgentAt (HintedLast (line :: lines)) (line :: lines) (i + 1) agent where
  entry := by
    obtain ⟨glyph, hpresents, havailable⟩ := h.entry
    exact ⟨glyph, holdsAt_succ.mpr hpresents, havailable⟩
  install := by
    simp only [HintedLast, lastFrom_succ]
    exact h.install

/-- The first line's agent, with the last way of installing in its section. -/
theorem isAgentAt_zero (hagent : ofLine? line = some agent) :
    IsAgentAt (HintedLast (line :: lines)) (line :: lines) 0
      { agent with
        install := if agent.available then none else (installIn? lines).map String.ofList } := by
  obtain ⟨name, glyph, hpresents, rfl⟩ := ofLine?_eq_some_iff.mp hagent
  refine ⟨⟨glyph, holdsAt_zero.mpr ?_, decide_eq_true_iff⟩, ?_⟩
  · rw [String.toList_ofList]
    exact hpresents
  · intro command
    have hread : (installIn? lines).map String.ofList = some command ↔
        installIn? lines = some command.toList := by
      rw [Option.map_eq_some_iff]
      constructor
      · rintro ⟨chars, hchars, rfl⟩
        rw [hchars, String.toList_ofList]
      · intro hchars
        exact ⟨command.toList, hchars, String.ofList_toList⟩
    rw [HintedLast, lastFrom_succ, ← installIn?_eq_some_iff, ← hread]
    cases decide (glyph = "✅".toList) <;> simp

/-- The agents of the lines, where `Hinted` says which way of installing goes to which of them. -/
def AreListed (Hinted : List (List Char) → Nat → String → Prop) (lines : List (List Char))
    (agents : List Agent) : Prop :=
  List.Forall₂ (IsAgentAt (Hinted lines) lines) (entriesAt lines) agents

theorem ofLines_areListed (lines : List (List Char)) :
    AreListed HintedLast lines (ofLines lines) := by
  induction lines with
  | nil => exact .nil
  | cons line lines ih =>
      have hlater : List.Forall₂ (IsAgentAt (HintedLast (line :: lines)) (line :: lines))
          ((entriesAt lines).map (· + 1)) (ofLines lines) := by
        rw [List.forall₂_map_left_iff]
        exact ih.imp fun _ _ hagent => hagent.shift
      rw [AreListed, entriesAt, positions_zero, if_pos trivial, ofLines]
      cases hagent : ofLine? line with
      | none =>
          have hnot : ¬ IsEntry line := by rw [← isEntry_iff, hagent]; exact Bool.false_ne_true
          rw [if_neg hnot]
          exact hlater
      | some agent =>
          rw [if_pos (isEntry_iff.mp (by rw [hagent]; rfl))]
          exact .cons (isAgentAt_zero hagent) hlater

/-! ### Right below -/

/-- Where a way of installing stands right below, some way of installing is the last. -/
theorem exists_hintedLast (h : HintedBelow lines i command) :
    ∃ last, HintedLast lines i last := by
  have hhint : HoldsAt IsHint lines (i + 1) := holdsAt_isHint_iff.mpr ⟨command, h⟩
  have hmem : i + 1 ∈ hintsFrom lines (i + 1) := by
    refine mem_positions.mpr ⟨Nat.le_refl _, hhint, ?_⟩
    intro j hj hstart
    obtain rfl : j = i + 1 := Nat.le_antisymm hj hstart
    obtain ⟨line, hline, hhint⟩ := hhint
    exact ⟨line, hline, hhint.not_isEntry⟩
  obtain ⟨k, hk⟩ := Option.ne_none_iff_exists'.mp
    (mt List.getLast?_eq_none_iff.mp (List.ne_nil_of_mem hmem))
  obtain ⟨last, hlast⟩ :=
    holdsAt_isHint_iff.mp (mem_positions.mp (List.mem_of_getLast? hk)).2.1
  exact ⟨last, k, hk, hlast⟩

/-- The last way of installing is also the one right below if that is so wherever there is one. -/
theorem hintedLast_iff_hintedBelow
    (h : ∀ command, HintedLast lines i command → HintedBelow lines i command) :
    HintedLast lines i command ↔ HintedBelow lines i command := by
  refine ⟨h command, fun hbelow => ?_⟩
  obtain ⟨last, hlast⟩ := exists_hintedLast hbelow
  obtain rfl := HoldsAt.tells_unique (h last hlast) hbelow
  exact hlast

theorem IsAgentAt.isMissing_iff {Hinted : Nat → String → Prop}
    (h : IsAgentAt Hinted lines i agent) :
    HoldsAt IsMissing lines i ↔ agent.available = false := by
  obtain ⟨glyph, ⟨line, hline, hpresents⟩, havailable⟩ := h.entry
  rw [← Bool.not_eq_true, havailable]
  constructor
  · rintro ⟨line', hline', name, glyph', hpresents', hmissing⟩
    obtain rfl := Option.mem_unique hline hline'
    rw [(hpresents.unique hpresents').2]
    exact hmissing
  · intro hmissing
    exact ⟨line, hline, _, glyph, hpresents, hmissing⟩

/-- Whether the way of installing right below an agent is the one that it gets. -/
theorem IsAgentAt.hintedBelow_iff (h : IsAgentAt (HintedLast lines) lines i agent) :
    IsAgentAt (HintedBelow lines) lines i agent ↔
      (HoldsAt IsMissing lines i →
        ∀ command, HintedLast lines i command → HintedBelow lines i command) := by
  rw [h.isMissing_iff]
  constructor
  · intro hbelow hmissing command hlast
    exact ((hbelow.install command).mp ((h.install command).mpr ⟨hmissing, hlast⟩)).2
  · intro hbelow
    refine ⟨h.entry, fun command => (h.install command).trans ?_⟩
    exact and_congr_right fun hmissing => hintedLast_iff_hintedBelow (hbelow hmissing)

theorem forall₂_hintedBelow_iff {entries : List Nat}
    (h : List.Forall₂ (IsAgentAt (HintedLast lines) lines) entries agents) :
    List.Forall₂ (IsAgentAt (HintedBelow lines) lines) entries agents ↔
      ∀ i ∈ entries, HoldsAt IsMissing lines i →
        ∀ command, HintedLast lines i command → HintedBelow lines i command := by
  induction h with
  | nil => simp
  | cons hagent _ ih => rw [List.forall₂_cons, List.forall_mem_cons, ih, hagent.hintedBelow_iff]

/-- Every text is read as a list of agents: one for each line that lists an agent, in order,
available exactly if the glyph is the check mark. An agent that is not available gets the way of
installing that is given last before the next agent's line. So the agents get those right below
their lines, and no others, exactly if for every agent that is not available the last one is also
given right below its line. -/
theorem decode_hinted_below_iff (text : String) :
    AreListed HintedLast (TaskQueue.strippedLines text.toList) (decode text) ∧
      (AreListed HintedBelow (TaskQueue.strippedLines text.toList) (decode text) ↔
        ∀ i ∈ entriesAt (TaskQueue.strippedLines text.toList),
          HoldsAt IsMissing (TaskQueue.strippedLines text.toList) i →
          ∀ command, HintedLast (TaskQueue.strippedLines text.toList) i command →
            HintedBelow (TaskQueue.strippedLines text.toList) i command) :=
  ⟨ofLines_areListed _, forall₂_hintedBelow_iff (ofLines_areListed _)⟩

/-- An agent that is not available, and at the end of the text a way of installing. -/
def footer : String := "- **a**: ❌ Not installed\n\nInstall: \x60b\x60 for more"

/-- A way of installing that does not stand right below an agent can change what is read. -/
theorem decode_footer :
    decode footer = [⟨"a", false, some "b"⟩] ∧
      ¬ AreListed HintedBelow (TaskQueue.strippedLines footer.toList) (decode footer) := by
  refine ⟨by decide +kernel, ?_⟩
  rw [(decode_hinted_below_iff footer).2]
  intro hbelow
  have hlast : HintedLast (TaskQueue.strippedLines footer.toList) 0 "b" :=
    ⟨2, by decide +kernel, by decide +kernel⟩
  have hmissing : HoldsAt IsMissing (TaskQueue.strippedLines footer.toList) 0 := by
    decide +kernel
  have hnone : ¬ HintedBelow (TaskQueue.strippedLines footer.toList) 0 "b" := by
    decide +kernel
  exact hnone (hbelow 0 (by decide +kernel) hmissing "b" hlast)

end Conductor.Reply.Agent
