import Conductor.Proofs.Reply.TaskQueue
import Conductor.Proofs.Text.Search

/-!
Lists of agents are read as they were written. A line lists an agent if it can be cut into a name, a
glyph and a description, and where there is more than one way to do so the shortest name counts. So
a name comes back whole if it holds nothing that could end it, and each way of installing goes to
the agent above it.
-/

namespace Conductor.Reply.Agent

open Text

variable {agent : Agent} {agents : List Agent} {line name glyph command : List Char}
  {lines : List (List Char)}

/-! ### Lines that list an agent -/

/-- What ends a name stands at the front of the text: the mark, a glyph and a description. -/
def EndsName (here glyph : List Char) : Prop :=
  ∃ description, here = "**: ".toList ++ (glyph ++ ([' '] ++ description)) ∧
    (glyph ≠ [] ∧ ∀ c ∈ glyph, isBlank c = false) ∧ description ≠ []

theorem glyphHere?_eq_some_iff {here : List Char} :
    glyphHere? here = some glyph ↔ EndsName here glyph := by
  constructor
  · intro hglyph
    obtain ⟨_, hmark, hafterMark⟩ := Option.bind_eq_some_iff.mp hglyph
    obtain ⟨⟨run, _⟩, hrun, hafterRun⟩ := Option.bind_eq_some_iff.mp hafterMark
    obtain ⟨description, hspace, hsame⟩ := Option.bind_eq_some_iff.mp hafterRun
    obtain ⟨rfl, hne, hsolid, -⟩ := run?_eq_some_iff.mp hrun
    obtain rfl := after?_eq_some_iff.mp hspace
    simp only [Option.ite_none_left_eq_some, Option.some.injEq, List.isEmpty_iff] at hsame
    obtain ⟨hdescription, rfl⟩ := hsame
    exact ⟨description, after?_eq_some_iff.mp hmark, ⟨hne, by simpa using hsolid⟩, hdescription⟩
  · rintro ⟨description, rfl, ⟨hne, hsolid⟩, hdescription⟩
    have hrun : run? (fun c => !isBlank c) (glyph ++ ([' '] ++ description)) =
        some (glyph, [' '] ++ description) :=
      run?_append hne (by simpa using hsolid) (by rintro c ⟨⟩; decide)
    unfold glyphHere?
    simp only [after?_append, Option.bind_eq_bind, Option.bind_some, hrun]
    simp [hdescription]

/-- The text starts with a name: with the shortest that is ended by what follows it. -/
structure StartsWithName (s name glyph : List Char) : Prop where
  ne_nil : name ≠ []
  ends : ∃ here, s = name ++ here ∧ EndsName here glyph
  shortest : ∀ other here glyph', other ≠ [] → s = other ++ here → EndsName here glyph' →
    name.length ≤ other.length

theorem startsWithName_singleton {c : Char} {rest : List Char} (h : EndsName rest glyph) :
    StartsWithName (c :: rest) [c] glyph where
  ne_nil := by simp
  ends := ⟨rest, rfl, h⟩
  shortest := fun _ _ _ hne _ _ => List.length_pos_iff.mpr hne

/-- Where a name cannot end after its first character, it goes on. -/
theorem startsWithName_cons {c : Char} {rest : List Char} (hrest : ∀ glyph, ¬ EndsName rest glyph) :
    StartsWithName (c :: rest) name glyph ↔
      ∃ tail, name = c :: tail ∧ StartsWithName rest tail glyph := by
  constructor
  · rintro ⟨hne, ⟨here, hs, hends⟩, hshortest⟩
    obtain ⟨d, tail, rfl⟩ := List.exists_cons_of_ne_nil hne
    obtain ⟨rfl, rfl⟩ := List.cons.inj hs
    refine ⟨tail, rfl, ?_, ⟨here, rfl, hends⟩, ?_⟩
    · rintro rfl
      exact hrest glyph hends
    · intro other there glyph' _ hsplit hends'
      have hlength := hshortest (c :: other) there glyph' (by simp)
        (by rw [hsplit, List.cons_append]) hends'
      simpa using hlength
  · rintro ⟨tail, rfl, hne, ⟨here, rfl, hends⟩, hshortest⟩
    refine ⟨by simp, ⟨here, rfl, hends⟩, ?_⟩
    intro other there glyph' hother hsplit hends'
    obtain ⟨d, other, rfl⟩ := List.exists_cons_of_ne_nil hother
    obtain ⟨rfl, hbehind⟩ := List.cons.inj hsplit
    cases other with
    | nil =>
        obtain rfl : tail ++ here = there := hbehind
        exact absurd hends' (hrest glyph')
    | cons e other =>
        have hlength := hshortest (e :: other) there glyph' (by simp) hbehind hends'
        simpa using hlength

theorem nameAndGlyph?_eq_some_iff {s : List Char} :
    nameAndGlyph? s = some (name, glyph) ↔ StartsWithName s name glyph := by
  induction s generalizing name with
  | nil =>
      refine iff_of_false (by simp [nameAndGlyph?]) ?_
      rintro ⟨hne, ⟨here, hs, -⟩, -⟩
      exact hne (List.append_eq_nil_iff.mp hs.symm).1
  | cons c rest ih =>
      cases hhere : glyphHere? rest with
      | some ended =>
          have hends := glyphHere?_eq_some_iff.mp hhere
          simp only [nameAndGlyph?, hhere, Option.some.injEq, Prod.mk.injEq]
          constructor
          · rintro ⟨rfl, rfl⟩
            exact startsWithName_singleton hends
          · rintro ⟨hne, ⟨here, hs, hends'⟩, hshortest⟩
            have hlength : name.length ≤ 1 := hshortest [c] rest ended (by simp) rfl hends
            obtain ⟨d, tail, rfl⟩ := List.exists_cons_of_ne_nil hne
            obtain rfl : tail = [] := by simpa using hlength
            obtain ⟨rfl, rfl⟩ := List.cons.inj hs
            exact ⟨rfl, Option.some.inj (hhere.symm.trans (glyphHere?_eq_some_iff.mpr hends'))⟩
      | none =>
          have hnone : ∀ glyph, ¬ EndsName rest glyph := by
            intro glyph' hends
            cases hhere.symm.trans (glyphHere?_eq_some_iff.mpr hends)
          simp only [nameAndGlyph?, hhere, startsWithName_cons hnone, Option.map_eq_some_iff,
            Prod.exists, Prod.mk.injEq, ← ih]
          constructor
          · rintro ⟨tail, ended, htail, rfl, rfl⟩
            exact ⟨tail, rfl, htail⟩
          · rintro ⟨tail, rfl, htail⟩
            exact ⟨tail, glyph, htail, rfl, rfl⟩

/-- The line lists an agent of this name, with this glyph. -/
def Presents (line name glyph : List Char) : Prop :=
  ∃ rest, line = "- **".toList ++ rest ∧ StartsWithName rest name glyph

/-- An agent is available if its glyph is the check mark. -/
theorem ofLine?_eq_some_iff :
    ofLine? line = some agent ↔ ∃ name glyph, Presents line name glyph ∧
      agent = { name := String.ofList name, available := glyph = "✅".toList, install := none } := by
  constructor
  · intro hline
    obtain ⟨rest, hmark, hafterMark⟩ := Option.bind_eq_some_iff.mp hline
    obtain ⟨⟨name, glyph⟩, hname, hsame⟩ := Option.bind_eq_some_iff.mp hafterMark
    cases hsame
    have hnamed := nameAndGlyph?_eq_some_iff.mp hname
    exact ⟨name, glyph, ⟨rest, after?_eq_some_iff.mp hmark, hnamed⟩, rfl⟩
  · rintro ⟨name, glyph, ⟨rest, rfl, hname⟩, rfl⟩
    unfold ofLine?
    simp only [after?_append, Option.bind_eq_bind, Option.bind_some,
      nameAndGlyph?_eq_some_iff.mpr hname]
    rfl

/-! ### Lines that say how to install -/

/-- The line says how to install an agent. Behind the command may stand anything. -/
structure Tells (line command : List Char) : Prop where
  parts : ∃ rest, line = "Install: \x60".toList ++ (command ++ ("\x60".toList ++ rest))
  command : command ≠ [] ∧ '\x60' ∉ command

theorem installLine?_eq_some_iff : installLine? line = some command ↔ Tells line command := by
  constructor
  · intro hline
    obtain ⟨_, hmark, hafterMark⟩ := Option.bind_eq_some_iff.mp hline
    obtain ⟨⟨run, rest⟩, hrun, hsame⟩ := Option.bind_eq_some_iff.mp hafterMark
    obtain ⟨rfl, hne, hall, hstop⟩ := run?_eq_some_iff.mp hrun
    simp only [Option.ite_none_left_eq_some, Option.some.injEq, List.isEmpty_iff] at hsame
    obtain ⟨hrest, rfl⟩ := hsame
    obtain ⟨quote, rest, rfl⟩ := List.exists_cons_of_ne_nil hrest
    obtain rfl : quote = '\x60' := by simpa using hstop quote rfl
    refine ⟨⟨rest, after?_eq_some_iff.mp hmark⟩, hne, ?_⟩
    intro hquote
    simpa using hall _ hquote
  · rintro ⟨⟨rest, rfl⟩, hne, hquote⟩
    have hrun : run? (· != '\x60') (command ++ ("\x60".toList ++ rest)) =
        some (command, "\x60".toList ++ rest) := by
      refine run?_append hne ?_ (by rintro c ⟨⟩; decide)
      intro c hc
      simpa using ne_of_mem_of_not_mem hc hquote
    unfold installLine?
    simp only [after?_append, Option.bind_eq_bind, Option.bind_some, hrun]
    rfl

theorem Presents.head? (h : Presents line name glyph) : line.head? = some '-' := by
  obtain ⟨rest, rfl, -⟩ := h
  rfl

theorem Tells.head? (h : Tells line command) : line.head? = some 'I' := by
  obtain ⟨⟨rest, rfl⟩, -⟩ := h
  rfl

/-- A line that says how to install lists no agent. -/
theorem ofLine?_of_tells (h : Tells line command) : ofLine? line = none := by
  refine Option.eq_none_iff_forall_ne_some.mpr fun agent hagent => ?_
  obtain ⟨name, glyph, hpresents, -⟩ := ofLine?_eq_some_iff.mp hagent
  exact absurd (hpresents.head?.symm.trans h.head?) (by decide)

/-! ### Written lines -/

/-- An agent as it can be written down. -/
structure IsPlain (agent : Agent) : Prop where
  name_ne_nil : agent.name.toList ≠ []
  name_oneLine : OneLine agent.name.toList
  name_unmarked : ¬ "**: ".toList <:+: agent.name.toList
  install : ∀ command, agent.install = some command → agent.available = false ∧ IsQuotable command

/-- The mark that ends a name overlaps with no other occurrence of itself, so a name without it is
never cut short. -/
theorem length_le_of_unmarked {other rest rest' : List Char} (hname : ¬ "**: ".toList <:+: name)
    (hsame : name ++ ("**: ".toList ++ rest) = other ++ ("**: ".toList ++ rest')) :
    name.length ≤ other.length := by
  obtain ⟨t, rfl, -⟩ | ⟨t, rfl, hsplit⟩ := List.append_eq_append_iff.mp hsame
  · simp
  · rcases t with _ | ⟨c₁, _ | ⟨c₂, _ | ⟨c₃, _ | ⟨c₄, t⟩⟩⟩⟩
    · simp
    · simp at hsplit
    · simp at hsplit
    · simp at hsplit
    · refine absurd ?_ hname
      obtain ⟨rfl, rfl, rfl, rfl, -⟩ : '*' = c₁ ∧ '*' = c₂ ∧ ':' = c₃ ∧ ' ' = c₄ ∧
          rest' = t ++ ("**: ".toList ++ rest) := by simpa using hsplit
      exact ⟨other, t, by simp⟩

theorem ofLine?_agentLine (hagent : agent.IsPlain) :
    ofLine? (agentLine agent) = some { agent with install := none } := by
  obtain ⟨glyph, description, hlayout, hglyph, hdescription, havailable⟩ :
      ∃ glyph description : List Char,
        (if agent.available then "✅ Available" else "❌ Not installed").toList =
          glyph ++ ([' '] ++ description) ∧ (glyph ≠ [] ∧ ∀ c ∈ glyph, isBlank c = false) ∧
        description ≠ [] ∧ decide (glyph = "✅".toList) = agent.available := by
    cases agent.available with
    | true =>
        exact ⟨['✅'], "Available".toList, by decide +kernel,
          ⟨by decide, List.forall_mem_singleton.mpr (by decide)⟩, by decide, by decide⟩
    | false =>
        exact ⟨['❌'], "Not installed".toList, by decide +kernel,
          ⟨by decide, List.forall_mem_singleton.mpr (by decide)⟩, by decide, by decide⟩
  refine ofLine?_eq_some_iff.mpr ⟨agent.name.toList, glyph,
    ⟨agent.name.toList ++ ("**: ".toList ++ (glyph ++ ([' '] ++ description))), ?_, ?_⟩, ?_⟩
  · rw [← hlayout]
    exact (List.append_assoc ..).trans (List.append_assoc ..)
  · refine ⟨hagent.name_ne_nil, ⟨_, rfl, description, rfl, hglyph, hdescription⟩, ?_⟩
    rintro other here glyph' - hsplit ⟨description', rfl, -⟩
    exact length_le_of_unmarked hagent.name_unmarked hsplit
  · rw [String.ofList_toList, havailable]

theorem hintLine_tells {command : String} (h : IsQuotable command) :
    Tells (hintLine command) command.toList :=
  ⟨⟨[], List.append_assoc ..⟩, h.ne_nil, h.unquoted⟩

/-- The lines of an agent as they are read: stripped. -/
def tidyLines (agent : Agent) : List (List Char) :=
  agentLine agent :: (agent.install.map hintLine).toList

theorem installIn?_tidyLines (hplain : ∀ agent ∈ agents, agent.IsPlain) :
    installIn? (agents.flatMap tidyLines) = none := by
  cases agents with
  | nil => rfl
  | cons agent agents =>
      have hagent : agent.IsPlain := hplain agent List.mem_cons_self
      rw [List.flatMap_cons, tidyLines, List.cons_append, installIn?, ofLine?_agentLine hagent,
        if_pos Option.isSome_some]

/-- The lines of an agent give the agent back, with its way of installing. -/
theorem ofLines_tidyLines (hplain : ∀ agent ∈ agents, agent.IsPlain) :
    ofLines (agents.flatMap tidyLines) = agents := by
  induction agents with
  | nil => rfl
  | cons agent agents ih =>
      obtain ⟨hagent, hagents⟩ := List.forall_mem_cons.mp hplain
      have hnext := installIn?_tidyLines hagents
      rw [List.flatMap_cons, tidyLines, List.cons_append, ofLines, ofLine?_agentLine hagent]
      cases hinstall : agent.install with
      | none =>
          obtain ⟨name, available, install⟩ := agent
          obtain rfl : install = none := hinstall
          simp [hnext, ih hagents]
      | some command =>
          obtain ⟨hmissing, hcommand⟩ := hagent.install command hinstall
          have htells := hintLine_tells hcommand
          have hhint : installIn? (hintLine command :: agents.flatMap tidyLines) =
              some command.toList := by
            rw [installIn?, ofLine?_of_tells htells, hnext, installLine?_eq_some_iff.mpr htells]
            rfl
          have hrest : ofLines (hintLine command :: agents.flatMap tidyLines) = agents := by
            rw [ofLines, ofLine?_of_tells htells]
            exact ih hagents
          obtain ⟨name, available, install⟩ := agent
          obtain rfl : install = some command := hinstall
          obtain rfl : available = false := hmissing
          simp [hhint, hrest]

/-! ### The whole reply -/

theorem agentLine_tidy (hagent : agent.IsPlain) : TaskQueue.Tidy (agentLine agent) := by
  have hfront : OneLine ("- **".toList ++ agent.name.toList ++ "**: ".toList) :=
    (OneLine.append (by decide) hagent.name_oneLine).append (by decide)
  have hstate : IsField (if agent.available then "✅ Available" else "❌ Not installed").toList := by
    cases agent.available <;> exact ⟨by decide, by decide, by decide⟩
  exact TaskQueue.tidy_append_field (by decide) hfront hstate

theorem hintLine_tidy {command : String} (h : IsQuotable command) :
    TaskQueue.Tidy (hintLine command) := by
  have hlast : (hintLine command).getLast? = some '\x60' := List.getLast?_concat
  refine ⟨(OneLine.append (by decide) h.oneLine).append (by decide), ?_⟩
  refine strip_eq_self_iff.mpr ⟨?_, ?_⟩
  · rintro c ⟨⟩
    decide
  · rw [hlast]
    rintro c ⟨⟩
    decide

section Layout

variable {indent : List Char} {lineEnd : LineEnd}

theorem mem_layoutLines :
    line ∈ layoutLines indent agent ↔
      line = agentLine agent ∨ ∃ command, agent.install = some command ∧
        line = indent ++ hintLine command := by
  simp only [layoutLines, List.mem_cons, Option.mem_toList, Option.map_eq_some_iff,
    eq_comm (a := line)]

theorem layoutLines_oneLine (hindent : OneLine indent) (hagent : agent.IsPlain) :
    ∀ line ∈ layoutLines indent agent, OneLine line := by
  intro line hline
  obtain rfl | ⟨command, hcommand, rfl⟩ := mem_layoutLines.mp hline
  · exact (agentLine_tidy hagent).1
  · exact hindent.append (hintLine_tidy (hagent.install command hcommand).2).1

theorem map_strip_layoutLines (hindent : ∀ c ∈ indent, isBlank c = true) (hagent : agent.IsPlain) :
    (layoutLines indent agent).map strip = tidyLines agent := by
  rw [layoutLines, List.map_cons, (agentLine_tidy hagent).2, tidyLines]
  cases hinstall : agent.install with
  | none => rfl
  | some command =>
      have htidy := hintLine_tidy (hagent.install command hinstall).2
      have hstrip : strip (indent ++ hintLine command) = hintLine command := by
        rw [strip_blank_append hindent, htidy.2]
      exact congrArg (fun line => [agentLine agent, line]) hstrip

/-- The last line of the layout is not empty: it is that of an agent or a way of installing. -/
theorem exists_last_line (indent : List Char) (hagents : agents ≠ []) :
    ∃ init last, agents.flatMap (layoutLines indent) = init ++ [last] ∧ last ≠ [] := by
  obtain ⟨earlier, agent, rfl⟩ := (List.eq_nil_or_concat agents).resolve_left hagents
  cases hinstall : agent.install with
  | none =>
      refine ⟨earlier.flatMap (layoutLines indent), agentLine agent, ?_, List.cons_ne_nil '-' _⟩
      simp [layoutLines, hinstall]
  | some command =>
      refine ⟨earlier.flatMap (layoutLines indent) ++ [agentLine agent],
        indent ++ hintLine command, ?_, List.append_ne_nil_of_right_ne_nil _ ?_⟩
      · simp [layoutLines, hinstall]
      · exact List.cons_ne_nil 'I' _

theorem printedLines_layout {text : String} (hindent : OneLine indent)
    (hplain : ∀ agent ∈ agents, agent.IsPlain)
    (htext : text = layout indent lineEnd agents ∨
      text ++ String.ofList lineEnd.chars = layout indent lineEnd agents) :
    printedLines text.toList = agents.flatMap (layoutLines indent) := by
  have honeLine : ∀ line ∈ agents.flatMap (layoutLines indent), OneLine line :=
    List.forall_mem_flatMap.mpr fun agent hagent =>
      layoutLines_oneLine hindent (hplain agent hagent)
  by_cases hagents : agents = []
  · subst hagents
    rcases htext with rfl | hopen
    · rfl
    · -- No text is so short that a line end after it gives the empty text.
      have hlength := congrArg (fun s : String => s.toList.length) hopen
      cases lineEnd <;> simp [layout, LineEnd.chars, LineEnd.join] at hlength
  · exact (isWritten_of_join (exists_last_line indent hagents) htext).printedLines honeLine

/-- A list of agents that is written down is read back, in order, with names, availability and ways
of installing, so the names of the available agents are found as well. This holds for every
indentation, for either line end, and with or without one after the last line. -/
theorem decode_agents_layout {text : String}
    (hindent : ∀ c ∈ indent, isBlank c = true ∧ isBoundary c = false)
    (hplain : ∀ agent ∈ agents, agent.IsPlain)
    (htext : text = layout indent lineEnd agents ∨
      text ++ String.ofList lineEnd.chars = layout indent lineEnd agents) :
    decode text = agents ∧
      availableNames (decode text) = (agents.filter (·.available)).map (·.name) := by
  have hdecode : decode text = agents := by
    have hlines := printedLines_layout (fun c hc => (hindent c hc).2) hplain htext
    have hstrip : ∀ agent ∈ agents, (layoutLines indent agent).map strip = tidyLines agent :=
      fun agent hagent =>
        map_strip_layoutLines (fun c hc => (hindent c hc).1) (hplain agent hagent)
    rw [decode, hlines, List.map_flatMap, List.flatMap_congr hstrip]
    exact ofLines_tidyLines hplain
  exact ⟨hdecode, by rw [hdecode, availableNames]⟩

end Layout

/-- Names of asterisks, colons and blanks, two of them the same, and a command that looks like the
line of an agent. -/
def confusable : List Agent :=
  [⟨"**:", true, none⟩, ⟨" *", false, some "- **a**: ✅ b"⟩, ⟨"a**", false, none⟩,
    ⟨"**:", true, none⟩]

theorem decode_agents_layout_confusable :
    (∀ c ∈ ['\t', ' '], isBlank c = true ∧ isBoundary c = false) ∧
      (∀ agent ∈ confusable, agent.IsPlain) ∧
      decode (layout ['\t', ' '] .returnAndFeed confusable) = confusable ∧
      availableNames (decode (layout ['\t', ' '] .returnAndFeed confusable)) = ["**:", "**:"] := by
  have hindent : ∀ c ∈ ['\t', ' '], isBlank c = true ∧ isBoundary c = false :=
    List.forall_mem_cons.mpr ⟨by decide, List.forall_mem_singleton.mpr (by decide)⟩
  have hplain : ∀ agent ∈ confusable, agent.IsPlain := by
    have hnames : ∀ agent ∈ confusable, agent.name.toList ≠ [] ∧ OneLine agent.name.toList ∧
        ¬ occursIn "**: ".toList agent.name.toList = true := by decide
    have hcommands : ∀ agent ∈ confusable, ∀ command, agent.install = some command →
        agent.available = false ∧ command = "- **a**: ✅ b" := by decide
    intro agent hagent
    obtain ⟨hne, hline, hmark⟩ := hnames agent hagent
    refine ⟨hne, hline, mt occursIn_iff.mpr hmark, ?_⟩
    intro command hcommand
    obtain ⟨hmissing, rfl⟩ := hcommands agent hagent command hcommand
    exact ⟨hmissing, by decide, by decide, by decide⟩
  exact ⟨hindent, hplain, decode_agents_layout hindent hplain (Or.inl rfl)⟩

end Conductor.Reply.Agent
