import Conductor.Proofs.Toml.Value

/-!
A document of sections is read as it was written. While it is read, the tables hold the sections
above, and of the section at hand the fields above; each line adds one field, each header opens one
section, and by induction over the lines the whole document comes back.
-/

namespace Conductor.Toml

open Value Text

/-! ### Names -/

/-- A name that stands in a document without quotes. -/
def IsBare (name : String) : Prop :=
  name.toList ≠ [] ∧ ∀ c ∈ name.toList, isBareKey c = true

instance (name : String) : Decidable (IsBare name) :=
  @instDecidableAnd _ _ _ (List.decidableBAll (fun c => isBareKey c = true) name.toList)

/-- A bare name is a key of its own where neither the name nor a dotted key goes on. -/
theorem key_bare {name : String} (hname : IsBare name) {rest : List Char}
    (hstop : ∀ c ∈ rest.head?, isBareKey c = false) (hdot : ∀ c ∈ (skipSpace rest).head?, c ≠ '.') :
    key (name.toList ++ rest) = .ok ([name], skipSpace rest) := by
  obtain ⟨htake, hdrop⟩ := takeWhile_append_of_stop hname.2 hstop
  have hkeyName : keyName (name.toList ++ rest) = .ok (name, rest) := by
    unfold keyName
    simp [htake, hdrop, hname.1]
  rw [key, keyNames]
  simp only [hkeyName, bind, Except.bind]
  split
  · next heq =>
      rw [heq] at hdot
      exact absurd rfl (hdot '.' rfl)
  · rfl

/-- The first character of a bare name starts a pair. -/
theorem statement_pair {name : String} (hname : IsBare name) (d : Document) (above : Key)
    (rest : List Char) :
    statement d above (name.toList ++ rest) =
      (pair (name.toList ++ rest)).bind fun read =>
        (d.enter above read.1.1 read.1.2).bind fun d => .ok ((d, above), read.2) := by
  obtain ⟨c, tail, htext⟩ := List.exists_cons_of_ne_nil hname.1
  have hc : isBareKey c = true := hname.2 c (htext ▸ List.mem_cons_self)
  rw [htext, List.cons_append, statement, if_pos (by simp [hc])]
  rfl

theorem skipSpace_bare {name : String} (hname : IsBare name) (rest : List Char) :
    skipSpace (name.toList ++ rest) = name.toList ++ rest := by
  obtain ⟨c, tail, htext⟩ := List.exists_cons_of_ne_nil hname.1
  have hc : isBareKey c = true := hname.2 c (htext ▸ List.mem_cons_self)
  have hspace : isSpace c = false := by
    refine Bool.eq_false_iff.mpr ?_
    intro hblank
    simp only [isSpace, Bool.or_eq_true, beq_iff_eq] at hblank
    rcases hblank with rfl | rfl <;> cases hc
  rw [skipSpace, htext, List.cons_append, List.dropWhile_cons_of_neg (by simp [hspace])]

theorem Solid.skipSpace {s : List Char} (hs : Solid s) : skipSpace s = s := by
  obtain ⟨c, tail, rfl, hspace, -, -⟩ := hs
  have hc : isSpace c = false := (Bool.or_eq_false_iff.mp hspace).1
  rw [Toml.skipSpace, List.dropWhile_cons_of_neg (by simp [hc])]

/-- A line with a name and a value. -/
def fieldText (field : String × Value) : List Char :=
  field.1.toList ++ (' ' :: '=' :: ' ' :: field.2.toml.toList)

/-- A line names the value that is read after the equals sign. -/
theorem pair_fieldText {field : String × Value} (hname : IsBare field.1) (rest : List Char) :
    pair (fieldText field ++ rest) =
      (value ((field.2.toml.toList ++ rest).length + 1) (field.2.toml.toList ++ rest)).map
        fun read => (([field.1], read.1), read.2) := by
  have hform : fieldText field ++ rest =
      field.1.toList ++ (' ' :: '=' :: ' ' :: (field.2.toml.toList ++ rest)) := by
    simp [fieldText]
  have hkey : key (field.1.toList ++ (' ' :: '=' :: ' ' :: (field.2.toml.toList ++ rest))) =
      .ok ([field.1], '=' :: ' ' :: (field.2.toml.toList ++ rest)) := by
    refine key_bare hname ?_ ?_
    · rintro c ⟨⟩
      rfl
    · rintro c ⟨⟩
      decide
  have hspace : skipSpace (' ' :: (field.2.toml.toList ++ rest)) =
      field.2.toml.toList ++ rest := ((solid_toml field.2).append _).skipSpace
  rw [pair, hform, hkey]
  simp only [bind, Except.bind, hspace]
  cases value ((field.2.toml.toList ++ rest).length + 1) (field.2.toml.toList ++ rest) <;> rfl

theorem pair_plain {field : String × Value} (hname : IsBare field.1) (hvalue : field.2.IsPlain)
    {rest : List Char} (hrest : Stops rest) :
    pair (fieldText field ++ rest) = .ok (([field.1], field.2.reread), rest) := by
  have hread := (read_toml ((field.2.toml.toList ++ rest).length + 1)).1 field.2 hvalue
    (by rw [List.length_append]; omega) rest hrest
  rw [pair_fieldText hname, hread]
  rfl

/-! ### Tables -/

namespace Table

variable {t : Table} {name : String} {v w : Value}

theorem get?_new (hname : name ∉ t.map (·.1)) : t.get? name = none := by
  rw [get?, Option.map_eq_none_iff, List.find?_eq_none]
  intro field hfield heq
  exact hname (List.mem_map.mpr ⟨field, hfield, by simpa using heq⟩)

theorem put_new (hname : name ∉ t.map (·.1)) : t.put name v = t ++ [(name, v)] := by
  rw [put, if_neg]
  simp only [List.any_eq_true, beq_iff_eq]
  rintro ⟨field, hfield, heq⟩
  exact hname (List.mem_map.mpr ⟨field, hfield, heq⟩)

theorem get?_last (hname : name ∉ t.map (·.1)) : Table.get? (t ++ [(name, v)]) name = some v := by
  have hnone : t.find? (fun field => field.1 == name) = none := by
    simpa [get?] using get?_new hname
  simp [get?, List.find?_append, hnone]

theorem put_last (hname : name ∉ t.map (·.1)) :
    Table.put (t ++ [(name, v)]) name w = t ++ [(name, w)] := by
  have hsame : t.map (fun field => if field.1 == name then (name, w) else field) = t := by
    rw [List.map_congr_left (g := id), List.map_id]
    intro field hfield
    refine if_neg ?_
    intro heq
    exact hname (List.mem_map.mpr ⟨field, hfield, beq_iff_eq.mp heq⟩)
  rw [put, if_pos (by simp), List.map_append, hsame]
  simp

end Table

/-! ### The document while it is read -/

namespace Document

/-- The sections that a document holds: each is a table that was opened by its header, and nothing
else is marked but lists inside of them. -/
structure Holds (d : Document) (sections : List (String × Table)) : Prop where
  table : d.table = sections.map fun s => (s.1, .table s.2)
  marks : ∀ mark ∈ d.marks, (∃ name ∈ sections.map (·.1), mark = ([name], .declared)) ∨
    ∃ name key, mark = ([name, key], .frozen)
  pending : d.pending = []

theorem Holds.empty : Holds {} [] := by
  refine ⟨rfl, ?_, rfl⟩
  intro mark hmark
  cases hmark

variable {d : Document} {sections : List (String × Table)} {name : String}

theorem Holds.names (hd : Holds d sections) : d.table.map (·.1) = sections.map (·.1) := by
  rw [hd.table, List.map_map]
  rfl

theorem Holds.settle (hd : Holds d sections) : d.settle = d := by
  rw [Document.settle, hd.pending, List.nil_append, ← hd.pending]

theorem Holds.not_frozen (hd : Holds d sections) (name : String) :
    d.isMarked [name] .frozen = false := by
  rw [isMarked, List.any_eq_false]
  intro mark hmark
  rcases hd.marks mark hmark with ⟨other, -, rfl⟩ | ⟨other, key, rfl⟩
  · simp
  · simp [List.isPrefixOf]

theorem Holds.not_declared (hd : Holds d sections) (hname : name ∉ sections.map (·.1)) :
    d.isMarked [name] .declared = false := by
  rw [isMarked, List.any_eq_false]
  intro mark hmark
  rcases hd.marks mark hmark with ⟨other, hother, rfl⟩ | ⟨other, key, rfl⟩
  · have hne : other ≠ name := fun heq => hname (heq ▸ hother)
    simp [hne]
  · simp

/-- A header opens an empty section. -/
theorem Holds.openTable (hd : Holds d sections) (hname : name ∉ sections.map (·.1)) :
    ∃ d', d.openTable [name] = .ok d' ∧ Holds d' (sections ++ [(name, [])]) := by
  have hnew : name ∉ d.table.map (·.1) := hd.names ▸ hname
  have hopen : d.table.modifyNest? true some [name] = some (d.table ++ [(name, .table [])]) := by
    simp [Table.modifyNest?, Table.get?_new hnew, Table.put_new hnew]
  rw [Document.openTable, hd.not_declared hname, hd.not_frozen name, hopen]
  refine ⟨_, rfl, ?_, ?_, hd.pending⟩
  · simp [hd.table]
  · intro mark hmark
    rcases List.mem_cons.mp hmark with rfl | hmem
    · exact Or.inl ⟨name, by simp, rfl⟩
    · rcases hd.marks mark hmem with ⟨other, hother, rfl⟩ | hfrozen
      · exact Or.inl ⟨other, by simp_all, rfl⟩
      · exact Or.inr hfrozen

/-- Below a header, a name without dots has no tables of its own on the way. -/
theorem enter_single (d : Document) (header : Key) (key : String) (v : Value) :
    d.enter header [key] v =
      if d.isMarked header .frozen then .error (.malformed "Cannot mutate an immutable namespace")
      else
        match d.table.modifyNest? true (addNew? key v) header with
        | none => .error overwrites
        | some table =>
          .ok (if isNested v then Document.mark { d with table } (header ++ [key]) .frozen
            else { d with table }) := by
  have hbetween : between header [key] = [] := rfl
  have hparent : header ++ [key].dropLast = header := List.append_nil header
  simp only [Document.enter, hbetween, hparent, List.any_nil, List.map_nil, List.nil_append]
  rfl

theorem Holds.mark_frozen (hd : Holds d sections) (name key : String) :
    Holds (d.mark [name, key] .frozen) sections := by
  refine ⟨hd.table, ?_, hd.pending⟩
  intro mark hmark
  rcases List.mem_cons.mp hmark with rfl | hmem
  · exact Or.inr ⟨name, key, rfl⟩
  · exact hd.marks mark hmem

/-- A line puts its field at the end of the section at hand. -/
theorem Holds.enter {fields : Table} {key : String} (hd : Holds d (sections ++ [(name, fields)]))
    (hname : name ∉ sections.map (·.1)) (hkey : key ∉ fields.map (·.1)) (v : Value) :
    ∃ d', d.enter [name] [key] v = .ok d' ∧
      Holds d' (sections ++ [(name, fields ++ [(key, v)])]) := by
  let before : Table := sections.map fun s => (s.1, .table s.2)
  have htable : d.table = before ++ [(name, .table fields)] := by
    rw [hd.table, List.map_append, List.map_singleton]
  have hlast : name ∉ before.map (·.1) := by
    rwa [List.map_map]
  have hadd : addNew? key v fields = some (fields ++ [(key, v)]) := by
    simp [addNew?, Table.get?_new hkey, Table.put_new hkey]
  have hmodify : d.table.modifyNest? true (addNew? key v) [name] =
      some (before ++ [(name, .table (fields ++ [(key, v)]))]) := by
    rw [htable]
    simp [Table.modifyNest?, Table.get?_last hlast, Table.put_last hlast, hadd]
  have hheld : Holds { d with table := before ++ [(name, .table (fields ++ [(key, v)]))] }
      (sections ++ [(name, fields ++ [(key, v)])]) := by
    refine ⟨?_, ?_, hd.pending⟩
    · rw [List.map_append, List.map_singleton]
    · simpa using hd.marks
  rw [enter_single, hd.not_frozen name, hmodify]
  refine ⟨_, rfl, ?_⟩
  split
  · exact hheld.mark_frozen name key
  · exact hheld

end Document

/-! ### Lines -/

theorem statements_line {d d' : Document} {above above' : Key} {s rest : List Char}
    (hline : statement d above (skipSpace s) = .ok ((d', above'), '\n' :: rest)) (fuel : Nat) :
    statements (fuel + 1) d above s = statements fuel d' above' rest := by
  have hcomment : skipComment (skipSpace ('\n' :: rest)) = .ok ('\n' :: rest) := rfl
  rw [statements, hline]
  simp only [bind, Except.bind, hcomment]

theorem statements_blank (fuel : Nat) (d : Document) (above : Key) (rest : List Char) :
    statements (fuel + 1) d above ('\n' :: rest) = statements fuel d above rest :=
  statements_line rfl fuel

theorem statements_nil (fuel : Nat) (d : Document) (above : Key) :
    statements fuel d above [] = .ok d.table := by
  cases fuel <;> rfl

theorem statements_field {field : String × Value} (hname : IsBare field.1)
    (hvalue : field.2.IsPlain) {d d' : Document} {above : Key}
    (henter : d.enter above [field.1] field.2.reread = .ok d') (fuel : Nat) (rest : List Char) :
    statements (fuel + 1) d above (fieldText field ++ '\n' :: rest) =
      statements fuel d' above rest := by
  have hstops : Stops ('\n' :: rest) := by
    rintro c ⟨⟩
    exact Or.inr (Or.inr rfl)
  have hpair := pair_plain hname hvalue hstops
  refine statements_line ?_ fuel
  rw [fieldText, List.append_assoc] at hpair ⊢
  rw [skipSpace_bare hname, statement_pair hname, hpair]
  simp only [Except.bind, henter]

/-- A line with the name of a section. -/
def headerText (name : String) : List Char := '[' :: (name.toList ++ [']'])

theorem statements_header {name : String} (hname : IsBare name) {d d' : Document} {above : Key}
    (hopen : d.settle.openTable [name] = .ok d') (fuel : Nat) (rest : List Char) :
    statements (fuel + 1) d above (headerText name ++ '\n' :: rest) =
      statements fuel d' [name] rest := by
  have hform : headerText name ++ '\n' :: rest = '[' :: (name.toList ++ ']' :: '\n' :: rest) := by
    simp [headerText]
  have hkey : key (name.toList ++ ']' :: '\n' :: rest) = .ok ([name], ']' :: '\n' :: rest) := by
    refine key_bare hname ?_ ?_
    · rintro c ⟨⟩
      rfl
    · rintro c ⟨⟩
      decide
  have hother : ∀ tail, name.toList ++ ']' :: '\n' :: rest ≠ '[' :: tail := by
    intro tail heq
    obtain ⟨c, more, htext⟩ := List.exists_cons_of_ne_nil hname.1
    have hc : isBareKey c = true := hname.2 c (htext ▸ List.mem_cons_self)
    rw [htext] at heq
    cases heq
    cases hc
  refine statements_line ?_ fuel
  rw [hform]
  change header d.settle ('[' :: (name.toList ++ ']' :: '\n' :: rest)) = _
  unfold header
  split
  · next heq => exact absurd (List.cons.inj heq).2 (hother _)
  · simp only [List.drop_succ_cons, List.drop_zero, skipSpace_bare hname, hkey, hopen, bind,
      Except.bind]
    rfl

/-! ### Sections -/

/-- The lines of fields, with an end after every one. -/
def fieldsText (fields : Table) : List Char := fields.flatMap fun field => fieldText field ++ ['\n']

/-- A section as it is written. -/
def sectionText (s : String × Table) : List Char := headerText s.1 ++ '\n' :: fieldsText s.2

/-- The fields as they are read again. -/
def rereadFields (fields : Table) : Table := fields.map fun field => (field.1, field.2.reread)

/-- Fields are added to those above them, one line after the other. -/
theorem statements_fields {fields : Table} {name : String} {sections : List (String × Table)}
    (hname : name ∉ sections.map (·.1))
    (hfields : ∀ field ∈ fields, IsBare field.1 ∧ field.2.IsPlain) {done : Table} {d : Document}
    (hnames : (done.map (·.1) ++ fields.map (·.1)).Nodup)
    (hd : d.Holds (sections ++ [(name, done)])) (rest : List Char) {fuel : Nat}
    (hfuel : (fieldsText fields).length + rest.length ≤ fuel) :
    ∃ d' fuel', rest.length ≤ fuel' ∧ d'.Holds (sections ++ [(name, done ++ rereadFields fields)]) ∧
      statements fuel d [name] (fieldsText fields ++ rest) = statements fuel' d' [name] rest := by
  induction fields generalizing done d fuel with
  | nil =>
      refine ⟨d, fuel, ?_, ?_, rfl⟩
      · simpa [fieldsText] using hfuel
      · simpa [rereadFields] using hd
  | cons field fields ih =>
      obtain ⟨⟨hbare, hplain⟩, hmore⟩ := List.forall_mem_cons.mp hfields
      have hnew : field.1 ∉ done.map (·.1) := by
        intro hmem
        exact (List.nodup_append.mp hnames).2.2 _ hmem _ List.mem_cons_self rfl
      obtain ⟨d₁, henter, hd₁⟩ := hd.enter hname hnew field.2.reread
      have hnames₁ :
          ((done ++ [(field.1, field.2.reread)]).map (·.1) ++ fields.map (·.1)).Nodup := by
        simpa using hnames
      have htext : fieldsText (field :: fields) ++ rest =
          fieldText field ++ '\n' :: (fieldsText fields ++ rest) := by
        simp [fieldsText]
      have hlength : (fieldsText (field :: fields)).length + rest.length =
          (fieldText field).length + 1 + ((fieldsText fields).length + rest.length) := by
        rw [← List.length_append, htext, List.length_append, List.length_cons, List.length_append]
        omega
      -- A line takes one unit of fuel and has at least one character, so what is left is enough.
      obtain ⟨fuel, rfl⟩ : ∃ n, fuel = n + 1 := ⟨fuel - 1, by omega⟩
      have hfuel₁ : (fieldsText fields).length + rest.length ≤ fuel := by omega
      obtain ⟨d', fuel', hfuel', hd', hread⟩ := ih hmore hnames₁ hd₁ hfuel₁
      refine ⟨d', fuel', hfuel', ?_, ?_⟩
      · simpa [rereadFields] using hd'
      · rw [htext, statements_field hbare hplain henter, hread]

/-- A section that can be written and read again: bare names, no two of them alike in it, and plain
values. -/
structure IsWritable (s : String × Table) : Prop where
  name : IsBare s.1
  keys : (s.2.map (·.1)).Nodup
  fields : ∀ field ∈ s.2, IsBare field.1 ∧ field.2.IsPlain

theorem statements_section {s : String × Table} (hs : IsWritable s)
    {sections : List (String × Table)} (hname : s.1 ∉ sections.map (·.1)) {d : Document}
    (hd : d.Holds sections) (above : Key) (rest : List Char) {fuel : Nat}
    (hfuel : (sectionText s).length + rest.length ≤ fuel) :
    ∃ d' fuel', rest.length ≤ fuel' ∧ d'.Holds (sections ++ [(s.1, rereadFields s.2)]) ∧
      statements fuel d above (sectionText s ++ rest) = statements fuel' d' [s.1] rest := by
  have hopened := hd.openTable hname
  rw [← hd.settle] at hopened
  obtain ⟨d₁, hopen, hd₁⟩ := hopened
  have htext : sectionText s ++ rest = headerText s.1 ++ '\n' :: (fieldsText s.2 ++ rest) := by
    simp [sectionText]
  rw [sectionText, List.length_append, List.length_cons] at hfuel
  obtain ⟨fuel, rfl⟩ : ∃ n, fuel = n + 1 := ⟨fuel - 1, by omega⟩
  have hfuel₁ : (fieldsText s.2).length + rest.length ≤ fuel := by omega
  have hkeys : (([] : Table).map (·.1) ++ s.2.map (·.1)).Nodup := hs.keys
  obtain ⟨d', fuel', hfuel', hd', hread⟩ :=
    statements_fields hname hs.fields hkeys hd₁ rest hfuel₁
  refine ⟨d', fuel', hfuel', hd', ?_⟩
  rw [htext, statements_header hs.name hopen, hread]

/-- Sections with a blank line before each. -/
def spacedText (sections : List (String × Table)) : List Char :=
  sections.flatMap fun s => '\n' :: sectionText s

theorem statements_sections {sections done : List (String × Table)}
    (hsections : ∀ s ∈ sections, IsWritable s)
    (hnames : (done.map (·.1) ++ sections.map (·.1)).Nodup) {d : Document} (hd : d.Holds done)
    (above : Key) (fuel : Nat) (hfuel : (spacedText sections).length ≤ fuel) :
    statements fuel d above (spacedText sections) =
      .ok ((done ++ sections.map fun s => (s.1, rereadFields s.2)).map fun s =>
        (s.1, .table s.2)) := by
  induction sections generalizing done d above fuel with
  | nil =>
      change statements fuel d above [] = _
      rw [statements_nil, hd.table]
      simp
  | cons s sections ih =>
      obtain ⟨hs, hmore⟩ := List.forall_mem_cons.mp hsections
      have hnew : s.1 ∉ done.map (·.1) := by
        intro hmem
        exact (List.nodup_append.mp hnames).2.2 _ hmem _ List.mem_cons_self rfl
      have htext : spacedText (s :: sections) = '\n' :: (sectionText s ++ spacedText sections) := by
        simp [spacedText]
      rw [htext, List.length_cons, List.length_append] at hfuel
      obtain ⟨fuel, rfl⟩ : ∃ n, fuel = n + 1 := ⟨fuel - 1, by omega⟩
      have hfuel₁ : (sectionText s).length + (spacedText sections).length ≤ fuel := by omega
      obtain ⟨d', fuel', hfuel', hd', hread⟩ := statements_section hs hnew hd above _ hfuel₁
      have hnames' : ((done ++ [(s.1, rereadFields s.2)]).map (·.1) ++
          sections.map (·.1)).Nodup := by
        simpa using hnames
      rw [htext, statements_blank, hread, ih hmore hnames' hd' [s.1] fuel' hfuel']
      simp

/-! ### Whole documents -/

/-- A document as it is written: its sections with a blank line between any two. -/
def documentText : List (String × Table) → List Char
  | [] => []
  | s :: more => sectionText s ++ spacedText more

theorem return_not_mem_bare {name : String} (hname : IsBare name) : '\r' ∉ name.toList := by
  intro hmem
  cases hname.2 _ hmem

theorem return_not_mem_section {s : String × Table} (hs : IsWritable s) :
    '\r' ∉ sectionText s := by
  have hname := return_not_mem_bare hs.name
  have hfields : '\r' ∉ fieldsText s.2 := by
    rw [fieldsText, List.mem_flatMap]
    rintro ⟨field, hfield, hmem⟩
    have hkey := return_not_mem_bare (hs.fields field hfield).1
    have hvalue := return_not_mem_toml field.2
    simp [fieldText, hkey, hvalue] at hmem
  simp [sectionText, headerText, hname, hfields]

/-- A written document has no carriage return: in a text it is escaped. -/
theorem return_not_mem_document {sections : List (String × Table)}
    (hsections : ∀ s ∈ sections, IsWritable s) : '\r' ∉ documentText sections := by
  cases sections with
  | nil => exact List.not_mem_nil
  | cons s more =>
      obtain ⟨hs, hmore⟩ := List.forall_mem_cons.mp hsections
      have hspaced : '\r' ∉ spacedText more := by
        rw [spacedText, List.mem_flatMap]
        rintro ⟨other, hother, hmem⟩
        have hsection := return_not_mem_section (hmore other hother)
        simp [hsection] at hmem
      simp [documentText, return_not_mem_section hs, hspaced]

theorem unifyLineEnds_eq_self {s : List Char} (hs : '\r' ∉ s) : unifyLineEnds s = s := by
  fun_induction unifyLineEnds s with
  | case1 => rfl
  | case2 rest => exact absurd List.mem_cons_self hs
  | case3 c rest _ ih => rw [ih fun hmem => hs (List.mem_cons_of_mem c hmem)]

theorem parse_ofList (s : List Char) :
    parse (String.ofList s) =
      statements ((unifyLineEnds s).length + 1) {} [] (unifyLineEnds s) := by
  rw [parse, String.toList_ofList]

/-- Reading undoes writing, but for the decimals that were not written. -/
theorem parse_documentText {sections : List (String × Table)}
    (hsections : ∀ s ∈ sections, IsWritable s) (hnames : (sections.map (·.1)).Nodup) :
    parse (String.ofList (documentText sections)) =
      .ok (sections.map fun s => (s.1, .table (rereadFields s.2))) := by
  have hends := unifyLineEnds_eq_self (return_not_mem_document hsections)
  rw [parse_ofList, hends]
  cases sections with
  | nil => rfl
  | cons s more =>
      -- A blank line in front makes the first section one like the others.
      have hspaced : '\n' :: documentText (s :: more) = spacedText (s :: more) := by
        simp [documentText, spacedText]
      have hnames' : (([] : List (String × Table)).map (·.1) ++ (s :: more).map (·.1)).Nodup :=
        hnames
      have hread := statements_sections hsections hnames' Document.Holds.empty []
        ((documentText (s :: more)).length + 2) (by rw [← hspaced, List.length_cons]; omega)
      rw [← statements_blank, hspaced, hread]
      simp

end Conductor.Toml
