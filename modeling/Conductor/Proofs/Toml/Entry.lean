import Conductor.Proofs.Toml.Document

/-!
A document of one line, with a name and a value that loses nothing when it is written. The line is
read as it was written, unless one of its texts, however deep in lists it stands, has the one
character that is written as it is and refused.
-/

namespace Conductor

/-! ### Values without fractions -/

namespace Value

mutual

/-- Values that lose nothing when they are written: truth values, whole numbers of not too many
digits, texts, and lists of such. -/
def IsExact : Value → Prop
  | bool _ => True
  | int n => fitsDigits n = true
  | text _ => True
  | list items => AreExact items
  | _ => False

def AreExact : List Value → Prop
  | [] => True
  | v :: rest => IsExact v ∧ AreExact rest

end

mutual

/-- All texts in a value. -/
def texts : Value → List String
  | text s => [s]
  | list items => textsIn items
  | _ => []

def textsIn : List Value → List String
  | [] => []
  | v :: rest => texts v ++ textsIn rest

end

mutual

theorem reread_of_isExact : ∀ {v : Value}, v.IsExact → v.reread = v
  | .list items, hitems => by rw [reread, rereadItems_of_areExact hitems]
  | .bool _, _ | .int _, _ | .text _, _ => rfl

theorem rereadItems_of_areExact : ∀ {items : List Value}, AreExact items → rereadItems items = items
  | [], _ => rfl
  | v :: rest, hitems => by
      rw [rereadItems, reread_of_isExact hitems.1, rereadItems_of_areExact hitems.2]

end

mutual

/-- Such a value can be read again if this holds of its texts. -/
theorem isPlain_iff_texts : ∀ {v : Value}, v.IsExact →
    (v.IsPlain ↔ ∀ s ∈ v.texts, Toml.delete ∉ s.toList)
  | .list items, hitems => arePlain_iff_texts hitems
  | .bool _, _ => iff_of_true trivial (by simp [texts])
  | .int _, hn => iff_of_true hn (by simp [texts])
  | .text s, _ => by simp [texts, IsPlain]

theorem arePlain_iff_texts : ∀ {items : List Value}, AreExact items →
    (ArePlain items ↔ ∀ s ∈ textsIn items, Toml.delete ∉ s.toList)
  | [], _ => iff_of_true trivial (by simp [textsIn])
  | v :: rest, hitems => by
      rw [ArePlain, isPlain_iff_texts hitems.1, arePlain_iff_texts hitems.2, textsIn,
        List.forall_mem_append]

end

end Value

namespace Toml

open Value Text

/-! ### Where reading stops -/

/-- What is said of a character that may not stand in a text. -/
def illegal : Problem := .malformed "Illegal character"

/-- Whatever comes later, a text is refused at the character. -/
theorem basicBody_of_delete {s : List Char} (hs : delete ∈ s) (rest : List Char) :
    basicBody false .plain (s.flatMap literalChar ++ rest) = .error illegal := by
  induction s with
  | nil => cases hs
  | cons c s ih =>
      rw [List.flatMap_cons, List.append_assoc]
      by_cases hc : c = delete
      · subst hc
        rfl
      · have hmore := ih (List.mem_of_ne_of_mem (Ne.symm hc) hs)
        rw [basicBody_literalChar hc, hmore]
        rfl

theorem string?_of_delete {s : List Char} (hs : delete ∈ s) (rest : List Char) :
    string? (literalChars s ++ rest) = some (.error illegal) := by
  have hform : literalChars s ++ rest = '"' :: (s.flatMap literalChar ++ '"' :: rest) := by
    simp [literalChars]
  rw [hform, string?_quote, basicBody_of_delete hs]
  intro tail
  obtain ⟨c, more, rfl⟩ := List.exists_cons_of_ne_nil (List.ne_nil_of_mem hs)
  rw [List.flatMap_cons, List.append_assoc]
  exact literalChar_ne_quote c _ _

theorem value_of_delete {s : String} (hs : delete ∈ s.toList) (fuel : Nat) (rest : List Char) :
    value (fuel + 1) ((Value.text s).toml.toList ++ rest) = .error illegal := by
  rw [toList_toml_text, value.eq_def]
  simp only [string?_of_delete hs]
  rfl

/-- A list is refused with the first of its items that is. -/
theorem listItems_of_refused {v : Value} {items : List Value} {fuel : Nat} {problem : Problem}
    (rest : List Char)
    (hvalue : ∀ after, value fuel (v.toml.toList ++ after) = .error problem) :
    listItems (fuel + 1) (itemsText (v :: items) ++ rest) = .error problem := by
  obtain ⟨tail, htext⟩ := itemsText_cons v items
  have hread := hvalue (tail ++ rest)
  obtain ⟨c, more, hform, -, -, hclose⟩ := (solid_toml v).append (tail ++ rest)
  rw [hform] at hread
  rw [htext, List.append_assoc, hform, listItems.eq_def]
  simp only
  split
  · next heq => exact absurd (List.cons.inj heq).1 hclose
  · rw [hread]
    rfl

/-- The values before the character are read, and there reading stops: by induction on the fuel as
where all is well, for values and for what is left of a list. -/
theorem refuse_toml (fuel : Nat) :
    (∀ v : Value, v.IsExact → ¬ v.IsPlain → v.toml.toList.length ≤ fuel → ∀ rest,
      value fuel (v.toml.toList ++ rest) = .error illegal) ∧
    ∀ items : List Value, AreExact items → ¬ ArePlain items → (itemsText items).length ≤ fuel →
      ∀ rest, listItems fuel (itemsText items ++ rest) = .error illegal := by
  induction fuel with
  | zero =>
      constructor
      · intro v _ _ hfuel
        obtain ⟨c, tail, htext, -⟩ := solid_toml v
        rw [htext] at hfuel
        exact absurd hfuel (Nat.not_succ_le_zero _)
      · intro items _ _ hfuel
        rw [itemsText, List.length_append] at hfuel
        exact absurd hfuel (Nat.not_succ_le_zero _)
  | succ fuel ih =>
      obtain ⟨ihvalue, ihitems⟩ := ih
      constructor
      · intro v hv hrefused hfuel rest
        cases v with
        | text s =>
            rw [IsPlain, not_not] at hrefused
            exact value_of_delete hrefused fuel rest
        | list items =>
            rw [toList_toml_list, List.length_cons] at hfuel
            rw [value_list, ihitems items hv hrefused (Nat.le_of_succ_le_succ hfuel) rest]
            rfl
        | bool b => exact absurd trivial hrefused
        | int n => exact absurd hv hrefused
        | null | float | table | moment => exact hv.elim
      · intro items hitems hrefused hfuel rest
        cases items with
        | nil => exact absurd trivial hrefused
        | cons v items =>
            obtain ⟨hfirst, hmore⟩ := length_itemsText v items
            by_cases hv : v.IsPlain
            · have hlater : ¬ ArePlain items := fun hplain => hrefused ⟨hv, hplain⟩
              cases items with
              | nil => exact absurd trivial hlater
              | cons w items =>
                  have hread : ∀ after, Stops after →
                      value fuel (v.toml.toList ++ after) = .ok (v.reread, after) :=
                    fun after hafter => (read_toml fuel).1 v hv (by omega) after hafter
                  rw [listItems_cons_cons rest hread,
                    ihitems (w :: items) hitems.2 hlater (by omega) rest]
                  rfl
            · exact listItems_of_refused rest (ihvalue v hitems.1 hv (by omega))

/-! ### Documents of one line -/

/-- A line with a name and a value, as a document of its own. -/
def entry (name : String) (v : Value) : String := name ++ " = " ++ v.toml

theorem toList_entry (name : String) (v : Value) : (entry name v).toList = fieldText (name, v) := by
  simp [entry, fieldText]

theorem return_not_mem_entry {name : String} (hname : IsBare name) (v : Value) :
    '\r' ∉ (entry name v).toList := by
  simp [entry, return_not_mem_bare hname, return_not_mem_toml v]

theorem enter_empty (name : String) (v : Value) :
    ∃ d : Document, Document.enter {} [] [name] v = .ok d ∧ d.table = [(name, v)] := by
  have hadd : Table.modifyNest? true (Document.addNew? name v) [] [] = some [(name, v)] := rfl
  have hfrozen : Document.isMarked {} [] .frozen = false := rfl
  rw [Document.enter_single, hfrozen, hadd]
  refine ⟨_, rfl, ?_⟩
  split <;> rfl

theorem stops_nil : Stops [] := by
  rintro c ⟨⟩

/-- What is read for the value decides what is read for the document. -/
theorem parse_entry {name : String} (hname : IsBare name) {v : Value} {r : Except Problem Value}
    (hvalue : value (v.toml.toList.length + 1) v.toml.toList = r.map fun w => (w, [])) :
    parse (entry name v) = r.map fun w => [(name, w)] := by
  have hends := unifyLineEnds_eq_self (return_not_mem_entry hname v)
  rw [toList_entry] at hends
  have hpair := @pair_fieldText (name, v) hname []
  simp only [List.append_nil, hvalue] at hpair
  rw [parse, toList_entry, hends, statements]
  rw [fieldText] at hpair ⊢
  rw [skipSpace_bare hname, statement_pair hname, hpair]
  cases r with
  | error problem => rfl
  | ok w =>
      obtain ⟨d, henter, htable⟩ := enter_empty name w
      simp only [Except.map, Except.bind, henter, bind]
      exact congrArg Except.ok htable

/-- A whole number of too many digits is written, but not read. -/
theorem parse_entry_of_unfit {name : String} (hname : IsBare name) {n : Int}
    (hn : fitsDigits n = false) :
    parse (entry name (.int n)) = .error (.numberTooLong (Binary64.digitsOf n.natAbs).length) := by
  have hread := value_int n (Value.int n).toml.toList.length stops_nil
  rw [List.append_nil, hn] at hread
  exact @parse_entry name hname (.int n) (.error _) hread

/-- A line with a bare name and a value of texts, truth values, whole numbers of not too many digits
and lists of such is read as it was written exactly if none of the texts has the character U+007F;
if one has it, the document is refused as one with an illegal character. -/
theorem parse_entry_iff (name : String) (v : Value) (hname : IsBare name) (hv : v.IsExact) :
    (parse (entry name v) = .ok [(name, v)] ↔ ∀ s ∈ v.texts, delete ∉ s.toList) ∧
      ((∃ s ∈ v.texts, delete ∈ s.toList) → parse (entry name v) = .error illegal) := by
  have hrefused (hplain : ¬ v.IsPlain) : parse (entry name v) = .error illegal := by
    have hread := (refuse_toml (v.toml.toList.length + 1)).1 v hv hplain (Nat.le_succ _) []
    rw [List.append_nil] at hread
    exact @parse_entry name hname v (.error illegal) hread
  rw [← isPlain_iff_texts hv]
  constructor
  · constructor
    · intro hread
      by_contra hplain
      rw [hrefused hplain] at hread
      cases hread
    · intro hplain
      have hread := (read_toml (v.toml.toList.length + 1)).1 v hplain (Nat.le_succ _) [] stops_nil
      rw [List.append_nil, reread_of_isExact hv] at hread
      exact @parse_entry name hname v (.ok v) hread
  · rintro ⟨s, hs, hdelete⟩
    refine hrefused ?_
    rw [isPlain_iff_texts hv]
    exact fun hplain => hplain s hs hdelete

/-- A list in which every kind of value stands, with the texts that are hardest to write. -/
def nested (s : String) : Value :=
  .list [.bool true, .list [.int (-40), .list []], .text "\"\\\n\x01\u2028😀", .list [.text s]]

theorem parse_entry_nested :
    parse (entry "k" (nested "'''")) = .ok [("k", nested "'''")] ∧
      parse (entry "k" (nested "\x7f")) = .error illegal := by
  have hname : IsBare "k" := by decide
  have hnumber : fitsDigits (-40) = true := by decide +kernel
  have hexact (s : String) : (nested s).IsExact :=
    ⟨trivial, ⟨hnumber, trivial, trivial⟩, trivial, ⟨trivial, trivial⟩, trivial⟩
  constructor
  · refine (parse_entry_iff "k" _ hname (hexact _)).1.mpr ?_
    decide
  · refine (parse_entry_iff "k" _ hname (hexact _)).2 ?_
    exact ⟨"\x7f", by simp [nested, texts, textsIn], by decide⟩

end Toml

end Conductor
