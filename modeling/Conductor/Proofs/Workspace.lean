import Conductor.Workspace
import Conductor.Proofs.Text.Utf8

/-!
Files that were written. A path that leads to a file, or to a place for one, leads to the new file
after writing, since all names on the way are those of directories and none of them was written to;
its text is then read as it was written, if it has no carriage return.
-/

namespace Conductor

namespace Text

theorem normalizeNewlines_eq_self {s : List Char} (hs : '\r' ∉ s) : normalizeNewlines s = s := by
  fun_induction normalizeNewlines s with
  | case1 => rfl
  | case2 rest => exact absurd List.mem_cons_self hs
  | case3 c rest _ ih =>
      obtain ⟨hc, hrest⟩ := not_or.mp (mt List.mem_cons.mpr hs)
      rw [ih hrest, if_neg (Ne.symm hc)]

end Text

namespace Workspace

variable {ws : Workspace} {here names : List String} {bytes : List UInt8}

/-! ### Nodes -/

/-- One entry when a node is put in the place of another: the names stay. -/
def replaced (names : List String) (node : Node) (entry : List String × Node) :
    List String × Node :=
  if entry.1 == names then (names, node) else entry

theorem replaced_fst (names : List String) (node : Node) (entry : List String × Node) :
    (replaced names node entry).1 = entry.1 := by
  unfold replaced
  split
  · next heq => exact (beq_iff_eq.mp heq).symm
  · rfl

theorem find?_replaced (names others : List String) (node : Node)
    (nodes : List (List String × Node)) :
    (nodes.map (replaced names node)).find? (fun entry => entry.1 == others) =
      (nodes.find? fun entry => entry.1 == others).map (replaced names node) := by
  rw [List.find?_map]
  congr 2
  funext entry
  rw [Function.comp_apply, replaced_fst]

theorem node?_of_ne_nil (ws : Workspace) (hnames : names ≠ []) :
    ws.node? names = (ws.nodes.find? fun entry => entry.1 == names).map (·.2) := by
  rw [node?, if_neg (by simpa using hnames)]

theorem node?_put_self (ws : Workspace) (hnames : names ≠ []) (node : Node) :
    (ws.put names node).node? names = some node := by
  rw [node?_of_ne_nil _ hnames, put, node?_of_ne_nil _ hnames]
  cases hfind : ws.nodes.find? fun entry => entry.1 == names with
  | none => simp [List.find?_append, hfind]
  | some entry =>
      have hentry : entry.1 = names := by simpa using List.find?_some hfind
      change ((ws.nodes.map (replaced names node)).find? fun entry => entry.1 == names).map (·.2) =
        _
      rw [find?_replaced, hfind]
      simp [replaced, hentry]

theorem node?_put_other (ws : Workspace) {others : List String} (hne : others ≠ names)
    (node : Node) : (ws.put names node).node? others = ws.node? others := by
  by_cases hnil : others = []
  · subst hnil
    rfl
  rw [node?_of_ne_nil _ hnil, node?_of_ne_nil _ hnil, put]
  split
  · change ((ws.nodes.map (replaced names node)).find? fun entry => entry.1 == others).map (·.2) = _
    rw [find?_replaced]
    cases hfind : ws.nodes.find? fun entry => entry.1 == others with
    | none => rfl
    | some entry =>
        have hentry : entry.1 = others := by simpa using List.find?_some hfind
        simp [replaced, hentry, hne]
  · have hlast : (names == others) = false := beq_false_of_ne (Ne.symm hne)
    simp [List.find?_append, hlast]

/-! ### Places -/

/-- Where a path leads if a file can be written there: to a file, or to a place in a directory where
nothing is. -/
inductive Free (names : List String) : Place → Prop where
  | vacant : Free names (.vacant names)
  | found (bytes : List UInt8) : Free names (.found names (.file bytes))

/-- One name of a path to such a place: it goes up, is the last one, or is that of a directory. -/
theorem Free.step {name : String} {rest : List String}
    (hfree : Free names (ws.follow here (name :: rest))) :
    (name = ".." ∧ Free names (ws.follow here.dropLast rest)) ∨
    (name ≠ ".." ∧ name.utf8ByteSize ≤ maxNameBytes ∧
      ((rest = [] ∧ names = here ++ [name] ∧ ws.node? names ≠ some .directory) ∨
        (ws.node? (here ++ [name]) = some .directory ∧
          Free names (ws.follow (here ++ [name]) rest)))) := by
  rw [follow] at hfree
  split at hfree
  · next hup => exact Or.inl ⟨hup, hfree⟩
  next hdown =>
  split at hfree
  · cases hfree
  next hsize =>
  refine Or.inr ⟨hdown, Nat.le_of_not_lt hsize, ?_⟩
  simp only at hfree
  split at hfree
  · next hnone =>
      split at hfree
      · next hlast =>
          cases hfree
          exact Or.inl ⟨List.isEmpty_iff.mp hlast, rfl, by simp [hnone]⟩
      · cases hfree
  · next hdirectory => exact Or.inr ⟨hdirectory, hfree⟩
  · next bytes hfile =>
      split at hfree
      · next hlast =>
          cases hfree
          exact Or.inl ⟨List.isEmpty_iff.mp hlast, rfl, by simp [hfile]⟩
      · cases hfree

theorem Free.not_directory {rest : List String} (hfree : Free names (ws.follow here rest)) :
    ws.node? names ≠ some .directory := by
  induction rest generalizing here with
  | nil => cases hfree
  | cons name rest ih =>
      rcases hfree.step with ⟨-, hup⟩ | ⟨-, -, ⟨-, -, hlast⟩ | ⟨-, hdown⟩⟩
      · exact ih hup
      · exact hlast
      · exact ih hdown

/-- After writing, the path leads to the new file: the directories on the way are still there. -/
theorem Free.follow_put {rest : List String} (hfree : Free names (ws.follow here rest)) :
    (ws.put names (.file bytes)).follow here rest = .found names (.file bytes) := by
  -- What is replaced is no directory, so it is none of those on the way.
  have hother := hfree.not_directory
  induction rest generalizing here with
  | nil => cases hfree
  | cons name rest ih =>
      rw [follow]
      rcases hfree.step with ⟨hup, hmore⟩ | ⟨hdown, hsize, hstep⟩
      · rw [if_pos hup, ih hmore]
      rw [if_neg hdown, if_neg (Nat.not_lt.mpr hsize)]
      rcases hstep with ⟨rfl, rfl, -⟩ | ⟨hdirectory, hmore⟩
      · have hself := node?_put_self ws (by simp : here ++ [name] ≠ []) (.file bytes)
        simp [hself]
      · have hne : here ++ [name] ≠ names := by
          rintro rfl
          exact hother hdirectory
        have hkept := (node?_put_other ws hne (.file bytes)).trans hdirectory
        simp only [hkept]
        exact ih hmore

/-- A path at which a file can be written. -/
def IsWritable (ws : Workspace) (path : Path) : Prop := ∃ names, Free names (ws.locate path)

/-- A file that can be written is found afterwards. -/
theorem IsWritable.write {path : Path} (hpath : ws.IsWritable path) (bytes : List UInt8) :
    ∃ names ws', ws.write path bytes = .ok ws' ∧ ws'.locate path = .found names (.file bytes) := by
  obtain ⟨names, hfree⟩ := hpath
  have hwrite : ws.write path bytes = .ok (ws.put names (.file bytes)) := by
    unfold Workspace.write
    generalize ws.locate path = place at hfree ⊢
    cases hfree <;> rfl
  refine ⟨names, _, hwrite, ?_⟩
  unfold locate at hfree ⊢
  split at hfree
  · cases hfree
  next hnamed =>
  split at hfree
  · cases hfree
  next hshort =>
  rw [if_neg hnamed, if_neg hshort]
  exact hfree.follow_put

theorem contains_of_locate {path : Path} {node : Node}
    (hfound : ws.locate path = .found names node) : ws.contains path = .ok true := by
  rw [contains, hfound]

theorem readText_of_locate {path : Path} {text : String}
    (hfound : ws.locate path = .found names (.file (Utf8.encode text))) :
    ws.readText path = .ok (String.ofList (Text.normalizeNewlines text.toList)) := by
  unfold readText
  simp only [hfound, Utf8.strict_encode]

end Workspace

end Conductor
