/-!
How similar two words are. The longest run of characters that both have in common is matched first,
then what stands before it and what stands after it in the same way; the more characters find a
partner, the more similar the words.
-/

namespace Conductor.Text

/-- How many characters two texts have in common from their start. -/
def commonStart : List Char → List Char → Nat
  | c :: s, d :: t => if c = d then commonStart s t + 1 else 0
  | _, _ => 0

/-- A run of characters that two texts have in common. -/
structure CommonRun where
  left : Nat
  right : Nat
  length : Nat

/-- The longest run in common; of several, the one that starts first on the left, and of those the
one that starts first on the right. -/
def longestRun (s t : List Char) : CommonRun :=
  let runs := (List.range s.length).flatMap fun i => (List.range t.length).map fun j =>
    { left := i, right := j, length := commonStart (s.drop i) (t.drop j) : CommonRun }
  runs.foldl (fun best run => if best.length < run.length then run else best) ⟨0, 0, 0⟩

/-- How many characters of the first text find a partner in the second. -/
def matched (s t : List Char) : Nat :=
  match longestRun s t with
  | ⟨left, right, length⟩ =>
    if 0 < length ∧ left < s.length then
      length + matched (s.take left) (t.take right) +
        matched (s.drop (left + length)) (t.drop (right + length))
    else 0
termination_by s.length
decreasing_by
  · simp only [List.length_take]
    omega
  · simp only [List.length_drop]
    omega

/-- A similarity: twice the number of matched characters over the number of all characters. -/
structure Similarity where
  twiceMatched : Nat
  total : Nat

namespace Similarity

def between (s t : List Char) : Similarity :=
  { twiceMatched := 2 * matched s t, total := s.length + t.length }

/-- Whether at least three fifths of all characters are matched. -/
def isClose (x : Similarity) : Bool := 3 * x.total ≤ 5 * x.twiceMatched

def less (x y : Similarity) : Bool := x.twiceMatched * y.total < y.twiceMatched * x.total

end Similarity

/-- Whether two texts can be close at all: no more characters are matched than the shorter one
has. -/
def canBeClose (s t : List Char) : Bool := 3 * (s.length + t.length) ≤ 10 * min s.length t.length

/-- The candidates that come close to a word, at most three of them: the most similar ones, and of
equally similar ones those that come last in order. -/
def closeTo (word : String) (candidates : List String) : List String :=
  let possible := candidates.filter fun c => canBeClose c.toList word.toList
  let scored := possible.map fun c => (Similarity.between c.toList word.toList, c)
  let before (x y : Similarity × String) : Bool :=
    y.1.less x.1 || (!x.1.less y.1 && decide (y.2 ≤ x.2))
  (((scored.filter fun x => x.1.isClose).mergeSort before).take 3).map (·.2)

end Conductor.Text
