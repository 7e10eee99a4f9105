import Conductor.Pattern.Preference

/-!
Searching a text for a pattern. Matching works on sets of positions: a set is a natural number whose
bit `i` says whether position `i` belongs to it, and a pattern maps the set of positions where it
may start to the set of positions where it may end. Only whether there is a match matters, so the
order in which alternatives are tried does not, except inside of what a possessive repetition takes.
-/

namespace Conductor.Pattern

/-- A set that is put together from its greatest member down: the part that is done, the word that
is being filled, and how many members it has room for so far. -/
structure Filling where
  done : Nat := 0
  word : Nat := 0
  width : Nat := 0

/-- The number of bits of a word; filling a word before it is moved keeps the work small. -/
def wordSize : Nat := 60

def Filling.push (member : Bool) (f : Filling) : Filling :=
  let word := 2 * f.word + (if member then 1 else 0)
  if f.width + 1 = wordSize then { done := (f.done <<< wordSize) ||| word }
  else { f with word, width := f.width + 1 }

def Filling.total (f : Filling) : Nat := (f.done <<< f.width) ||| f.word

/-- The positions of the characters that have a property. -/
def places (p : Char → Bool) (text : List Char) : Nat :=
  (text.foldr (fun c (f : Filling) => f.push (p c)) {}).total

/-- The positions between characters where `p` holds of the character before and the one after. -/
def edges (p : Option Char → Option Char → Bool) (text : List Char) : Nat :=
  let before := none :: text.map some
  let after := text.map some ++ [none]
  ((before.zip after).foldr (fun (c, d) (f : Filling) => f.push (p c d)) {}).total

/-- The set `all` and what a step reaches from `s`, which is part of it, in at most so many
applications. Once a step reaches nothing new, none will. -/
def closure (step : Nat → Nat) : Nat → Nat → Nat → Nat
  | 0, all, _ => all
  | n + 1, all, s =>
    let next := step s
    if all ||| next = all then all else closure step n (all ||| next) next

/-- How a set of starts becomes a set of ends. -/
structure Step where
  run : Nat → Nat

namespace Step

/-- Takes one character, which has to stand at one of the given positions. -/
def take (positions : Nat) : Step := ⟨fun s => (s &&& positions) <<< 1⟩

/-- Takes nothing, at one of the given positions. -/
def stay (positions : Nat) : Step := ⟨fun s => s &&& positions⟩

end Step

/-- Possessive repetitions of a pattern. -/
def possessiveStep (text : Array Char) (p : Pattern) (rounds : Rounds) : Step :=
  let firsts := (Array.range (text.size + 1)).map fun i => (ends text p i).head?
  let first (i : Nat) : Option Nat := (firsts[i]?).bind id
  let resting := restingPlaces first text.size
  let goOn (i : Nat) : Nat :=
    match rounds.optional with
    | some more => onward first more i
    | none => (resting[text.size - i]?).getD i
  ⟨fun s =>
    (List.range (text.size + 1)).foldl (fun found i =>
      if Nat.testBit s i then
        match onwardExactly first rounds.required i with
        | some j => found ||| (1 <<< goOn j)
        | none => found
      else found) 0⟩

/-- Where matches end that start in a set of positions. What depends on the text alone is worked out
once. -/
def step (text : Array Char) : Pattern → Step
  | empty => ⟨id⟩
  | char c => .take (alikePlaces c)
  | otherThan c => .take (places (fun _ => true) text.toList ^^^ alikePlaces c)
  | any => .take (places (· != '\n') text.toList)
  | oneOf negated classes => .take (places (inSet negated classes) text.toList)
  | textStart => .stay 1
  | absoluteStart => .stay 1
  | textEnd =>
    let last := 1 <<< text.size
    .stay (if text.back? = some '\n' then last ||| (last >>> 1) else last)
  | absoluteEnd => .stay (1 <<< text.size)
  | wordEdge negated => .stay (if text.isEmpty then 0 else edges (isEdge negated) text.toList)
  | group p => step text p
  | both first second =>
    let before := step text first
    let after := step text second
    ⟨fun s => after.run (before.run s)⟩
  | either first second =>
    let one := step text first
    let other := step text second
    ⟨fun s => one.run s ||| other.run s⟩
  | times p low high eagerness =>
    let rounds := roundsIn text.size low high
    match eagerness with
    | .possessive => possessiveStep text p rounds
    | _ =>
      let body := step text p
      ⟨fun s =>
        let start := Nat.repeat body.run rounds.required s
        closure body.run (rounds.more text.size) start start⟩
where
  alikePlaces (c : Char) : Nat :=
    let likes := Text.alikes (Text.lowerChar c)
    places (fun d => likes.contains (Text.lowerChar d)) text.toList

/-- Whether the pattern matches anywhere in the text. -/
def occursIn (p : Pattern) (text : String) : Bool :=
  let cs := text.toList.toArray
  (step cs p).run (Nat.pow 2 (cs.size + 1) - 1) != 0

end Conductor.Pattern
