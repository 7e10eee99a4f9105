import Conductor.Text.Utf8

/-!
UTF-8 read in one piece. At each place stands either a character or a fault. A fault takes the
longest start of a character that is there, or a single byte that starts none, and one replacement
character stands for it.
-/

namespace Conductor.Utf8

/-- The ranges in which the bytes after a first byte have to be; `none` for a byte that starts no
character. -/
def tailRanges? (b : Nat) : Option (List (Nat × Nat)) :=
  if b < 0x80 then some []
  else if b < 0xc2 then none
  else if b < 0xe0 then some [(0x80, 0xbf)]
  else if b = 0xe0 then some [(0xa0, 0xbf), (0x80, 0xbf)]
  else if b = 0xed then some [(0x80, 0x9f), (0x80, 0xbf)]
  else if b < 0xf0 then some [(0x80, 0xbf), (0x80, 0xbf)]
  else if b = 0xf0 then some [(0x90, 0xbf), (0x80, 0xbf), (0x80, 0xbf)]
  else if b < 0xf4 then some [(0x80, 0xbf), (0x80, 0xbf), (0x80, 0xbf)]
  else if b = 0xf4 then some [(0x80, 0x8f), (0x80, 0xbf), (0x80, 0xbf)]
  else none

/-- How many bytes from the front lie in their ranges. -/
def fitting : List (Nat × Nat) → List UInt8 → Nat
  | (low, high) :: ranges, byte :: rest =>
    if low ≤ byte.toNat ∧ byte.toNat ≤ high then fitting ranges rest + 1 else 0
  | _, _ => 0

/-- The bits that a first byte gives to a character with so many bytes after it. -/
def leadBits (b tails : Nat) : Nat :=
  match tails with
  | 0 => b
  | 1 => b - 0xc0
  | 2 => b - 0xe0
  | _ => b - 0xf0

/-- The code point of a first byte and the bytes after it, each of which gives six bits. -/
def codePoint (b : Nat) (tail : List UInt8) : Nat :=
  tail.foldl (fun bits byte => bits * 64 + (byte.toNat - 0x80)) (leadBits b tail.length)

/-- The text of any bytes. -/
def decode : List UInt8 → List Char
  | [] => []
  | byte :: rest =>
    match tailRanges? byte.toNat with
    | none => replacement :: decode rest
    | some ranges =>
      let count := fitting ranges rest
      if count = ranges.length then
        Char.ofNat (codePoint byte.toNat (rest.take count)) :: decode (rest.drop count)
      else replacement :: decode (rest.drop count)
termination_by bytes => bytes.length
decreasing_by all_goals (simp only [List.length_cons, List.length_drop]; omega)

end Conductor.Utf8
