/-!
UTF-8. The reader takes one byte at a time and can stop between any two, so the text that comes out
does not depend on how the bytes were cut into pieces. A byte sequence that is no character is
replaced: one replacement character stands for the longest part of it that a character could have
started with.
-/

namespace Conductor.Utf8

/-- What the bytes read so far leave open. -/
inductive State where
  /-- Between two characters. -/
  | start
  /-- Inside a character: its leading bits, how many bytes are missing, and the range in which the
  next one has to be. -/
  | inside (bits missing low high : Nat)
  /-- After the byte that may start a character or an encoded surrogate. -/
  | afterED
  /-- After the first two bytes of an encoded surrogate. They are two faults, which are held back
  until the next byte or the end. -/
  | surrogate
  deriving DecidableEq, Repr

def replacement : Char := '\ufffd'

/-- The first byte of a character. -/
def first? (b : Nat) : Option (State × List Char) :=
  if b < 0x80 then some (.start, [Char.ofNat b])
  else if b < 0xc2 then none
  else if b < 0xe0 then some (.inside (b - 0xc0) 1 0x80 0xbf, [])
  else if b = 0xe0 then some (.inside 0 2 0xa0 0xbf, [])
  else if b = 0xed then some (.afterED, [])
  else if b < 0xf0 then some (.inside (b - 0xe0) 2 0x80 0xbf, [])
  else if b = 0xf0 then some (.inside 0 3 0x90 0xbf, [])
  else if b < 0xf4 then some (.inside (b - 0xf0) 3 0x80 0xbf, [])
  else if b = 0xf4 then some (.inside 4 3 0x80 0x8f, [])
  else none

/-- A further byte of a character: its six bits are added. -/
def further (bits missing b : Nat) : State × List Char :=
  let bits := bits * 64 + (b - 0x80)
  if missing ≤ 1 then (.start, [Char.ofNat bits]) else (.inside bits (missing - 1) 0x80 0xbf, [])

/-- One byte, where it belongs to a character: the new state and the character that is now known. -/
def accept? (state : State) (b : Nat) : Option (State × List Char) :=
  match state with
  | .start => first? b
  | .inside bits missing low high =>
    if low ≤ b && b ≤ high then some (further bits missing b) else none
  | .afterED => if 0x80 ≤ b && b ≤ 0x9f then some (further 0xd 2 b) else none
  | .surrogate => none

/-- A byte at which reading starts again, after so many faults before it. -/
def afresh (faults b : Nat) : State × List Char :=
  match first? b with
  | some (state, chars) => (state, List.replicate faults replacement ++ chars)
  | none => (.start, List.replicate (faults + 1) replacement)

/-- One byte: the new state and the characters that are now known. -/
def step (state : State) (byte : UInt8) : State × List Char :=
  let b := byte.toNat
  match accept? state b with
  | some result => result
  | none =>
    match state with
    | .start => (.start, [replacement])
    | .inside .. => afresh 1 b
    | .afterED => if 0xa0 ≤ b && b ≤ 0xbf then (.surrogate, []) else afresh 1 b
    | .surrogate => afresh 2 b

/-- A piece of the input: the new state and the text that is now known. -/
def feed (state : State) : List UInt8 → State × List Char
  | [] => (state, [])
  | byte :: rest =>
    let (state, chars) := step state byte
    let (state, more) := feed state rest
    (state, chars ++ more)

/-- What an unfinished character at the end of the input becomes. -/
def finish : State → List Char
  | .start => []
  | .inside .. => [replacement]
  | .afterED => [replacement]
  | .surrogate => [replacement, replacement]

/-- The bytes of a text. -/
def encode (text : String) : List UInt8 :=
  text.toUTF8.toList

/-- Why bytes are no text: the bytes from `start` to before `stop`, of which `byte` is the first. -/
structure Defect where
  byte : Nat
  start : Nat
  stop : Nat
  reason : String
  deriving DecidableEq, Repr

/-- Reads a text and refuses what is no character. The character that is being read has the first
byte `lead` at position `start`; the next byte is at position `pos`. -/
def strictFrom (state : State) (lead start pos : Nat) : List UInt8 → Except Defect (List Char)
  | [] =>
    if state = .start then .ok [] else .error ⟨lead, start, pos, "unexpected end of data"⟩
  | byte :: rest =>
    let b := byte.toNat
    match accept? state b with
    | none =>
      .error (if state = .start then ⟨b, pos, pos + 1, "invalid start byte"⟩
        else ⟨lead, start, pos, "invalid continuation byte"⟩)
    | some (next, chars) =>
      let (lead, start) := if state = .start then (b, pos) else (lead, start)
      (strictFrom next lead start (pos + 1) rest).map (chars ++ ·)

/-- The text of bytes that are UTF-8 throughout. -/
def strict (bytes : List UInt8) : Except Defect (List Char) :=
  strictFrom .start 0 0 0 bytes

end Conductor.Utf8
