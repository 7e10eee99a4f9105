import Conductor.Text.Utf8

/-!
Reading one pipe: bytes are taken in reads of bounded size, and each read that completes some text
gives a chunk.
-/

namespace Conductor

/-- How much one read takes. -/
inductive ReadSize where
  /-- A read of nothing, which looks like the end of the pipe. -/
  | nothing
  /-- At most `n + 1` bytes of what is there. -/
  | upTo (n : Nat)
  /-- Everything up to the end of the pipe. -/
  | toEnd
  deriving DecidableEq, Repr

def ReadSize.ofInt (n : Int) : ReadSize :=
  if n < 0 then .toEnd else if n = 0 then .nothing else .upTo (n.toNat - 1)

structure Pump where
  /-- Whether there is anything more to expect from the pipe. -/
  isOpen : Bool
  state : Utf8.State := .start
  /-- The chunks so far, the latest first. -/
  chunks : List (List Char) := []
  /-- Bytes that wait for the end of the pipe. -/
  held : List UInt8 := []
  deriving DecidableEq, Repr

namespace Pump

/-- A reader of a pipe that may be missing. -/
def ofPipe (present : Bool) : Pump := { isOpen := present }

/-- The text read so far. -/
def text (pump : Pump) : List Char := pump.chunks.reverse.flatten

/-- Cuts bytes into pieces of at most `n + 1`; `room` is what is left of the present piece. -/
def pieces (n room : Nat) : List UInt8 → List (List UInt8)
  | [] => []
  | b :: rest =>
    match room with
    | 0 => [b] :: pieces n n rest
    | room + 1 =>
      match pieces n room rest with
      | [] => [[b]]
      | piece :: more => (b :: piece) :: more

/-- The chunks that reads of these sizes give: a read that completes no character gives none. -/
def readPieces (state : Utf8.State) : List (List UInt8) → Utf8.State × List (List Char)
  | [] => (state, [])
  | piece :: rest =>
    let (state, chars) := Utf8.feed state piece
    let (state, more) := readPieces state rest
    (state, if chars.isEmpty then more else chars :: more)

/-- One turn of the reader: the bytes that are there now, and whether the pipe ends with them. The
chunks are returned in order, and none of them is empty. -/
def turn (size : ReadSize) (bytes : List UInt8) (atEnd : Bool) (pump : Pump) :
    Pump × List (List Char) :=
  if !pump.isOpen then (pump, [])
  else
    match size with
    | .nothing => ({ pump with isOpen := false }, [])
    | .upTo n =>
      let (state, read) := readPieces pump.state (pieces n n bytes)
      let (state, tail) := closing atEnd state
      ({ pump with isOpen := !atEnd, state, chunks := tail.reverse ++ read.reverse ++ pump.chunks },
        read ++ tail)
    | .toEnd =>
      if atEnd then
        let (state, read) := readPieces pump.state [pump.held ++ bytes]
        let (_, tail) := closing true state
        ({ pump with
            isOpen := false, state := .start, held := []
            chunks := tail.reverse ++ read.reverse ++ pump.chunks },
          read ++ tail)
      else ({ pump with held := pump.held ++ bytes }, [])
where
  /-- At the end of the pipe what is left of a character becomes a last chunk. -/
  closing (atEnd : Bool) (state : Utf8.State) : Utf8.State × List (List Char) :=
    if !atEnd then (state, [])
    else
      let tail := Utf8.finish state
      (.start, if tail.isEmpty then [] else [tail])

end Pump

end Conductor
