import Conductor.Time.Elapsed

/-!
How a launched program behaves towards its caller: what it writes to its two pipes and when, and
when and how it exits. The times of a script count from the launch.
-/

namespace Conductor

/-- Bytes that appear in a pipe at a moment. -/
structure Burst where
  time : Time
  bytes : List UInt8
  deriving DecidableEq, Repr

structure Script where
  /-- What comes through each pipe; there may be no such pipe. -/
  stdout : Option (List Burst) := some []
  stderr : Option (List Burst) := some []
  /-- The raw return code; a negative one names the signal that killed the program. -/
  exitCode : Int := 0
  /-- When the program exits and its pipes end; some never do of their own accord. -/
  exit : Option Time := some 0
  /-- Whether a kill finds the program. -/
  killable : Bool := true
  deriving DecidableEq, Repr

/-- What the system answers to a launch. It refuses a launch for a reason of its own, such as a
missing program, or starts a program. Whether there can be a command of these words at all is not
asked here: a word with a null character, or one that is no text, is taken as it is, and the faults
that forbid such words are not among the answers. -/
inductive Response where
  | refused (reason : String)
  | started (script : Script)
  deriving DecidableEq, Repr

/-- What there is to read at one moment, and whether the pipes end with it. -/
structure Turn where
  time : Time
  stdout : List UInt8
  stderr : List UInt8
  isLast : Bool
  deriving DecidableEq, Repr

namespace Script

/-- Inserts a moment into ascending moments, once. -/
def insertTime (t : Time) : List Time → List Time
  | [] => [t]
  | u :: rest =>
    if t < u then t :: u :: rest else if t = u then u :: rest else u :: insertTime t rest

/-- What a pipe gives at the moment `t`. -/
def bytesAt (t : Time) (bursts : Option (List Burst)) : List UInt8 :=
  ((bursts.getD []).filter (fun burst => burst.time == t)).flatMap (·.bytes)

/-- The moments of output, ascending. The first one is the launch. -/
def outputTimes (script : Script) : List Time :=
  ((script.stdout.getD [] ++ script.stderr.getD []).map (·.time)).foldl
    (fun times t => insertTime t times) [0]

/-- The moment of the exit, which is not before the last output. -/
def exitTime? (script : Script) : Option Time :=
  script.exit.map fun t => max t (script.outputTimes.getLast?.getD 0)

/-- The turns of the readers, in order: one at each moment of output, and one at the exit. -/
def turns (script : Script) : List Turn :=
  let times :=
    match script.exitTime? with
    | some t => insertTime t script.outputTimes
    | none => script.outputTimes
  times.map fun t =>
    { time := t
      stdout := bytesAt t script.stdout
      stderr := bytesAt t script.stderr
      isLast := script.exitTime? == some t }

/-- The exit code as callers see it: a program that was killed by a signal has none. -/
def visibleExitCode (raw : Option Int) : Option Int :=
  raw.filter (0 ≤ ·)

end Script

end Conductor
