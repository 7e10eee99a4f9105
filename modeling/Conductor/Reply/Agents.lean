import Conductor.Text.Scan

/-!
The reply that lists the coding agents which the planning tool can drive.
-/

namespace Conductor.Reply

structure Agent where
  name : String
  available : Bool
  install : Option String
  deriving DecidableEq, Repr

namespace Agent

/-- What follows the closing asterisks of a name: a glyph and a description. -/
def glyphHere? (s : List Char) : Option (List Char) := do
  let rest ← Text.after? "**: ".toList s
  let (glyph, rest) ← Text.run? (fun c => !Text.isBlank c) rest
  let description ← Text.after? [' '] rest
  if description.isEmpty then none else some glyph

/-- The shortest non-empty name that is followed by a glyph and a description, with the glyph. -/
def nameAndGlyph? : List Char → Option (List Char × List Char)
  | [] => none
  | c :: rest =>
    match glyphHere? rest with
    | some glyph => some ([c], glyph)
    | none => (nameAndGlyph? rest).map fun (name, glyph) => (c :: name, glyph)

/-- The agent that a line lists, without its way of installing. -/
def ofLine? (line : List Char) : Option Agent := do
  let rest ← Text.after? "- **".toList line
  let (name, glyph) ← nameAndGlyph? rest
  return { name := String.ofList name, available := glyph = "✅".toList, install := none }

/-- The command in a line that says how to install an agent. -/
def installLine? (line : List Char) : Option (List Char) := do
  let rest ← Text.after? "Install: \x60".toList line
  let (command, rest) ← Text.run? (· != '\x60') rest
  if rest.isEmpty then none else some command

/-- The last way of installing given before the next agent's line. -/
def installIn? : List (List Char) → Option (List Char)
  | [] => none
  | line :: rest =>
    if (ofLine? line).isSome then none
    else (installIn? rest).or (installLine? line)

/-- The agents of stripped lines. Only for an agent that is not available does the way of
installing matter. -/
def ofLines : List (List Char) → List Agent
  | [] => []
  | line :: rest =>
    match ofLine? line with
    | some agent =>
      { agent with
        install := if agent.available then none else (installIn? rest).map String.ofList } ::
        ofLines rest
    | none => ofLines rest

/-- Every reply can be read as a list of agents. -/
def decode (raw : String) : List Agent :=
  ofLines ((Text.printedLines raw.toList).map Text.strip)

end Agent

/-- The names of the agents that can be used now. -/
def availableNames (agents : List Agent) : List String :=
  (agents.filter (·.available)).map (·.name)

end Conductor.Reply
