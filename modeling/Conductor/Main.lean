import Conductor.CommandLine.Execution

/-!
The program. It looks at the files that a command line names, carries the command line out, and
writes the files that have changed. It launches nothing itself, so every launch is refused.
-/

namespace Conductor

/-- Adds what stands at an absolute path to the files that are known, if anything does. -/
def lookAt (files : Workspace) (path : Path) : IO Workspace := do
  let place := (← IO.currentDir) / path.toString
  if ← place.isDir then return files.makeDirectories path.names
  else if ← place.pathExists then
    let bytes ← IO.FS.readBinFile place
    return files.add path.names (.file bytes.toList)
  else return files

/-- The files that an invocation may look at: the settings with their directory, and the plan of a
run. -/
def filesFor (directory : Path) (invocation : CommandLine.Invocation) : IO Workspace := do
  let some settingsPath := (directory.join (.ofString invocation.settingsFile)).resolve? | return {}
  let mut files ← lookAt {} directory
  files ← lookAt files { settingsPath with names := settingsPath.names.dropLast }
  files ← lookAt files settingsPath
  match invocation.command, Settings.load files settingsPath with
  | .work (.run planRef ..), .ok settings =>
    match settings.workingDirectory directory with
    | .ok workspace =>
      match StandardPhase.planPath workspace settings.pipeline.plansDir planRef with
      | .ok path => lookAt files path
      | .error _ => return files
    | .error _ => return files
  | _, _ => return files

/-- Carries out a command line in the current directory. -/
def runProgram (words : List String) : IO UInt32 := do
  let directory := Path.ofString (← IO.currentDir).toString
  let files ← match CommandLine.Invocation.ofWords words with
    | .ok invocation => filesFor directory invocation
    | .error _ => pure {}
  let console : CommandLine.Console := { directory, clock := "-" }
  let result := console.execute words { files }
  for (names, bytes) in result.world.files.changesSince files do
    let path : Path := { slashes := 1, names }
    IO.FS.writeBinFile path.toString (ByteArray.mk bytes.toArray)
  IO.print result.stdout
  IO.eprint result.stderr
  match result.ending with
  | .escaped fault => IO.eprintln (fault.name ++ ": " ++ fault.message)
  | _ => pure ()
  return UInt32.ofNat result.ending.exitCode

end Conductor

def main (args : List String) : IO UInt32 := Conductor.runProgram args
