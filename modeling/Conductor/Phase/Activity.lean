import Conductor.Client

/-!
What a phase does, as a tree of instructions. A phase can log, store artifacts, wait, ask the
planning tool, read a file and fail; it has no other way to act on the world.
-/

namespace Conductor

/-- What every phase of a run is told. -/
structure Brief where
  planRef : String
  agent : Value
  workspace : Path
  client : Client

inductive Activity where
  /-- Ends well, with what it gives to whoever had it done. -/
  | done (result : Value := .null)
  | fail (fault : Fault)
  | log (message : String) (level : Level) (next : Activity)
  | store (key : String) (value : Value) (next : Activity)
  /-- Waits for a span of time; without one it waits forever. -/
  | sleep (span : Option Time) (next : Activity)
  /-- Asks the planning tool in the workspace; with `echo` its output is logged as it comes. -/
  | ask (request : Request) (echo : Bool) (next : request.Answer → Activity)
  /-- Reads a text file. -/
  | read (path : Path) (next : Except FileProblem String → Activity)

namespace World

/-- Publishes an event that is made for the present moment. -/
def announce (event : Stamp → Event) (w : World) : World × Option Fault :=
  proceed (fun stamp => w.publish (event stamp)) (fun fault => (w, some fault)) w.stamp

end World

namespace Activity

def logEvent (phaseId message : String) (level : Level) (stamp : Stamp) : Event :=
  { kind := .log, message, level, phaseId := some phaseId, stamp }

def artifactEvent (phaseId key : String) (stamp : Stamp) : Event :=
  { kind := .artifact, phaseId := some phaseId, data := [("key", .text key)], stamp }

/-- Logs what the tool prints, chunk by chunk, without blanks around it. -/
def logChunk (phaseId : String) : Sink := fun chunk w =>
  let text := Text.trim chunk
  if text.isEmpty then (w, none) else w.announce (logEvent phaseId text .info)

/-- Keeps an artifact of the current run, and tells so. -/
def keep (phaseId key : String) (value : Value) (w : World) : World × Option Fault :=
  (w.modifyRun (·.store key value)).announce (artifactEvent phaseId key)

/-- Waits for a span of time, if there is one. -/
def pause : Option Time → Flow Unit
  | some span => Flow.sleep span
  | none => fun w => .hanging w fun w message => .ended w (.error (.cancelled message))

/-- Does what an activity says, as the phase `phaseId`, and ends with what the activity gives. -/
def carryOut (brief : Brief) (phaseId : String) : Activity → Flow Value
  | done result => Flow.pure result
  | fail fault => Flow.fail fault
  | log message level next =>
    Flow.seq (Flow.step (World.announce (logEvent phaseId message level)))
      fun _ => next.carryOut brief phaseId
  | store key value next =>
    Flow.seq (Flow.step (keep phaseId key value)) fun _ => next.carryOut brief phaseId
  | sleep span next => Flow.seq (pause span) fun _ => next.carryOut brief phaseId
  | ask request echo next =>
    Flow.seq
      (brief.client.ask request (some brief.workspace.toString)
        (if echo then some (logChunk phaseId) else none))
      fun answer => (next answer).carryOut brief phaseId
  | read path next => fun w => (next (w.files.readText path)).carryOut brief phaseId w

/-- Does what an activity says; a run has no use for what its phases give. -/
def perform (brief : Brief) (phaseId : String) (activity : Activity) : Flow Unit :=
  Flow.seq (activity.carryOut brief phaseId) fun _ => Flow.pure ()

end Activity

/-- A phase of a run: how it is presented, and what it does. -/
structure PhaseAction where
  id : String
  title : String
  description : String
  activity : Brief → Activity

def PhaseAction.phase (action : PhaseAction) : Phase :=
  { id := action.id, title := action.title, description := action.description }

end Conductor
