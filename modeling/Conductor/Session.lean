import Conductor.Launch
import Conductor.Pattern.Search

/-!
Logging in to a coding agent. A status check comes first; only if it finds no session is the
agent's own login run, which ends at the latest when its time is up or when it is called off; and
a login that exits cleanly is confirmed by a second status check.
-/

namespace Conductor

/-- How long to wait for a login. -/
inductive Patience where
  | endless
  | seconds (x : Binary64)
  deriving DecidableEq, Repr

namespace Patience

/-- The moment at which waiting ends that starts at `now`. -/
def deadline (now : Time) : Patience → Option Time
  | endless => none
  | seconds x => (Time.span? x).map (Time.after now)

/-- The number of seconds, without a fraction. -/
def text : Patience → String
  | endless => "None"
  | seconds x => x.fixed 0

end Patience

structure Session where
  binary : Value
  /-- The arguments of a status check, where they can be had. -/
  statusArgs : Except Fault (List Value)
  loginArgs : Except Fault (List Value)
  /-- How long a login may take, where that can be told. -/
  patience : Except Fault Patience
  authenticated : Pattern
  unauthenticated : Option Pattern
  hint : Value

/-- How a session came about. -/
inductive LoginMethod where
  | existing
  | interactive
  deriving DecidableEq, Repr

def LoginMethod.name : LoginMethod → String
  | existing => "existing"
  | interactive => "interactive"

/-- How waiting for a login ended. -/
inductive Waited where
  | over (result : Except Fault Outcome)
  | cutOff

namespace Session

def logger : String := "flowpilot.session"

/-- Whether what a status check printed tells of a session. A text that tells of none does so even
if it also looks like the other kind. -/
def reportsAuthenticated (session : Session) (text : String) : Bool :=
  !session.unauthenticated.any (·.occursIn text) && session.authenticated.occursIn text

/-- Runs a status check; an agent that cannot be launched has no session. -/
def checkStatus (session : Session) : Flow Bool := fun w =>
  match session.statusArgs with
  | .error fault => .ended w (.error fault)
  | .ok args =>
    let order : Order := { program := session.binary, args }
    (order.launch w).andThen fun w result =>
      match result with
      | .error (.launchFailed ..) => .ended w (.ok false)
      | .error fault => .ended w (.error fault)
      | .ok outcome =>
        let authenticated := outcome.succeeded && session.reportsAuthenticated outcome.stdout
        .ended (w.enter (.session (.status authenticated))) (.ok authenticated)

/-- A course that has just been started has a turn before anyone can call it off. -/
def firstTurn {α : Type} : Course α → Course α
  | .waiting w due go stop => if due ≤ w.now then go w else .waiting w due go stop
  | course => course

/-- Calls a course off, and then ends with `last`. -/
def callOff {α β : Type} (stop : World → String → Course α) (last : Except Fault β) :
    World → Course β := fun w =>
  (stop w "").andThen fun w _ => .ended w last

/-- Follows a course until the moment `limit`, at which it is called off. Whoever waits for it may
also be told to stop, and then calls it off at once. -/
def within (limit : Option Time) : Course Outcome → Course Waited
  | .ended w result => .ended w (.ok (.over result))
  | .waiting w due go stop =>
    let abort := fun w message => callOff stop (.error (.cancelled message)) w
    match limit with
    | some t =>
      if due < t then .waiting w due (fun w => within limit (go w)) abort
      else .waiting w t (callOff stop (.ok .cutOff)) abort
    | none => .waiting w due (fun w => within limit (go w)) abort
  | .hanging w stop =>
    let abort := fun w message => callOff stop (.error (.cancelled message)) w
    match limit with
    | some t => .waiting w t (callOff stop (.ok .cutOff)) abort
    | none => .hanging w abort

/-- The earlier of two moments that may never come. -/
def earlier : Option Time → Option Time → Option Time
  | some s, some t => some (min s t)
  | some s, none => some s
  | none, t => t

/-- Whether a switch that is thrown at a given moment has been thrown. -/
def isThrown (switch : Option Time) (w : World) : Bool :=
  switch.any (· ≤ w.now)

def fail {α : Type} (problem : LoginProblem) (w : World) : Course α :=
  .ended w (.error (.login problem))

/-- What follows a login that ran to its end. -/
def confirm (session : Session) (result : Except Fault Outcome) (w : World) : Course LoginMethod :=
  let provider := session.binary.display
  match result with
  | .error (.launchFailed ..) =>
    let w := w.log .warning logger
      (provider ++ " is not installed; manual credential entry required")
    fail (.manualRequired provider session.hint) w
  | .error fault => .ended w (.error fault)
  | .ok outcome =>
    if outcome.succeeded then
      (session.checkStatus w).bind fun w confirmed =>
        if confirmed then
          .ended (w.enter (.session (.loginSucceeded session.binary))) (.ok .interactive)
        else fail (.notConfirmed provider outcome.stderr) w
    else fail (.exited provider outcome.exitCode outcome.stderr) w

/-- Runs the agent's own login, bounded by patience and by the switch that calls it off. Where it
cannot be told how long to wait, the login is called off as soon as it has been launched. -/
def interactive (session : Session) (switch : Option Time) (sink : Option Sink) :
    Flow LoginMethod := fun w =>
  let provider := session.binary.display
  let w := w.enter (.session (.loginStarted session.binary))
  match session.loginArgs with
  | .error fault => .ended w (.error fault)
  | .ok args =>
    let order : Order := { program := session.binary, args, onStdout := sink, onStderr := sink }
    match session.patience with
    | .error fault => ((order.launch w).cancel "").andThen fun w _ => .ended w (.error fault)
    | .ok patience =>
      let limit := earlier (patience.deadline w.now) switch
      (within limit (firstTurn (order.launch w))).bind fun w waited =>
        if isThrown switch w then
          let w := w.enter (.session (.loginCancelled session.binary))
          fail (.cancelled provider) (w.log .info logger (provider ++ " login cancelled"))
        else
          match waited with
          | .cutOff =>
            fail (.timedOut provider patience.text)
              (w.enter (.session (.loginTimedOut session.binary)))
          | .over result => session.confirm result w

/-- Sees to it that there is a session. `switch` is the moment at which the login is called off. -/
def login (session : Session) (switch : Option Time) (sink : Option Sink) : Flow LoginMethod :=
  fun w =>
    (session.checkStatus w).bind fun w authenticated =>
      if authenticated then .ended w (.ok .existing)
      else if isThrown switch w then fail (.cancelled session.binary.display) w
      else session.interactive switch sink w

end Session

end Conductor
