import Conductor.Settings
import Conductor.Session
import Conductor.Pattern.Reader

/-!
A session as the settings describe it.
-/

namespace Conductor

namespace SessionSettings

def patternFault : Pattern.Problem → Fault
  | .malformed => .badPattern
  | .tooManyRounds => .tooLarge .forRounds
  | .numberTooLong digits => .tooLarge (.toRead digits)

/-- A value that has to be a pattern. -/
def pattern : Value → Except Fault Pattern
  | .text text => (Pattern.parse text).mapError patternFault
  | _ => .error (.wrongType .forAnything)

/-- How long a login may take, if the value can be a number of seconds. -/
def patience : Value → Except Fault Patience
  | .null => .ok .endless
  | .float x => .ok (.seconds x)
  | .int n =>
    if Binary64.isFiniteOf n then .ok (.seconds (.ofInt n)) else .error (.tooLarge .forFloat)
  | .bool b => .ok (.seconds (.ofInt (Value.ofBool b)))
  | _ => .error (.wrongType .forAnything)

/-- The session that the settings describe. Both patterns have to be well formed; there need not be
one for a missing session. -/
def session (s : SessionSettings) : Except Fault Session := do
  let authenticated ← pattern s.authenticatedPattern
  let unauthenticated ←
    if s.unauthenticatedPattern.isTruthy then some <$> pattern s.unauthenticatedPattern
    else .ok none
  return {
    binary := s.binary
    statusArgs := s.statusArgs.listed
    loginArgs := s.loginArgs.listed
    patience := patience s.timeoutSeconds
    authenticated
    unauthenticated
    hint := s.manualHint }

end SessionSettings

end Conductor
