import Conductor.Value.Identity

/-!
What is told about a login.
-/

namespace Conductor

inductive SessionEvent where
  | status (authenticated : Bool)
  | loginStarted (provider : Value)
  | loginCancelled (provider : Value)
  | loginTimedOut (provider : Value)
  | loginSucceeded (provider : Value)
  deriving DecidableEq

def SessionEvent.fields : SessionEvent → List (String × Value)
  | status authenticated =>
    [("event", .text "session_status"), ("authenticated", .bool authenticated)]
  | loginStarted provider => about "session_login_start" provider
  | loginCancelled provider => about "session_login_cancelled" provider
  | loginTimedOut provider => about "session_login_timeout" provider
  | loginSucceeded provider => about "session_login_success" provider
where
  about (event : String) (provider : Value) : List (String × Value) :=
    [("event", .text event), ("provider", provider)]

end Conductor
