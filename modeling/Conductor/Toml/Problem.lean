/-!
Why a settings file is refused. A reason names the rule that the text breaks. It names neither the
place at which the rule is broken nor the characters and keys that stand there.
-/

namespace Conductor.Toml

inductive Problem where
  /-- The text breaks a rule of the format. -/
  | malformed (reason : String)
  /-- A decimal number has more digits than are read. -/
  | numberTooLong (digits : Nat)
  deriving DecidableEq, Repr

end Conductor.Toml
