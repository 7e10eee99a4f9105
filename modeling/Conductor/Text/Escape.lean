/-!
Terminal escape sequences. A sequence is an escape character, an opening bracket, any number of
parameter characters and a letter; what is printed to something that is not a terminal goes without
them.
-/

namespace Conductor.Text

def escapeChar : Char := '\x1b'

def isEscapeParameter (c : Char) : Bool :=
  c.isDigit || c == ';' || c == '?'

/-- What follows an escape sequence whose escape character has just been read. -/
def afterEscape? : List Char → Option (List Char)
  | '[' :: rest =>
    match rest.dropWhile isEscapeParameter with
    | c :: after => if c.isAlpha then some after else none
    | [] => none
  | _ => none

theorem length_dropWhile_le (p : Char → Bool) (s : List Char) :
    (s.dropWhile p).length ≤ s.length :=
  (List.dropWhile_suffix p).length_le

theorem length_of_afterEscape? {s after : List Char} (h : afterEscape? s = some after) :
    after.length < s.length := by
  unfold afterEscape? at h
  split at h
  · rename_i rest
    have hle := length_dropWhile_le isEscapeParameter rest
    split at h
    · rename_i c tail heq
      split at h
      · cases h
        simp only [heq, List.length_cons] at hle ⊢
        omega
      · cases h
    · cases h
  · cases h

/-- The text without its escape sequences. -/
def withoutEscapes : List Char → List Char
  | [] => []
  | c :: rest =>
    if c = escapeChar then
      match _h : afterEscape? rest with
      | some after => withoutEscapes after
      | none => c :: withoutEscapes rest
    else c :: withoutEscapes rest
termination_by s => s.length
decreasing_by
  · have := length_of_afterEscape? _h
    simp only [List.length_cons]
    omega
  · simp
  · simp

def plain (s : String) : String :=
  String.ofList (withoutEscapes s.toList)

end Conductor.Text
