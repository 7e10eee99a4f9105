/-!
White space as the planning tool's output uses it: the ASCII controls from tab to carriage return,
the four information separators, and the Unicode spaces. Zero-width characters are not blank.
-/

namespace Conductor.Text

/-- The characters that separate words and are dropped from the ends of a field. -/
def isBlank (c : Char) : Bool :=
  let n := c.toNat
  (9 ≤ n && n ≤ 13) || (28 ≤ n && n ≤ 32) || n == 0x85 || n == 0xa0 || n == 0x1680 ||
    (0x2000 ≤ n && n ≤ 0x200a) || n == 0x2028 || n == 0x2029 || n == 0x202f || n == 0x205f ||
    n == 0x3000

def stripStart (s : List Char) : List Char :=
  s.dropWhile isBlank

def stripEnd (s : List Char) : List Char :=
  (s.reverse.dropWhile isBlank).reverse

/-- The text without the blanks at its two ends. -/
def strip (s : List Char) : List Char :=
  stripEnd (stripStart s)

def trim (s : String) : String :=
  String.ofList (strip s.toList)

def trimEnd (s : String) : String :=
  String.ofList (stripEnd s.toList)

end Conductor.Text
