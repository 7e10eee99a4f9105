import Conductor.Number.Binary64
import Conductor.Text.Blank
import Conductor.Text.Digit

/-!
Decimal forms of floating-point numbers: a fixed number of places, the fewest digits that read back
as the same number, and reading.
-/

namespace Conductor.Binary64

/-- The decimal digits of `n`, without leading zeros. -/
def digitsOf (n : Nat) : List Char := Nat.toDigits 10 n

/-- The digits of `n`, filled up on the left with zeros to at least `width` of them. -/
def padded (width n : Nat) : List Char :=
  let digits := digitsOf n
  List.replicate (width - digits.length) '0' ++ digits

def signed (negative : Bool) (digits : List Char) : List Char :=
  if negative then '-' :: digits else digits

/-- The whole number of units of the last place, nearest to a finite number's size. -/
def scaledTo (places mantissa scale : Nat) : Nat :=
  divNearest (units mantissa scale * tenTo places) (twoTo 1074)

/-- The number with exactly `places` digits after the point, and no point if there are none. The
sign stays when everything else is rounded away. -/
def fixedChars (places : Nat) (x : Binary64) : List Char :=
  match x.read with
  | .nan => "nan".toList
  | .infinite negative => signed negative "inf".toList
  | .finite negative mantissa scale =>
    let n := scaledTo places mantissa scale
    let whole := digitsOf (n / tenTo places)
    signed negative
      (if places = 0 then whole else whole ++ '.' :: padded places (n % tenTo places))

def fixed (places : Nat) (x : Binary64) : String :=
  String.ofList (fixedChars places x)

/-- A decimal number `0.d₁d₂… * 10 ^ point`. -/
structure Digits where
  digits : List Char
  point : Int

/-- The power of ten `10 ^ e` as a fraction. -/
def powerOfTen (e : Int) : Nat × Nat :=
  if 0 ≤ e then (tenTo e.toNat, 1) else (1, tenTo (-e).toNat)

/-- The least `p` for which `units / 2 ^ 1074` is below `10 ^ p`. The number of bits gives it up to
two steps. -/
def pointOf (n : Nat) : Int :=
  let guess := ((n.log2 : Int) - 1074) * 30103 / 100000
  let below (p : Int) : Bool :=
    let (num, den) := powerOfTen p
    n * den < num * twoTo 1074
  (([guess - 1, guess, guess + 1, guess + 2].find? below).getD (guess + 3))

/-- The nearest number of `count` digits that reads back as the given number, if there is one. The
numbers that read back lie between the middles to the two neighbours; the ends belong to an even
mantissa. -/
def withDigits? (mantissa scale : Nat) (point : Int) (count : Nat) : Option Nat :=
  let n := units mantissa scale
  let gap := twoTo scale
  let low := 4 * n - (if mantissa = twoTo mantissaBits && scale != 0 then gap else 2 * gap)
  let high := 4 * n + 2 * gap
  let (num, den) := powerOfTen (point - count)
  let inside (c : Nat) : Bool :=
    let x := c * num * twoTo 1076
    if mantissa % 2 = 0 then low * den ≤ x && x ≤ high * den else low * den < x && x < high * den
  let below := n * den / (num * twoTo 1074)
  let nearest := divNearest (n * den) (num * twoTo 1074)
  let farther := if nearest = below then below + 1 else below
  [nearest, farther].find? inside

/-- The fewest digits that read back as the given number, without zeros at the end. -/
def shortestDigits (mantissa scale : Nat) : Digits :=
  let point := pointOf (units mantissa scale)
  match (List.range 18).findSome? fun count =>
      if count = 0 then none else (withDigits? mantissa scale point count).map (count, ·) with
  | some (count, n) =>
    let digits := digitsOf n
    { digits := (digits.reverse.dropWhile (· == '0')).reverse
      point := point + digits.length - count }
  | none => { digits := digitsOf (units mantissa scale), point := point }

/-- The layout of a decimal number: positional as long as the point stands at most three zeros
before the digits and at most sixteen digits after their start, with an exponent of at least two
digits otherwise. -/
def layOut (d : Digits) : List Char :=
  if -4 < d.point && d.point ≤ 16 then
    if d.point ≤ 0 then "0.".toList ++ List.replicate (-d.point).toNat '0' ++ d.digits
    else if d.digits.length ≤ d.point.toNat then
      d.digits ++ List.replicate (d.point.toNat - d.digits.length) '0' ++ ".0".toList
    else d.digits.take d.point.toNat ++ '.' :: d.digits.drop d.point.toNat
  else
    let exponent := d.point - 1
    let front :=
      match d.digits with
      | [] => []
      | [c] => [c]
      | c :: rest => c :: '.' :: rest
    front ++ 'e' :: (if exponent < 0 then '-' else '+') :: padded 2 exponent.natAbs

/-- The number in the fewest digits. -/
def shown (x : Binary64) : String :=
  String.ofList <|
    match x.read with
    | .nan => "nan".toList
    | .infinite negative => signed negative "inf".toList
    | .finite negative mantissa scale =>
      signed negative
        (if mantissa = 0 then "0.0".toList else layOut (shortestDigits mantissa scale))

/-- The number nearest to `digits * 10 ^ exponent`. Outside the range where anything is finite or
not zero the power is not worked out. -/
def ofDecimal (negative : Bool) (digits : Nat) (exponent : Int) : Binary64 :=
  let point := exponent + (digitsOf digits).length
  if digits = 0 || point < -330 then ofMagnitude negative 0
  else if 310 < point then infinity negative
  else
    let (num, den) := powerOfTen exponent
    ofRatio negative (digits * num) den

/-- Further digits, each with at most one underscore before it, and what follows them. -/
def moreDigits (isDigit : Char → Bool) : List Char → List Char × List Char
  | [] => ([], [])
  | '_' :: d :: rest =>
    if isDigit d then
      let (digits, tail) := moreDigits isDigit rest
      (d :: digits, tail)
    else ([], '_' :: d :: rest)
  | c :: rest =>
    if isDigit c then
      let (digits, tail) := moreDigits isDigit rest
      (c :: digits, tail)
    else ([], c :: rest)

/-- Digits with single underscores between them, and what follows. -/
def groupedDigits (isDigit : Char → Bool) : List Char → List Char × List Char
  | [] => ([], [])
  | c :: rest =>
    if isDigit c then
      let (digits, tail) := moreDigits isDigit rest
      (c :: digits, tail)
    else ([], c :: rest)

def sign : List Char → Bool × List Char
  | '-' :: rest => (true, rest)
  | '+' :: rest => (false, rest)
  | s => (false, s)

/-- The exponent at the end of a number; `none` if something else is there. -/
def exponentPart? : List Char → Option Int
  | [] => some 0
  | c :: rest =>
    if c = 'e' || c = 'E' then
      let (negative, rest) := sign rest
      match groupedDigits Text.isDigit rest with
      | ([], _) => none
      | (digits, []) =>
        let n : Int := Text.digitsValue digits
        some (if negative then -n else n)
      | _ => none
    else none

/-- Reads a number without its sign. -/
def unsigned? (negative : Bool) (s : List Char) : Option Binary64 :=
  let (whole, rest) := groupedDigits Text.isDigit s
  let (fraction, rest) :=
    match rest with
    | '.' :: more => groupedDigits Text.isDigit more
    | _ => ([], rest)
  if whole.isEmpty && fraction.isEmpty then none
  else
    (exponentPart? rest).map fun exponent =>
      ofDecimal negative (Text.digitsValue (whole ++ fraction)) (exponent - fraction.length)

/-- The blanks that may stand around a number: all but the four information separators. -/
def isPadding (c : Char) : Bool :=
  Text.isBlank c && !(28 ≤ c.toNat && c.toNat ≤ 31)

/-- Reads a number, an infinity or a NaN, with blanks around it. -/
def ofText? (text : String) : Option Binary64 :=
  let core := ((text.toList.dropWhile isPadding).reverse.dropWhile isPadding).reverse
  let (negative, s) := sign core
  let word := String.ofList (s.map Char.toLower)
  if word = "inf" || word = "infinity" then some (infinity negative)
  else if word = "nan" then some nan
  else unsigned? negative s

end Conductor.Binary64
