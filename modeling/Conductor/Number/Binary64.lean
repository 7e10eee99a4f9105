import Conductor.Number.Rounding

/-!
Floating-point numbers of 64 bits, by their bits, with exact arithmetic behind every operation. A
finite number is a mantissa times a power of two over `2 ^ 1074`, so that all comparisons and
roundings are about natural numbers.
-/

namespace Conductor

structure Binary64 where
  bits : UInt64
  deriving DecidableEq, Repr

namespace Binary64

/-- What the bits denote. A finite number is `mantissa * 2 ^ scale / 2 ^ 1074`, with a sign that a
zero has too. -/
inductive Reading where
  | nan
  | infinite (negative : Bool)
  | finite (negative : Bool) (mantissa scale : Nat)
  deriving DecidableEq, Repr

/-- The number of bits of the stored part of a mantissa. -/
def mantissaBits : Nat := 52

/-- The bits of infinity without its sign, which are above those of every finite number. -/
def infiniteBits : Nat := 2047 * twoTo mantissaBits

def read (x : Binary64) : Reading :=
  let n := x.bits.toNat
  let negative : Bool := twoTo 63 ≤ n
  let exponent := n / twoTo mantissaBits % 2048
  let stored := n % twoTo mantissaBits
  if exponent = 2047 then
    if stored = 0 then .infinite negative else .nan
  else if exponent = 0 then .finite negative stored 0
  else .finite negative (twoTo mantissaBits + stored) (exponent - 1)

/-- The number with the given bits below the sign. -/
def ofMagnitude (negative : Bool) (magnitude : Nat) : Binary64 :=
  ⟨UInt64.ofNat ((if negative then twoTo 63 else 0) + magnitude)⟩

def nan : Binary64 := ofMagnitude false (infiniteBits + twoTo 51)

def infinity (negative : Bool) : Binary64 := ofMagnitude negative infiniteBits

/-- The number nearest to `num / den`, a half going to the even mantissa. Counting in units of the
smallest number, a quotient of more than 53 bits loses `shift` of them; the bits of the result are
then `shift` and the mantissa side by side, also when rounding up carries into one bit more. -/
def ofRatio (negative : Bool) (num den : Nat) : Binary64 :=
  let units := num * twoTo 1074
  let shift := (units / den).log2 - mantissaBits
  let mantissa := divNearest units (den * twoTo shift)
  ofMagnitude negative (min (shift * twoTo mantissaBits + mantissa) infiniteBits)

def ofNat (n : Nat) : Binary64 := ofRatio false n 1

def ofInt (n : Int) : Binary64 := ofRatio (n < 0) n.natAbs 1

/-- The size of a finite number in units of the smallest one. -/
def units (mantissa scale : Nat) : Nat := mantissa * twoTo scale

def mul (x y : Binary64) : Binary64 :=
  match x.read, y.read with
  | .finite s m e, .finite t n f => ofRatio (s != t) (units m e * units n f) (twoTo 2148)
  | .infinite s, .infinite t => infinity (s != t)
  | .infinite s, .finite t n _ => if n = 0 then nan else infinity (s != t)
  | .finite s m _, .infinite t => if m = 0 then nan else infinity (s != t)
  | .nan, _ => nan
  | _, .nan => nan

/-- The quotient of two natural numbers. -/
def ofDivision (m n : Nat) : Binary64 := ofRatio false m n

/-- Whether the number is greater than zero. -/
def isPositive (x : Binary64) : Bool :=
  match x.read with
  | .nan => false
  | .infinite negative => !negative
  | .finite negative mantissa _ => !negative && mantissa != 0

/-- Whether the number is zero, of either sign. -/
def isZero (x : Binary64) : Bool :=
  match x.read with
  | .finite _ mantissa _ => mantissa == 0
  | _ => false

/-- Equality of the numbers denoted: the two zeros are equal, and no NaN equals anything. -/
def same (x y : Binary64) : Bool :=
  match x.read, y.read with
  | .nan, _ => false
  | _, .nan => false
  | _, _ => x.bits == y.bits || (x.isZero && y.isZero)

/-- Whether the number is exactly the integer `n`. -/
def sameInt (x : Binary64) (n : Int) : Bool :=
  match x.read with
  | .finite negative mantissa scale =>
    units mantissa scale == n.natAbs * twoTo 1074 && (mantissa == 0 || negative == decide (n < 0))
  | _ => false

/-- Whether an integer has a nearest finite number. -/
def isFiniteOf (n : Int) : Bool :=
  match (ofInt n).read with
  | .finite .. => true
  | _ => false

/-- The whole part of a finite number. -/
def wholePart (x : Binary64) : Int :=
  match x.read with
  | .finite negative mantissa scale =>
    let size : Int := units mantissa scale / twoTo 1074
    if negative then -size else size
  | _ => 0

end Binary64

end Conductor
