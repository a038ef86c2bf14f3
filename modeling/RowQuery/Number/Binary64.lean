/-!
Double-precision numbers as bit patterns. `key` turns the order of the numbers into the order of the
integers, and `ofRatio` gives the double nearest to a fraction.
-/

namespace RowQuery

-- powers are those of the core library, whatever else is imported; a literal exponent has its type
-- written for it
attribute [local instance (high)] instPowNat

/-- The 64 bits of a double: sign, eleven bits of exponent, fifty-two of fraction. -/
structure Binary64 where
  bits : UInt64
  deriving DecidableEq, Inhabited

namespace Binary64

def isNegative (x : Binary64) : Bool := 2 ^ (63 : Nat) ≤ x.bits.toNat

def magnitude (x : Binary64) : Nat := x.bits.toNat % 2 ^ (63 : Nat)

def infinityMagnitude : Nat := 2047 * 2 ^ (52 : Nat)

def ofMagnitude (negative : Bool) (m : Nat) : Binary64 :=
  ⟨UInt64.ofNat (if negative then m + 2 ^ (63 : Nat) else m)⟩

def zero : Binary64 := ⟨0⟩
def nan : Binary64 := ⟨0x7ff8000000000000⟩
def infinity (negative : Bool) : Binary64 := ofMagnitude negative infinityMagnitude

def isNaN (x : Binary64) : Bool := infinityMagnitude < x.magnitude
def isInfinite (x : Binary64) : Bool := x.magnitude == infinityMagnitude
def isFinite (x : Binary64) : Bool := x.magnitude < infinityMagnitude
def isZero (x : Binary64) : Bool := x.magnitude == 0

/-- Integers in the order of the doubles: both zeros have the key 0, and every NaN the largest. -/
def key (x : Binary64) : Int :=
  if x.isNaN then 2 ^ (63 : Nat) else if x.isNegative then -(x.magnitude : Int) else x.magnitude

def compare (x y : Binary64) : Ordering := Ord.compare x.key y.key

def canonical (x : Binary64) : Binary64 :=
  if x.isNaN then nan else if x.isZero then zero else x

def significand (x : Binary64) : Nat :=
  if x.magnitude < 2 ^ (52 : Nat) then x.magnitude
    else x.magnitude % 2 ^ (52 : Nat) + 2 ^ (52 : Nat)

def exponent (x : Binary64) : Int :=
  if x.magnitude < 2 ^ (52 : Nat) then -1074 else (x.magnitude / 2 ^ (52 : Nat) : Nat) - 1075

def roundHalfEven (num den : Nat) : Nat :=
  match Ord.compare (2 * (num % den)) den with
  | .lt => num / den
  | .gt => num / den + 1
  | .eq => num / den + num / den % 2

/-- The exponent of the step between doubles near a positive fraction: between `2 ^ 52` and `2 ^ 53`
steps reach it, unless it is so small that the step is the smallest one. -/
def stepExponent (num den : Nat) : Int :=
  let e : Int := (num.log2 : Int) - den.log2 - 52
  max (-1074) (if num * 2 ^ (-e).toNat < 2 ^ (52 : Nat) * (den * 2 ^ e.toNat) then e - 1 else e)

/-- The double nearest to `num / den`. The bits of a double count the steps up to it, so a carry out
of the significand needs no second case. -/
def ofRatio (negative : Bool) (num den : Nat) : Binary64 :=
  if num = 0 then ofMagnitude negative 0 else
    let e := stepExponent num den
    let steps := roundHalfEven (num * 2 ^ (-e).toNat) (den * 2 ^ e.toNat)
    ofMagnitude negative (min infinityMagnitude ((e + 1074).toNat * 2 ^ (52 : Nat) + steps))

def ofInt (i : Int) : Binary64 := ofRatio (i < 0) i.natAbs 1

-- the value of a finite double as a fraction, without its sign
def numerator (x : Binary64) : Nat := x.significand * 2 ^ x.exponent.toNat
def denominator (x : Binary64) : Nat := 2 ^ (-x.exponent).toNat

-- of finite doubles, whatever their signs; neither has one
def times (x y : Binary64) : Binary64 :=
  ofRatio false (x.numerator * y.numerator) (x.denominator * y.denominator)
def dividedBy (x y : Binary64) : Binary64 :=
  ofRatio false (x.numerator * y.denominator) (x.denominator * y.numerator)

end Binary64

end RowQuery
