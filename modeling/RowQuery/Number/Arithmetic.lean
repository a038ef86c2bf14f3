import RowQuery.Number.Binary64

/-!
Arithmetic on doubles. Sums, products and quotients are the machine's; the remainder is exact,
because the remainder of two multiples of a power of two is one too.
-/

namespace RowQuery.Binary64

-- powers are those of the core library, whatever else is imported
attribute [local instance (high)] instPowNat

def toFloat (x : Binary64) : Float := Float.ofBits x.bits

def ofFloat (x : Float) : Binary64 := ⟨x.toBits⟩

def add (x y : Binary64) : Binary64 := ofFloat (x.toFloat + y.toFloat)
def sub (x y : Binary64) : Binary64 := ofFloat (x.toFloat - y.toFloat)
def mul (x y : Binary64) : Binary64 := ofFloat (x.toFloat * y.toFloat)
def div (x y : Binary64) : Binary64 := ofFloat (x.toFloat / y.toFloat)

def neg (x : Binary64) : Binary64 := ofMagnitude (!x.isNegative) x.magnitude
def abs (x : Binary64) : Binary64 := ofMagnitude false x.magnitude

def rem (x y : Binary64) : Binary64 :=
  if x.isNaN || y.isNaN || x.isInfinite || y.isZero then nan
  else if y.isInfinite then x
  else
    let e := min x.exponent y.exponent
    let r := (x.significand * 2 ^ (x.exponent - e).toNat) %
      (y.significand * 2 ^ (y.exponent - e).toNat)
    ofRatio x.isNegative (r * 2 ^ e.toNat) (2 ^ (-e).toNat)

end RowQuery.Binary64
