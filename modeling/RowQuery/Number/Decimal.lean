import RowQuery.Number.Binary64

/-!
Decimal fractions with a sign, and the fewest digits that name a double. `Decimal.nearest` reads a
decimal as a double; `Decimal.shortest` finds the decimal of fewest digits that `nearest` takes back
to the double.
-/

namespace RowQuery

-- powers are those of the core library, whatever else is imported
attribute [local instance (high)] instPowNat

/-- The number `digits * 10 ^ exponent`. -/
structure Decimal where
  digits : Nat
  exponent : Int
  deriving DecidableEq, Inhabited

namespace Decimal

/-- The double nearest to a decimal. Below the first bound it rounds to zero and above the second to
infinity, so that no large power is computed. -/
def nearest (negative : Bool) (d : Decimal) : Binary64 :=
  if d.digits = 0 ∨ d.exponent < -400 - (d.digits.log2 + 1 : Nat) then .ofMagnitude negative 0
  else if 400 < d.exponent then .infinity negative
  else .ofRatio negative (d.digits * 10 ^ d.exponent.toNat) (10 ^ (-d.exponent).toNat)

inductive Tie
  | up
  | even
  deriving DecidableEq

def leadingExponent (num den : Nat) : Int :=
  let atLeast (p : Int) : Bool := 10 ^ p.toNat * den ≤ num * 10 ^ (-p).toNat
  let guess : Int := ((num.log2 : Int) - den.log2) * 1233 / 4096 - 1
  if atLeast (guess + 2) then guess + 2 else if atLeast (guess + 1) then guess + 1 else guess

/-- The neighbours of `num / den` on the grid of `10 ^ exponent`, the nearer one first. Ten is a one
on the next grid. -/
def neighbours (tie : Tie) (num den : Nat) (exponent : Int) : List Decimal :=
  let num := num * 10 ^ (-exponent).toNat
  let den := den * 10 ^ exponent.toNat
  let below : Decimal := ⟨num / den, exponent⟩
  let above : Decimal := if num / den = 9 then ⟨1, exponent + 1⟩ else ⟨num / den + 1, exponent⟩
  match compare (2 * (num % den)) den with
  | .lt => [below, above]
  | .gt => [above, below]
  | .eq => if tie = .even ∧ num / den % 2 = 0 then [below, above] else [above, below]

def exact (x : Binary64) : Decimal :=
  if x.exponent < 0 then ⟨x.significand * 5 ^ (-x.exponent).toNat, x.exponent⟩
  else ⟨x.significand * 2 ^ x.exponent.toNat, 0⟩

/-- The nearest of the decimals of fewest digits that read back as the double; its sign is left
out. -/
def shortest (tie : Tie) (x : Binary64) : Decimal :=
  let num := x.significand * 2 ^ x.exponent.toNat
  let den := 2 ^ (-x.exponent).toNat
  let lead := leadingExponent num den
  let found := (List.range 17).findSome? fun (n : Nat) =>
    (neighbours tie num den (lead - n)).find? fun d => (nearest false d).magnitude == x.magnitude
  if num = 0 then ⟨0, 0⟩ else found.getD (exact x)

end Decimal

end RowQuery
