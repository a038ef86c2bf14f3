import RowQuery.Number.Decimal

/-!
How numbers are written. Two layouts share the shortest digits: `display` is always positional and
has no point when there is no fraction; `json` always shows a point or an exponent, so that a reader
can tell a double from an integer.
-/

namespace RowQuery

def digitsOf (n : Nat) : List Char := Nat.toDigits 10 n

namespace Decimal

def pointed (d : Decimal) : List Char × Int :=
  let ds := digitsOf d.digits
  (ds, ds.length + d.exponent)

def positional (ds : List Char) (point : Int) : List Char :=
  if point ≤ 0 then '0' :: '.' :: (List.replicate (-point).toNat '0' ++ ds)
  else if point < ds.length then ds.take point.toNat ++ '.' :: ds.drop point.toNat
  else ds ++ List.replicate (point - ds.length).toNat '0'

def scientific (ds : List Char) (point : Int) : List Char :=
  let e := point - 1
  let mantissa := match ds with
    | d :: rest@(_ :: _) => d :: '.' :: rest
    | ds => ds
  mantissa ++ 'e' :: (if e < 0 then '-' else '+') :: digitsOf e.natAbs

def display (d : Decimal) : List Char :=
  if d.digits = 0 then ['0'] else positional d.pointed.1 d.pointed.2

/-- An exponent is written for magnitudes below `1e-5` and from `1e16` on. -/
def json (d : Decimal) : List Char :=
  let (ds, point) := d.pointed
  if d.digits = 0 then "0.0".toList
  else if point < -4 ∨ 16 < point then scientific ds point
  else if point < ds.length then positional ds point
  else positional ds point ++ ['.', '0']

end Decimal

def intText (i : Int) : List Char :=
  if i < 0 then '-' :: digitsOf i.natAbs else digitsOf i.natAbs

namespace Binary64

def signed (x : Binary64) (text : List Char) : List Char :=
  if x.isNegative then '-' :: text else text

def display (x : Binary64) : List Char :=
  if x.isNaN then "NaN".toList
  else if x.isInfinite then x.signed "inf".toList
  else x.signed (Decimal.shortest .up x).display

def json? (x : Binary64) : Option (List Char) :=
  if x.isFinite then some (x.signed (Decimal.shortest .even x).json) else none

end Binary64

end RowQuery
