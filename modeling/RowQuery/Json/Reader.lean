import RowQuery.Json.Basic
import RowQuery.Number.Numeral
import RowQuery.Text.Bytes

/-!
Reading JSON text. The reader is strict: nothing may follow the value, a number has no leading zero,
and a number too large for a double is refused. An integer text keeps its value from `-2 ^ 63` to `2
^ 64 - 1` and is read as a double beyond; so is minus zero. A value that is passed over only has to
be well-formed: its numbers may be too large, its nesting too deep and its escaped codes no
characters.
-/

namespace RowQuery.Json.Reader

open RowQuery.Numeral (isDigit digitValue digitsValue)

-- powers are those of the core library, whatever else is imported; a literal exponent has its type
-- written for it
attribute [local instance (high)] instPowNat

def isBlank (c : Char) : Bool := c = ' ' || c = '\n' || c = '\r' || c = '\t'

def skipBlanks (cs : List Char) : List Char := cs.dropWhile isBlank

def hex4? (a b c d : Char) : Option Nat := do
  let w ← Bytes.hexValue? a
  let x ← Bytes.hexValue? b
  let y ← Bytes.hexValue? c
  let z ← Bytes.hexValue? d
  return 4096 * w + 256 * x + 16 * y + z

def shortEscape? : Char → Option Char
  | '"' => some '"'
  | '\\' => some '\\'
  | '/' => some '/'
  | 'b' => some '\x08'
  | 'f' => some '\x0c'
  | 'n' => some '\n'
  | 'r' => some '\r'
  | 't' => some '\t'
  | _ => none

def isHighSurrogate (n : Nat) : Bool := 0xd800 ≤ n && n < 0xdc00
def isLowSurrogate (n : Nat) : Bool := 0xdc00 ≤ n && n < 0xe000

/-- The characters up to the closing quote, and what follows it. Two escaped surrogates are one
character. -/
def string? : List Char → Option (List Char × List Char)
  | '"' :: cs => some ([], cs)
  | '\\' :: 'u' :: a :: b :: c :: d :: cs => do
    let n ← hex4? a b c d
    if isHighSurrogate n then
      match cs with
      | '\\' :: 'u' :: a :: b :: c :: d :: cs => do
        let m ← hex4? a b c d
        if isLowSurrogate m then
          let (s, rest) ← string? cs
          return (Char.ofNat (0x10000 + 0x400 * (n - 0xd800) + (m - 0xdc00)) :: s, rest)
        else none
      | _ => none
    else if isLowSurrogate n then none
    else
      let (s, rest) ← string? cs
      return (Char.ofNat n :: s, rest)
  | '\\' :: c :: cs => do
    let c ← shortEscape? c
    let (s, rest) ← string? cs
    return (c :: s, rest)
  | c :: cs =>
    if c = '\\' || c.toNat < 0x20 then none
    else (string? cs).map fun (s, rest) => (c :: s, rest)
  | [] => none

def fraction? : List Char → Option (List Char × List Char)
  | '.' :: cs =>
    if (cs.takeWhile isDigit).isEmpty then none
      else some (cs.takeWhile isDigit, cs.dropWhile isDigit)
  | cs => some ([], cs)

def exponent? : List Char → Option (Int × List Char)
  | c :: cs =>
    if c = 'e' ∨ c = 'E' then
      let (negative, cs) := Numeral.splitSign cs
      if (cs.takeWhile isDigit).isEmpty then none
      else
        let n := digitsValue (cs.takeWhile isDigit)
        some (if negative then -(n : Int) else n, cs.dropWhile isDigit)
    else some (0, c :: cs)
  | [] => some (0, [])

def isWhole : List Char → Bool
  | [] => false
  | ['0'] => true
  | c :: _ => c ≠ '0'

def takeDigits (n : Nat) : List Char → Nat × List Char
  | [] => (n, [])
  | d :: ds =>
    let next := 10 * n + digitValue d
    if next < 2 ^ (64 : Nat) then takeDigits next ds else (n, d :: ds)

/-- What the digits around a point and an exponent are read as. Of the digits that are left over,
those before the point count as zeros. -/
def ofParts (whole fraction : List Char) (e : Int) : Decimal :=
  let (n, zeros) := takeDigits 0 whole
  let (n, skipped) := takeDigits n fraction
  ⟨n, e + zeros.length - (fraction.length - skipped.length : Nat)⟩

def powerOfTen (n : Nat) : Binary64 := Decimal.nearest false ⟨1, n⟩

/-- A product with a power of ten or a quotient by one, after as many quotients by the largest one
as it takes. Each of them is rounded, so that the result need not be the nearest double. -/
def scale? (x : Binary64) (exponent : Int) : Option Binary64 :=
  if x.isZero then some x
  else if 308 < exponent then none
  else if 0 ≤ exponent then
    let product := x.times (powerOfTen exponent.toNat)
    if product.isFinite then some product else none
  else if -308 ≤ exponent then some (x.dividedBy (powerOfTen (-exponent).toNat))
  else scale? (x.dividedBy (powerOfTen 308)) (exponent + 308)
termination_by (-exponent).toNat

def ofDecimal? (negative : Bool) (d : Decimal) : Option Json :=
  (scale? (.ofRatio false d.digits 1) d.exponent).map
    fun x => .float (.ofMagnitude negative x.magnitude)

def ofInteger? (negative : Bool) (whole : List Char) : Option Json :=
  let n := digitsValue whole
  if negative then
    if 0 < n ∧ n ≤ 2 ^ (63 : Nat) then some (.int (-(n : Int)))
      else ofDecimal? true (ofParts whole [] 0)
  else if n < 2 ^ (64 : Nat) then some (.int n)
  else ofDecimal? false (ofParts whole [] 0)

def isIntegral : List Char → Bool
  | c :: _ => c ≠ '.' && c ≠ 'e' && c ≠ 'E'
  | [] => true

def number? (cs : List Char) : Option (Json × List Char) := do
  let (negative, cs) := match cs with
    | '-' :: cs => (true, cs)
    | cs => (false, cs)
  let whole := cs.takeWhile isDigit
  let cs := cs.dropWhile isDigit
  if !isWhole whole then none
  else if isIntegral cs then
    (ofInteger? negative whole).map fun j => (j, cs)
  else
    let (fraction, cs) ← fraction? cs
    let (e, rest) ← exponent? cs
    let j ← ofDecimal? negative (ofParts whole fraction e)
    return (j, rest)

mutual

/-- One value and what follows it. `depth` is the number of arrays and objects that may still be
opened. -/
def value? : Nat → Nat → List Char → Option (Json × List Char)
  | 0, _, _ => none
  | fuel + 1, depth, cs =>
    match skipBlanks cs with
    | 'n' :: 'u' :: 'l' :: 'l' :: cs => some (.null, cs)
    | 't' :: 'r' :: 'u' :: 'e' :: cs => some (.bool true, cs)
    | 'f' :: 'a' :: 'l' :: 's' :: 'e' :: cs => some (.bool false, cs)
    | '"' :: cs => (string? cs).map fun (s, rest) => (.str (String.ofList s), rest)
    | '[' :: cs =>
      match depth, skipBlanks cs with
      | 0, _ => none
      | _ + 1, ']' :: cs => some (.arr [], cs)
      | depth + 1, cs => (items? fuel depth cs).map fun (items, rest) => (.arr items, rest)
    | '{' :: cs =>
      match depth, skipBlanks cs with
      | 0, _ => none
      | _ + 1, '}' :: cs => some (.obj [], cs)
      | depth + 1, cs => (members? fuel depth cs).map fun (members, rest) => (.obj members, rest)
    | cs => number? cs

def items? : Nat → Nat → List Char → Option (List Json × List Char)
  | 0, _, _ => none
  | fuel + 1, depth, cs => do
    let (j, cs) ← value? fuel depth cs
    match skipBlanks cs with
    | ',' :: cs => (items? fuel depth cs).map fun (items, rest) => (j :: items, rest)
    | ']' :: cs => some ([j], cs)
    | _ => none

def members? : Nat → Nat → List Char → Option (List (String × Json) × List Char)
  | 0, _, _ => none
  | fuel + 1, depth, cs =>
    match skipBlanks cs with
    | '"' :: cs => do
      let (name, cs) ← string? cs
      match skipBlanks cs with
      | ':' :: cs => do
        let (j, cs) ← value? fuel depth cs
        match skipBlanks cs with
        | ',' :: cs =>
          (members? fuel depth cs).map
            fun (members, rest) => ((String.ofList name, j) :: members, rest)
        | '}' :: cs => some ([(String.ofList name, j)], cs)
        | _ => none
      | _ => none
    | _ => none

end

/-- What follows a string that is not kept. An escaped code may be any four digits. -/
def skipString? : List Char → Option (List Char)
  | '"' :: cs => some cs
  | '\\' :: 'u' :: a :: b :: c :: d :: cs => do
    let _ ← hex4? a b c d
    skipString? cs
  | '\\' :: c :: cs => do
    let _ ← shortEscape? c
    skipString? cs
  | c :: cs => if c = '\\' || c.toNat < 0x20 then none else skipString? cs
  | [] => none

def skipNumber? (cs : List Char) : Option (List Char) := do
  let cs := match cs with
    | '-' :: cs => cs
    | cs => cs
  if !isWhole (cs.takeWhile isDigit) then none
  let (_, cs) ← fraction? (cs.dropWhile isDigit)
  let (_, cs) ← exponent? cs
  return cs

mutual

def skip? : Nat → List Char → Option (List Char)
  | 0, _ => none
  | fuel + 1, cs =>
    match skipBlanks cs with
    | 'n' :: 'u' :: 'l' :: 'l' :: cs => some cs
    | 't' :: 'r' :: 'u' :: 'e' :: cs => some cs
    | 'f' :: 'a' :: 'l' :: 's' :: 'e' :: cs => some cs
    | '"' :: cs => skipString? cs
    | '[' :: cs =>
      match skipBlanks cs with
      | ']' :: cs => some cs
      | cs => skipItems? fuel cs
    | '{' :: cs =>
      match skipBlanks cs with
      | '}' :: cs => some cs
      | cs => skipMembers? fuel cs
    | cs => skipNumber? cs

def skipItems? : Nat → List Char → Option (List Char)
  | 0, _ => none
  | fuel + 1, cs => do
    match skipBlanks (← skip? fuel cs) with
    | ',' :: cs => skipItems? fuel cs
    | ']' :: cs => some cs
    | _ => none

def skipMembers? : Nat → List Char → Option (List Char)
  | 0, _ => none
  | fuel + 1, cs =>
    match skipBlanks cs with
    | '"' :: cs => do
      match skipBlanks (← skipString? cs) with
      | ':' :: cs => do
        match skipBlanks (← skip? fuel cs) with
        | ',' :: cs => skipMembers? fuel cs
        | '}' :: cs => some cs
        | _ => none
      | _ => none
    | _ => none

end

/-- The members of an object that is not empty, up to the closing brace. Only those under the given
names are kept, and the others need not be values that can be read. -/
def fields? (names : List String) (depth : Nat) :
    Nat → List Char → Option (List (String × Json) × List Char)
  | 0, _ => none
  | fuel + 1, cs =>
    match skipBlanks cs with
    | '"' :: cs => do
      let (name, cs) ← string? cs
      let name := String.ofList name
      match skipBlanks cs with
      | ':' :: cs => do
        let (field, cs) ← if names.contains name
          then (value? fuel depth cs).map fun (j, cs) => ([(name, j)], cs)
          else (skip? fuel cs).map fun cs => ([], cs)
        match skipBlanks cs with
        | ',' :: cs =>
          (fields? names depth fuel cs).map fun (fields, rest) => (field ++ fields, rest)
        | '}' :: cs => some (field, cs)
        | _ => none
      | _ => none
    | _ => none

def fuel (cs : List Char) : Nat := 2 * cs.length + 2

def read? (depth : Nat) (cs : List Char) : Option Json := do
  let (j, rest) ← value? (fuel cs) depth cs
  if (skipBlanks rest).isEmpty then some j else none

def readFields? (names : List String) (depth : Nat) (cs : List Char) : Option Json := do
  match depth, skipBlanks cs with
  | depth + 1, '{' :: rest =>
    let (fields, rest) ← match skipBlanks rest with
      | '}' :: rest => some ([], rest)
      | _ => fields? names depth (fuel cs) rest
    if (skipBlanks rest).isEmpty then some (.obj fields) else none
  | _, _ => read? depth cs

end RowQuery.Json.Reader

namespace RowQuery.Json

def depthLimit : Nat := 127

def parse? (s : String) : Option Json := Reader.read? depthLimit s.toList

/-- A structure with fields of the given names; of the other members of its object only the bounds
are read. -/
def parseFields? (names : List String) (s : String) : Option Json :=
  Reader.readFields? names depthLimit s.toList

end RowQuery.Json
