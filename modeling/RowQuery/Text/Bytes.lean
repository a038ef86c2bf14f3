/-!
Sequences of bytes, and the texts among them.
-/

namespace RowQuery

abbrev Bytes := List UInt8

namespace Bytes

def ofText (s : String) : Bytes := s.toUTF8.data.toList

def text? (b : Bytes) : Option String := String.fromUTF8? ⟨b.toArray⟩

def validLength (b : Bytes) : Nat :=
  let bytes : ByteArray := ⟨b.toArray⟩
  let rec go : Nat → Nat → Nat
    | 0, i => i
    | fuel + 1, i =>
      match bytes.utf8DecodeChar? i with
      | some c => go fuel (i + c.utf8Size)
      | none => i
  go b.length 0

def hexDigit (n : Nat) : Char := Nat.digitChar n

def hex : Bytes → List Char
  | [] => []
  | b :: bs => hexDigit (b.toNat / 16) :: hexDigit (b.toNat % 16) :: hex bs

def hexValue? (c : Char) : Option Nat :=
  if '0' ≤ c ∧ c ≤ '9' then some (c.toNat - '0'.toNat)
  else if 'a' ≤ c ∧ c ≤ 'f' then some (c.toNat - 'a'.toNat + 10)
  else if 'A' ≤ c ∧ c ≤ 'F' then some (c.toNat - 'A'.toNat + 10)
  else none

def ofHex? : List Char → Option Bytes
  | [] => some []
  | [_] => none
  | hi :: lo :: cs => do
    let high ← hexValue? hi
    let low ← hexValue? lo
    let rest ← ofHex? cs
    return UInt8.ofNat (16 * high + low) :: rest

end Bytes

end RowQuery
