import RowQuery.Value.Basic

/-!
Two orders of values. `Value.order` compares values of one kind within the kind and other values by
their kinds; its equality is the one that removes duplicates. `Value.compare?` is what a query sees:
it also compares an integer with a double, and finds values of other kinds incomparable.
`Value.sortOrder` completes it by the order of the kinds.
-/

namespace RowQuery.Value

def order : Value → Value → Ordering
  | bool a, bool b => compare a b
  | int a, int b => compare a b
  | float a, float b => a.compare b
  | text a, text b => compare a b
  | bytes a, bytes b => compare a b
  | a, b => compare a.kind.rank b.kind.rank

def same (a b : Value) : Bool := a.order b == .eq

def compare? : Value → Value → Option Ordering
  | int a, float b => some ((Binary64.ofInt a.toInt).compare b)
  | float a, int b => some (a.compare (Binary64.ofInt b.toInt))
  | a, b => if a.kind = b.kind then some (a.order b) else none

def sortOrder (a b : Value) : Ordering :=
  (a.compare? b).getD (compare a.kind.rank b.kind.rank)

def littleEndian : Nat → Nat → Bytes
  | 0, _ => []
  | count + 1, n => UInt8.ofNat n :: littleEndian count (n / 256)

/-- What a value feeds to a hash function: the kind, then the content. Texts end with a byte that no
UTF-8 has, byte sequences begin with their length, and equal doubles have one pattern. -/
def hashInput (v : Value) : Bytes :=
  UInt8.ofNat v.kind.rank :: match v with
    | null => []
    | bool b => [if b then 1 else 0]
    | int i => littleEndian 8 i.toUInt64.toNat
    | float x => littleEndian 8 x.canonical.bits.toNat
    | text s => Bytes.ofText s ++ [0xff]
    | bytes b => littleEndian 8 b.length ++ b

end RowQuery.Value
