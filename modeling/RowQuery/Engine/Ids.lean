import RowQuery.Text.Bytes

/-!
Identifiers. A source has one identifier of its own and draws new ones from a sequence of numbers;
written, each has thirty-two hexadecimal digits.
-/

namespace RowQuery

/-- The numbers that come one after another, whatever they are, and how many of them were drawn. -/
structure Draws where
  number : Nat → Nat
  count : Nat := 0

instance (n : Nat) : OfNat Draws n := ⟨{ number := fun i => n + i + 1 }⟩

instance : Inhabited Draws := ⟨0⟩

structure Ids where
  process : Nat := 0
  draws : Draws := 0
  deriving Inhabited

namespace Ids

def digits (n : Nat) : Nat → List Char
  | 0 => []
  | count + 1 => digits (n / 16) count ++ [Bytes.hexDigit (n % 16)]

def text (n : Nat) : String := String.ofList (digits n 32)

def processText (ids : Ids) : String := text ids.process

def nth (ids : Ids) (i : Nat) : String := text (ids.draws.number i)

def after (ids : Ids) (n : Nat) : Ids :=
  { ids with draws := { ids.draws with count := ids.draws.count + n } }

def draw (ids : Ids) : String × Ids := (ids.nth ids.draws.count, ids.after 1)

end Ids

end RowQuery
