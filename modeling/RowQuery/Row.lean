import RowQuery.NameMap
import RowQuery.Value.Order

/-!
Rows: values under the names of their columns.
-/

namespace RowQuery

abbrev Row := NameMap Value

namespace Row

/-- Rows compare entry by entry, the name before the value; a row whose entries begin another row is
less. -/
def orderEntries : List (String × Value) → List (String × Value) → Ordering
  | [], [] => .eq
  | [], _ :: _ => .lt
  | _ :: _, [] => .gt
  | (n, v) :: rest, (m, w) :: rest' =>
    ((compare n m).then (v.order w)).then (orderEntries rest rest')

def order (a b : Row) : Ordering := orderEntries a.entries b.entries

def same (a b : Row) : Bool := a.order b == .eq

def hashInput (row : Row) : Bytes :=
  Value.littleEndian 8 row.size
    ++ row.entries.flatMap fun (name, value) => Bytes.ofText name ++ 0xff :: value.hashInput

end Row

end RowQuery
