import RowQuery.Json.Reader
import RowQuery.Row

/-!
Values and rows as JSON. The plain form is for people and other programs and forgets some kinds; the
tagged form names the kind of each value.
-/

namespace RowQuery

namespace Value

/-- Bytes are written as their hexadecimal text; a double that is no number is null. -/
def toJson : Value → Json
  | null => .null
  | bool b => .bool b
  | int i => .int i.toInt
  | float x => if x.isFinite then .float x else .null
  | text s => .str s
  | bytes b => .str (String.ofList (hexText b))

/-- Arrays and objects are kept as their text, the members of objects sorted. -/
def ofJson : Json → Value
  | .null => null
  | .bool b => bool b
  | .int i => (int64? i).elim (float (.ofInt i)) int
  | .float x => float x
  | .str s => text s
  | j => text j.canonical.compress

def tagged : Value → Json
  | null => .str "Null"
  | bool b => .obj [("Bool", .bool b)]
  | int i => .obj [("I64", .int i.toInt)]
  | float x => .obj [("F64", if x.isFinite then .float x else .null)]
  | text s => .obj [("Str", .str s)]
  | bytes b => .obj [("Bin", .arr (b.map fun byte => .int byte.toNat))]

def byte? : Json → Option UInt8
  | .int i => if 0 ≤ i ∧ i < 256 then some (UInt8.ofNat i.toNat) else none
  | _ => none

def ofTagged? : Json → Option Value
  | .str "Null" => some null
  | .obj [("Null", .null)] => some null
  | .obj [("Bool", .bool b)] => some (bool b)
  | .obj [("I64", .int i)] => (int64? i).map int
  | .obj [("F64", .int i)] => some (float (.ofInt i))
  | .obj [("F64", .float x)] => some (float x)
  | .obj [("Str", .str s)] => some (text s)
  | .obj [("Bin", .arr items)] => (items.mapM byte?).map bytes
  | _ => none

end Value

namespace Row

def toJson (row : Row) : Json := .obj (row.entries.map fun (name, value) => (name, value.toJson))

def listJson (rows : List Row) : Json := .arr (rows.map toJson)

def ofMembers (members : List (String × Json)) : Row :=
  NameMap.ofList (members.map fun (name, j) => (name, Value.ofJson j))

def tagged (row : Row) : Json := .obj (row.entries.map fun (name, value) => (name, value.tagged))

def ofTagged? : Json → Option Row
  | .obj members => do
    let entries ← members.mapM fun (name, j) => do return (name, ← Value.ofTagged? j)
    return NameMap.ofList entries
  | _ => none

end Row

end RowQuery
