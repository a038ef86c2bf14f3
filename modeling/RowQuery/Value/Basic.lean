import RowQuery.Number.Layout
import RowQuery.Number.Numeral
import RowQuery.Text.Bytes

/-!
Scalar values, their kinds, and the text of a value.
-/

namespace RowQuery

inductive Value
  | null : Value
  | bool : Bool → Value
  | int : Int64 → Value
  | float : Binary64 → Value
  | text : String → Value
  | bytes : Bytes → Value
  deriving DecidableEq, Inhabited

inductive Kind
  | null | bool | int | float | text | bytes
  deriving DecidableEq

def Kind.name : Kind → String
  | .null => "null"
  | .bool => "bool"
  | .int => "i64"
  | .float => "f64"
  | .text => "string"
  | .bytes => "binary"

def Kind.rank : Kind → Nat
  | .null => 0
  | .bool => 1
  | .int => 2
  | .float => 3
  | .text => 4
  | .bytes => 5

namespace Value

def kind : Value → Kind
  | null => .null
  | bool _ => .bool
  | int _ => .int
  | float _ => .float
  | text _ => .text
  | bytes _ => .bytes

def isNull : Value → Bool
  | null => true
  | _ => false

def isTrue : Value → Bool
  | bool b => b
  | _ => false

def toBinary64? : Value → Option Binary64
  | int i => some (.ofInt i.toInt)
  | float x => some x
  | _ => none

def toText? : Value → Option String
  | text s => some s
  | _ => none

def hexText (b : Bytes) : List Char := '0' :: 'x' :: b.hex

def display : Value → String
  | null => "NULL"
  | bool b => if b then "true" else "false"
  | int i => String.ofList (intText i.toInt)
  | float x => String.ofList x.display
  | text s => s
  | bytes b => String.ofList (hexText b)

/-- The value that the text of a cell stands for: nothing for no text, else the first of a truth
value, an integer and a double that the whole text spells, else the text. -/
def ofCell (cell : String) : Value :=
  if cell.isEmpty then null
  else if cell.toLower = "true" then bool true
  else if cell.toLower = "false" then bool false
  else match Numeral.int64? cell.toList, Numeral.binary64? cell.toList with
    | some i, _ => int i
    | none, some x => float x
    | none, none => text cell

end Value

end RowQuery
