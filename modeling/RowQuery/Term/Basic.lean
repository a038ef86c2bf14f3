import RowQuery.Value.Basic

/-!
Terms of a query: column references, literals, operators and calls. A column reference is a list of
components; joined with points they are the name of a column.
-/

namespace RowQuery

inductive Literal
  | null : Literal
  | bool : Bool → Literal
  | int : Int64 → Literal
  | float : Binary64 → Literal
  | text : String → Literal
  deriving DecidableEq, Inhabited

def Literal.value : Literal → Value
  | null => .null
  | bool b => .bool b
  | int i => .int i
  | float x => .float x
  | text s => .text s

inductive UnaryOp
  | not | neg
  deriving DecidableEq

inductive BinaryOp
  | eq | notEq | lt | ltEq | gt | gtEq | and | or | add | sub | mul | div | mod
  deriving DecidableEq

def BinaryOp.title : BinaryOp → String
  | eq => "Eq"
  | notEq => "NotEq"
  | lt => "Lt"
  | ltEq => "LtEq"
  | gt => "Gt"
  | gtEq => "GtEq"
  | and => "And"
  | or => "Or"
  | add => "Add"
  | sub => "Sub"
  | mul => "Mul"
  | div => "Div"
  | mod => "Mod"

inductive Term
  | column : List String → Term
  | literal : Literal → Term
  | unary : UnaryOp → Term → Term
  | binary : BinaryOp → Term → Term → Term
  | isNull : Term → Bool → Term
  | call : String → List Term → Term
  deriving Inhabited

def splitPoints : List Char → List (List Char)
  | [] => [[]]
  | c :: cs =>
    if c = '.' then [] :: splitPoints cs
    else match splitPoints cs with
      | piece :: rest => (c :: piece) :: rest
      | [] => [[c]]

def joinPoints : List (List Char) → List Char
  | [] => []
  | [piece] => piece
  | piece :: rest => piece ++ '.' :: joinPoints rest

def columnName (components : List String) : String :=
  String.ofList (joinPoints (components.map String.toList))

namespace Term

def ofColumnName (name : String) : Term :=
  column ((splitPoints name.toList).map String.ofList)

def int (i : Int64) : Term := literal (.int i)

def text (s : String) : Term := literal (.text s)

def columnName? : Term → Option String
  | column components => some (columnName components)
  | _ => none

mutual

/-- The joined names of the column references in a term, from left to right. -/
def columns : Term → List String
  | column components => [columnName components]
  | literal _ => []
  | unary _ t => t.columns
  | binary _ l r => l.columns ++ r.columns
  | isNull t _ => t.columns
  | call _ args => columnsAll args

def columnsAll : List Term → List String
  | [] => []
  | t :: rest => t.columns ++ columnsAll rest

end

end Term

end RowQuery
