import RowQuery.Json.Basic

/-!
Documents: the trees in which queries are written, whatever the notation. A mapping keeps its
entries in order and its keys may be any documents. An integer keeps whether it has a minus sign,
which a zero may have too.
-/

namespace RowQuery

inductive Document
  | null : Document
  | bool : Bool → Document
  | int (signed : Bool) : Int → Document
  | float : Binary64 → Document
  | str : String → Document
  | seq : List Document → Document
  | map : List (Document × Document) → Document
  deriving Inhabited

namespace Document

mutual

def ofJson : Json → Document
  | .null => null
  | .bool b => bool b
  | .int i => int (i < 0) i
  | .float x => float x
  | .str s => str s
  | .arr items => seq (ofJsonItems items)
  | .obj members => map (ofJsonMembers members)

def ofJsonItems : List Json → List Document
  | [] => []
  | j :: rest => ofJson j :: ofJsonItems rest

def ofJsonMembers : List (String × Json) → List (Document × Document)
  | [] => []
  | (name, j) :: rest => (str name, ofJson j) :: ofJsonMembers rest

end

mutual

def height : Document → Nat
  | seq items => heightItems items + 1
  | map entries => heightEntries entries + 1
  | _ => 1

def heightItems : List Document → Nat
  | [] => 0
  | d :: rest => max d.height (heightItems rest)

def heightEntries : List (Document × Document) → Nat
  | [] => 0
  | (_, d) :: rest => max d.height (heightEntries rest)

end

end Document

end RowQuery
