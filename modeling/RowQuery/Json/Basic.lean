import RowQuery.NameMap
import RowQuery.Number.Layout

/-!
JSON trees. Integers and doubles are kept apart, and the members of an object stay in the order in
which they were written, repetitions included; `Json.canonical` sorts them and keeps the last of
each name.
-/

namespace RowQuery

inductive Json
  | null : Json
  | bool : Bool → Json
  | int : Int → Json
  | float : Binary64 → Json
  | str : String → Json
  | arr : List Json → Json
  | obj : List (String × Json) → Json
  deriving Inhabited

namespace Json

mutual

def canonical : Json → Json
  | arr items => arr (canonicalItems items)
  | obj members => obj (NameMap.ofList (canonicalMembers members)).entries
  | j => j

def canonicalItems : List Json → List Json
  | [] => []
  | j :: rest => j.canonical :: canonicalItems rest

def canonicalMembers : List (String × Json) → List (String × Json)
  | [] => []
  | (name, j) :: rest => (name, j.canonical) :: canonicalMembers rest

end

def escape (c : Char) : List Char :=
  if c = '"' then ['\\', '"']
  else if c = '\\' then ['\\', '\\']
  else if c = '\n' then ['\\', 'n']
  else if c = '\r' then ['\\', 'r']
  else if c = '\t' then ['\\', 't']
  else if c = '\x08' then ['\\', 'b']
  else if c = '\x0c' then ['\\', 'f']
  else if c.toNat < 0x20 then
    ['\\', 'u', '0', '0', Nat.digitChar (c.toNat / 16), Nat.digitChar (c.toNat % 16)]
  else [c]

def quoted (s : String) : List Char := '"' :: (s.toList.flatMap escape ++ ['"'])

mutual

/-- The compact text. A double that is no number is written as null. -/
def text : Json → List Char
  | null => "null".toList
  | bool b => if b then "true".toList else "false".toList
  | int i => intText i
  | float x => x.json?.getD "null".toList
  | str s => quoted s
  | arr items => '[' :: itemsText items
  | obj members => '{' :: membersText members

def itemsText : List Json → List Char
  | [] => [']']
  | [j] => j.text ++ [']']
  | j :: rest => j.text ++ ',' :: itemsText rest

def membersText : List (String × Json) → List Char
  | [] => ['}']
  | [(name, j)] => quoted name ++ ':' :: j.text ++ ['}']
  | (name, j) :: rest => quoted name ++ ':' :: j.text ++ ',' :: membersText rest

end

def compress (j : Json) : String := String.ofList j.text

end Json

end RowQuery
