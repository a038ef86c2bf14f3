import RowQuery.Document.Basic

/-!
How typed values are read from documents. A structure is a mapping from its field names or the
sequence of its fields; a variant is such a structure with one more entry, the tag, which comes
first in a sequence. Fields without a place in the structure are passed over, and a field or a tag
that occurs twice is refused. Inside a variant a name may be given by its number, and an empty
mapping is nothing; a document that stands by itself is read more strictly.
-/

namespace RowQuery.Document

-- powers are those of the core library, whatever else is imported; a literal exponent has its type
-- written for it
attribute [local instance (high)] instPowNat

/-- The number of a name, also of one given by number; `none` for a document that is no name, as one
with a sign. An unknown name has the number `names.length`. -/
def nameIndex? (names : List String) : Document → Option Nat
  | str s => some (names.idxOf s)
  | int false i => some (min i.toNat names.length)
  | _ => none

def placeFields (names : List String) :
    List (Document × Document) → Option (List (Option Document))
  | [] => some (names.map fun _ => none)
  | (key, value) :: rest => do
    let i ← nameIndex? names key
    let placed ← placeFields names rest
    match placed[i]? with
    | none => some placed
    | some none => some (placed.set i (some value))
    | some (some _) => none

/-- The fields of a structure in the order of their names; missing ones are `none`. -/
def fields? (names : List String) : Document → Option (List (Option Document))
  | map entries => placeFields names entries
  | seq items =>
    if items.length ≤ names.length then
      some (items.map some ++ List.replicate (names.length - items.length) none)
    else none
  | _ => none

def splitTag (tag : String) :
    List (Document × Document) → List Document × List (Document × Document)
  | [] => ([], [])
  | (key, value) :: rest =>
    let (tags, others) := splitTag tag rest
    match key with
    | str s => if s = tag then (value :: tags, others) else (tags, (key, value) :: others)
    | _ => (tags, (key, value) :: others)

def tagged? (tag : String) : Document → Option (Document × Document)
  | map entries =>
    match splitTag tag entries with
    | ([value], others) => some (value, map others)
    | _ => none
  | seq (value :: rest) => some (value, seq rest)
  | _ => none

def variant? (tag : String) (names : List String) (d : Document) : Option (Nat × Document) := do
  let (value, rest) ← tagged? tag d
  let i ← nameIndex? names value
  if i < names.length then some (i, rest) else none

def namesTag (tag : String) (d : Document) : Bool :=
  match tagged? tag d with
  | some (str _, _) => true
  | _ => false

def isNothing (nested : Bool) : Document → Bool
  | null => true
  | map [] => nested
  | _ => false

def choice? (nested : Bool) (names : List String) (d : Document) : Option Nat := do
  let i ← match d with
    | str s => some (names.idxOf s)
    | map [(key, value)] => if value.isNothing nested then nameIndex? names key else none
    | _ => none
  if i < names.length then some i else none

def text? : Document → Option String
  | str s => some s
  | _ => none

def bool? : Document → Option Bool
  | bool b => some b
  | _ => none

def count? : Document → Option Nat
  | int _ i => if 0 ≤ i ∧ i < 2 ^ (64 : Nat) then some i.toNat else none
  | _ => none

def items? {α : Type} (read : Document → Option α) : Document → Option (List α)
  | seq items => items.mapM read
  | _ => none

def texts? : Document → Option (NameMap String)
  | map entries => do
    let pairs ← entries.mapM fun (key, value) => do return (← key.text?, ← value.text?)
    return NameMap.ofList pairs
  | _ => none

def required {α : Type} (read : Document → Option α) (field : Option Document) : Option α :=
  field.bind read

def withDefault {α : Type} (default : α) (read : Document → Option α) : Option Document → Option α
  | none => some default
  | some d => read d

/-- A field that may be left out or null. -/
def optional {α : Type} (read : Document → Option α) : Option Document → Option (Option α)
  | none => some none
  | some null => some none
  | some d => (read d).map some

end RowQuery.Document
