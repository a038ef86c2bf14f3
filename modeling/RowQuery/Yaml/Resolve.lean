import RowQuery.Document.Basic
import RowQuery.Number.Numeral
import RowQuery.Yaml.Node

/-!
What nodes stand for. An untagged plain scalar is read by its spelling; a standard tag asks for one
kind. A tag of one's own is refused, and so is an integer that has more than 64 but no more than 128
bits. Aliases are replaced by what they copy, as often as the size of the text allows.
-/

namespace RowQuery.Yaml

open Numeral (isDigit digitsValue natural?)

-- powers are those of the core library, whatever else is imported; a literal exponent has its type
-- written for it
attribute [local instance (high)] instPowNat

def null? (text : String) : Option Unit :=
  if ["null", "Null", "NULL", "~"].contains text then some () else none

def bool? (text : String) : Option Bool :=
  if ["true", "True", "TRUE"].contains text then some true
  else if ["false", "False", "FALSE"].contains text then some false
  else none

def radix? (base : Nat) (cs : List Char) : Option Nat :=
  if cs.isEmpty then none
  else cs.foldlM (fun n c => do
    let v ← Bytes.hexValue? c
    if v < base then some (base * n + v) else none) 0

def hasLeadingZero (cs : List Char) : Bool :=
  match cs with
  | '0' :: rest => !rest.isEmpty && rest.all isDigit
  | _ => false

def magnitude? : List Char → Option Nat
  | '0' :: 'x' :: cs => radix? 16 cs
  | '0' :: 'o' :: cs => radix? 8 cs
  | '0' :: 'b' :: cs => radix? 2 cs
  | cs => if hasLeadingZero cs then none else natural? cs

/-- An integer with whether a minus sign stands before it, also before a zero. -/
inductive IntegerReading
  | value (signed : Bool) : Int → IntegerReading
  | tooLarge : IntegerReading
  | other : IntegerReading

def IntegerReading.ofMagnitude (negative : Bool) (n : Nat) : IntegerReading :=
  if negative then
    if n ≤ 2 ^ (63 : Nat) then value true (-n) else if n ≤ 2 ^ (127 : Nat) then tooLarge else other
  else if n < 2 ^ (64 : Nat) then value false n else if n < 2 ^ (128 : Nat) then tooLarge else other

def IntegerReading.ofText (text : String) : IntegerReading :=
  let (negative, cs) := Numeral.splitSign text.toList
  match magnitude? cs with
  | some n => ofMagnitude negative n
  | none => other

def infinity? : List Char → Option Bool
  | '-' :: cs => if [".inf", ".Inf", ".INF"].contains (String.ofList cs) then some true else none
  | cs =>
    let cs := match cs with
      | '+' :: cs => cs
      | cs => cs
    if [".inf", ".Inf", ".INF"].contains (String.ofList cs) then some false else none

/-- A spelled infinity or NaN, or a numeral of a finite double; two signs are refused. -/
def float? (text : String) : Option Binary64 :=
  let cs := text.toList
  match infinity? cs with
  | some negative => some (.infinity negative)
  | none =>
    if [".nan", ".NaN", ".NAN"].contains text then some .nan
    else (Numeral.binary64? cs).filter Binary64.isFinite

def untagged? (text : String) : Option Document :=
  if text.isEmpty || (null? text).isSome then some .null
  else match bool? text with
    | some b => some (.bool b)
    | none =>
      match IntegerReading.ofText text with
      | .value signed i => some (.int signed i)
      | .tooLarge => none
      | .other =>
        if hasLeadingZero (Numeral.splitSign text.toList).2 then some (.str text)
        else some ((float? text).elim (.str text) .float)

/-- Whether a tag is one of the document's own. Bytes that are no text do not name one. -/
def isLocal (tag : Bytes) : Bool := tag.head? = some 0x21 && tag.text?.isSome

def tagged? (tag : Bytes) (isPlain : Bool) (text : String) : Option Document :=
  match tag.text? with
  | some "tag:yaml.org,2002:bool" => (bool? text).map .bool
  | some "tag:yaml.org,2002:int" =>
    match IntegerReading.ofText text with
    | .value signed i => some (.int signed i)
    | _ => none
  | some "tag:yaml.org,2002:float" => (float? text).map .float
  | some "tag:yaml.org,2002:null" => (null? text).map fun _ => .null
  | some _ => if isLocal tag then none else some (.str text)
  | none => if isPlain && tag.head? = some 0x21 then untagged? text else some (.str text)

def scalar? (tag : Option Bytes) (isPlain : Bool) (text : String) : Option Document :=
  match tag with
  | some tag => tagged? tag isPlain text
  | none => if isPlain then untagged? text else some (.str text)

namespace Node

mutual

/-- The nodes under the numbers of their anchors, in the order in which they begin. -/
def anchored : Node → List (Nat × Node)
  | marked number n => (number, n) :: n.anchored
  | seq _ items => anchoredItems items
  | map _ entries => anchoredEntries entries
  | _ => []

def anchoredItems : List Node → List (Nat × Node)
  | [] => []
  | n :: rest => n.anchored ++ anchoredItems rest

def anchoredEntries : List (Node × Node) → List (Nat × Node)
  | [] => []
  | (key, value) :: rest => key.anchored ++ value.anchored ++ anchoredEntries rest

end

end Node

/-- Readings that may still make a number of copies. -/
abbrev Resolve := StateT Nat Option

def depthLimit : Nat := 128

/-- Copies may not outnumber what is written more than this many times. -/
def copiesPerEvent : Nat := 100

namespace Resolve

def copy : Resolve Unit := do
  match ← get with
  | 0 => failure
  | left + 1 => set left

def follow (targets : List (Nat × Node)) : Node → Resolve Node
  | .copy number => do
    copy
    targets.lookup number
  | .marked _ n => return n
  | n => return n

/-- A node in which collections are nested no deeper than the given number. It may hold copies of
itself, which no depth is enough for. -/
def node (targets : List (Nat × Node)) : Nat → Node → Resolve Document
  | 0, n => do
    match ← follow targets n with
    | .scalar tag isPlain text => scalar? tag isPlain text
    | _ => failure
  | depth + 1, n => do
    match ← follow targets n with
    | .scalar tag isPlain text => scalar? tag isPlain text
    | .seq tag items =>
      if tag.any isLocal then failure
      return .seq (← items.mapM (node targets depth))
    | .map tag entries =>
      if tag.any isLocal then failure
      return .map (← entries.mapM fun (key, value) => do
        return (← node targets depth key, ← node targets depth value))
    | _ => failure

def literal (targets : List (Nat × Node)) (n : Node) : Resolve Document := do
  match ← follow targets n with
  | .scalar _ _ text => return .str text
  | _ => failure

/-- A variant, of which the tag is taken literally: the value under its name, or the first item of a
sequence. -/
def variant (targets : List (Nat × Node)) (name : String) (n : Node) : Resolve Document := do
  match ← follow targets n with
  | .map tag entries =>
    if tag.any isLocal then failure
    return .map (← entries.mapM fun (key, value) => do
      match ← node targets (depthLimit - 1) key with
      | .str key =>
        return (.str key, ← if key = name then literal targets value
          else node targets (depthLimit - 1) value)
      | key => return (key, ← node targets (depthLimit - 1) value))
  | .seq tag (first :: rest) =>
    if tag.any isLocal then failure
    return .seq ((← literal targets first) :: (← rest.mapM (node targets (depthLimit - 1))))
  | _ => failure

end Resolve

/-- The document of a variant whose tag has the given name. Of several nodes with one number the
last one is copied. -/
def Written.variant? (name : String) (w : Written) : Option Document :=
  (Resolve.variant w.root.anchored.reverse name w.root).run' (copiesPerEvent * w.events)

end RowQuery.Yaml
