import RowQuery.NameMap
import RowQuery.Yaml.Token

/-!
The nodes of a YAML document. The name of an anchor stands for a number, which is the number of
names that were known when the anchor was read; an alias is a copy of the last node under its
number.
-/

namespace RowQuery.Yaml

inductive Node
  | scalar (tag : Option Bytes) (isPlain : Bool) : String → Node
  | seq : Option Bytes → List Node → Node
  | map : Option Bytes → List (Node × Node) → Node
  | marked : Nat → Node → Node
  | copy : Nat → Node
  deriving Inhabited

/-- A node under construction: the tokens that are left, the beginnings of tags, the numbers of the
anchors and how many events were passed, each a scalar, an alias or an end of a collection. -/
structure Composition where
  tokens : List Token
  handles : List (String × Bytes) := []
  anchors : NameMap Nat := .empty
  events : Nat := 0

abbrev Compose := StateT Composition Option

namespace Compose

def peek : Compose Token := do return (← get).tokens.headD .streamEnd

def advance : Compose Unit := modify fun s => { s with tokens := s.tokens.drop 1 }

def pass (t : Token) : Compose Bool := do
  if (← peek) = t then
    advance
    return true
  else return false

def expect (t : Token) : Compose Unit := do
  if !(← pass t) then failure

def count (events : Nat) : Compose Unit := modify fun s => { s with events := s.events + events }

def isNext (ts : List Token) : Compose Bool := do return ts.contains (← peek)

def nothing : Compose Node := do
  count 1
  return .scalar none true ""

def copyOf (name : String) : Compose Node := do
  count 1
  return .copy (← ((← get).anchors.get? name : Option Nat))

def standardStart? : String → Option Bytes
  | "!" => some (Bytes.ofText "!")
  | "!!" => some (Bytes.ofText "tag:yaml.org,2002:")
  | _ => none

def fullTag (handle : String) (suffix : Bytes) : Compose Bytes := do
  if handle.isEmpty then return suffix
  match ((← get).handles.lookup handle).or (standardStart? handle) with
  | some start => return start ++ suffix
  | none => failure

def anchor? : Compose (Option String) := do
  match ← peek with
  | .anchor name => advance; return some name
  | _ => return none

def tag? : Compose (Option Bytes) := do
  match ← peek with
  | .tag handle suffix => advance; return some (← fullTag handle suffix)
  | _ => return none

def properties : Compose (Option String × Option Bytes) := do
  match ← anchor? with
  | some name => return (some name, ← tag?)
  | none =>
    let tag ← tag?
    return (← anchor?, tag)

def number (name : String) : Compose Nat := do
  let anchors := (← get).anchors
  modify fun s => { s with anchors := anchors.insert name anchors.size }
  return anchors.size

def listed (tag : Option Bytes) (items : Compose (List Node)) : Compose Node := do
  count 2
  return .seq tag (← items)

def paired (tag : Option Bytes) (entries : Compose (List (Node × Node))) : Compose Node := do
  count 2
  return .map tag (← entries)

def bare (anchored : Bool) (tag : Option Bytes) : Compose Node :=
  if anchored || tag.isSome then do
    count 1
    return .scalar tag true ""
  else failure

mutual

/-- A node; in a flow there are no blocks, and only as a part of a mapping may a sequence stand
without indentation. -/
def node (block unindented : Bool) : Nat → Compose Node
  | 0 => failure
  | fuel + 1 => do
    match ← peek with
    | .copy name =>
      advance
      copyOf name
    | _ =>
      match ← properties with
      | (some name, tag) =>
        let number ← number name
        return .marked number (← content block unindented true tag fuel)
      | (none, tag) => content block unindented false tag fuel

def content (block unindented anchored : Bool) (tag : Option Bytes) : Nat → Compose Node
  | 0 => failure
  | fuel + 1 => do
    match ← peek with
    | .scalar isPlain text =>
      advance
      count 1
      return .scalar tag isPlain text
    | .blockEntry => if unindented then listed tag (unindentedItems fuel) else bare anchored tag
    | .flowSequence => advance; listed tag (flowItems true fuel)
    | .flowMapping => advance; paired tag (flowEntries true fuel)
    | .blockSequence => if block then advance; listed tag (blockItems fuel) else bare anchored tag
    | .blockMapping => if block then advance; paired tag (blockEntries fuel) else bare anchored tag
    | _ => bare anchored tag

def nodeUnless (ends : List Token) (block unindented : Bool) : Nat → Compose Node
  | 0 => failure
  | fuel + 1 => do
    if ← isNext ends then nothing else node block unindented fuel

def blockItems : Nat → Compose (List Node)
  | 0 => failure
  | fuel + 1 => do
    if ← pass .blockEntry then
      let item ← nodeUnless [.blockEntry, .blockEnd] true false fuel
      return item :: (← blockItems fuel)
    else
      expect .blockEnd
      return []

def unindentedItems : Nat → Compose (List Node)
  | 0 => failure
  | fuel + 1 => do
    if ← pass .blockEntry then
      let item ← nodeUnless [.blockEntry, .key, .value, .blockEnd] true false fuel
      return item :: (← unindentedItems fuel)
    else return []

def valueUnless (ends : List Token) (block : Bool) : Nat → Compose Node
  | 0 => failure
  | fuel + 1 => do
    if ← pass .value then nodeUnless ends block block fuel else nothing

def blockEntries : Nat → Compose (List (Node × Node))
  | 0 => failure
  | fuel + 1 => do
    if ← pass .key then
      let key ← nodeUnless [.key, .value, .blockEnd] true true fuel
      let value ← valueUnless [.key, .value, .blockEnd] true fuel
      return (key, value) :: (← blockEntries fuel)
    else
      expect .blockEnd
      return []

def flowItems (first : Bool) : Nat → Compose (List Node)
  | 0 => failure
  | fuel + 1 => do
    if ← pass .flowSequenceEnd then return []
    if !first then
      expect .flowEntry
      if ← pass .flowSequenceEnd then return []
    let item ← if ← pass .key then paired none (onePair fuel) else node false false fuel
    return item :: (← flowItems false fuel)

/-- A pair that stands in a sequence without brackets. Where its key is left out, the mark behind
the key mark belongs to it and ends neither the pair nor the sequence. -/
def onePair : Nat → Compose (List (Node × Node))
  | 0 => failure
  | fuel + 1 => do
    let key ← if ← isNext [.value, .flowEntry, .flowSequenceEnd] then advance *> nothing
      else node false false fuel
    let value ← valueUnless [.flowEntry, .flowSequenceEnd] false fuel
    return [(key, value)]

def flowEntries (first : Bool) : Nat → Compose (List (Node × Node))
  | 0 => failure
  | fuel + 1 => do
    if ← pass .flowMappingEnd then return []
    if !first then
      expect .flowEntry
      if ← pass .flowMappingEnd then return []
    if ← pass .key then
      let key ← nodeUnless [.value, .flowEntry, .flowMappingEnd] false false fuel
      let value ← valueUnless [.flowEntry, .flowMappingEnd] false fuel
      return (key, value) :: (← flowEntries false fuel)
    else
      let key ← node false false fuel
      let value ← nothing
      return (key, value) :: (← flowEntries false fuel)

end

def directives (versioned : Bool) : Nat → Compose Unit
  | 0 => failure
  | fuel + 1 => do
    match ← peek with
    | .version major minor =>
      if versioned || major != 1 || (minor != 1 && minor != 2) then failure
      advance
      directives true fuel
    | .tagHandle handle start =>
      if ((← get).handles.lookup handle).isSome then failure
      advance
      modify fun s => { s with handles := (handle, start) :: s.handles }
      directives versioned fuel
    | _ => pure ()

def passEnds : Nat → Compose Unit
  | 0 => pure ()
  | fuel + 1 => do
    if ← pass .documentEnd then passEnds fuel

def document : Compose Node := do
  let fuel := 4 * ((← get).tokens.length + 1)
  if ← isNext [.streamEnd] then failure
  let start := (← get).tokens.length
  directives false fuel
  let directed := (← get).tokens.length != start
  let marked ← pass .documentStart
  if directed && !marked then failure
  let n ← if marked then nodeUnless [.documentEnd, .streamEnd] true false fuel
    else node true false fuel
  passEnds fuel
  expect .streamEnd
  return n

end Compose

/-- A document as it is written: its node, and the number of events that make it up. -/
structure Written where
  root : Node
  events : Nat

def Written.ofText? (text : String) : Option Written := do
  let (root, s) ← Compose.document { tokens := ← tokens? text }
  return { root, events := s.events }

end RowQuery.Yaml
