import RowQuery.Text.Bytes
import RowQuery.Yaml.ScalarText

/-!
The tokens of a YAML text. Indentation opens and closes blocks. A scalar that a colon follows turns
out to be a key after it was read: the tokens that begin a key, and perhaps a mapping, are then put
in front of it.
-/

namespace RowQuery.Yaml

inductive Token
  | version : Nat → Nat → Token
  | tagHandle : String → Bytes → Token
  | documentStart : Token
  | documentEnd : Token
  | blockSequence : Token
  | blockMapping : Token
  | blockEnd : Token
  | flowSequence : Token
  | flowSequenceEnd : Token
  | flowMapping : Token
  | flowMappingEnd : Token
  | blockEntry : Token
  | flowEntry : Token
  | key : Token
  | value : Token
  | copy : String → Token
  | anchor : String → Token
  | tag : String → Bytes → Token
  | scalar (isPlain : Bool) : String → Token
  | streamEnd : Token
  deriving DecidableEq, Inhabited

/-- Something that may turn out to be a key: where it began, the number of tokens before it, and
whether nothing but a key may stand there. -/
structure KeyCandidate where
  required : Bool
  place : Nat
  offset : Nat
  line : Nat
  column : Nat

def longestKey : Nat := 1024

/-- A candidate stands as long as the line does and no longer than a key may be. -/
def KeyCandidate.isStale (k : KeyCandidate) (c : Cursor) : Bool :=
  k.line < c.line || k.offset + longestKey < c.offset

/-- A text that is being cut into tokens. The innermost candidate comes first; there is one place
for a candidate at the top and in each pair of brackets. -/
structure Scan where
  cursor : Cursor
  tokens : Array Token := #[]
  brackets : Nat := 0
  indent : Int := -1
  outerIndents : List Int := []
  candidates : List (Option KeyCandidate) := [none]
  keyAllowed : Bool := true

namespace Scan

def inFlow (s : Scan) : Bool := 0 < s.brackets

def push (t : Token) (s : Scan) : Scan := { s with tokens := s.tokens.push t }

def insertAt (place : Nat) (t : Token) (s : Scan) : Scan :=
  { s with tokens := s.tokens.insertIdxIfInBounds place t }

def allowKey (allowed : Bool) (s : Scan) : Scan := { s with keyAllowed := allowed }

def moveTo (c : Cursor) (s : Scan) : Scan := { s with cursor := c }

def refreshCandidates (s : Scan) : Option Scan := do
  let candidates ← s.candidates.mapM fun
    | none => some none
    | some k =>
      if k.isStale s.cursor then (if k.required then none else some none) else some (some k)
  return { s with candidates }

def dropCandidate (s : Scan) : Option Scan :=
  match s.candidates with
  | some k :: outer => if k.required then none else some { s with candidates := none :: outer }
  | _ => some s

def addCandidate (s : Scan) : Option Scan :=
  if s.keyAllowed then do
    let s ← s.dropCandidate
    let c := s.cursor
    let k : KeyCandidate :=
      ⟨!s.inFlow && s.indent = (c.column : Int), s.tokens.size, c.offset, c.line, c.column⟩
    return { s with candidates := some k :: s.candidates.drop 1 }
  else some s

def closeBlocks (column : Int) (s : Scan) : Scan :=
  if s.inFlow then s else go s.indent s.outerIndents s
where
  go (indent : Int) : List Int → Scan → Scan
    | [], s => { s with indent, outerIndents := [] }
    | outer :: rest, s =>
      if column < indent then go outer rest (s.push .blockEnd)
      else { s with indent, outerIndents := outer :: rest }

def openBlock (column place : Nat) (t : Token) (s : Scan) : Scan :=
  if !s.inFlow && s.indent < (column : Int) then
    { s.insertAt place t with indent := column, outerIndents := s.indent :: s.outerIndents }
  else s

def mark (t : Token) (s : Scan) : Scan := (s.push t).moveTo s.cursor.next

/-- Behind blanks, comments and line breaks, and behind a byte order mark that begins a line. A tab
does not stand where a key may begin in a block. -/
def skipBlanks : Nat → Scan → Scan
  | 0, s => s
  | fuel + 1, s =>
    let c := if s.cursor.column = 0 && s.cursor.char 0 = '\ufeff' then s.cursor.next else s.cursor
    let c := (c.span fun ch => ch = ' ' || ((s.inFlow || !s.keyAllowed) && ch = '\t')).2
    let c := if c.char 0 = '#' then (c.span fun ch => !isBreak ch).2 else c
    if isBreak (c.char 0) then
      skipBlanks fuel { s with cursor := c.next, keyAllowed := s.keyAllowed || !s.inFlow }
    else s.moveTo c

def endOfStream (s : Scan) : Option Scan := do
  let s ← (s.closeBlocks (-1)).dropCandidate
  return (s.push .streamEnd).allowKey false

def documentMark (t : Token) (s : Scan) : Option Scan := do
  let s ← (s.closeBlocks (-1)).dropCandidate
  return ((s.push t).moveTo (s.cursor.skip 3)).allowKey false

def versionNumber? (c : Cursor) : Option (Nat × Cursor) :=
  let (digits, c) := c.span Char.isDigit
  if digits.isEmpty || 9 < digits.length then none
  else some (digits.foldl (fun n d => 10 * n + (d.toNat - '0'.toNat)) 0, c)

def version? (c : Cursor) : Option (Token × Cursor) := do
  let (major, c) ← versionNumber? c.skipSpaces
  if c.char 0 != '.' then none
  let (minor, c) ← versionNumber? c.next
  return (.version major minor, c)

def handle? (isDirective : Bool) (c : Cursor) : Option (List Char × Cursor) :=
  if c.char 0 != '!' then none
  else
    let (word, c) := c.next.span isWord
    if c.char 0 = '!' then some ('!' :: word ++ ['!'], c.next)
    else if isDirective && !word.isEmpty then none
    else some ('!' :: word, c)

def isUriMark (c : Char) : Bool := ";/?:@&=+$.%!~*'()".toList.contains c

def isUriChar (verbatim : Bool) (c : Char) : Bool :=
  isWord c || isUriMark c || (verbatim && (c = ',' || c = '[' || c = ']'))

def groupWidth? (b : UInt8) : Option Nat :=
  if b < 0x80 then some 1
  else if b < 0xc0 then none
  else if b < 0xe0 then some 2
  else if b < 0xf0 then some 3
  else if b < 0xf8 then some 4
  else none

/-- The bytes that are written behind percent signs come in groups, whether or not a group is a
character. The first argument is the number of bytes that a group still lacks. -/
def unescapeUri? : Nat → List Char → Option Bytes
  | missing, '%' :: a :: b :: rest => do
    let byte := UInt8.ofNat (16 * (← Bytes.hexValue? a) + (← Bytes.hexValue? b))
    let missing ← match missing with
      | 0 => (groupWidth? byte).map (· - 1)
      | n + 1 => if 0x80 ≤ byte && byte < 0xc0 then some n else none
    return byte :: (← unescapeUri? missing rest)
  | 0, [] => some []
  | 0, c :: rest => if c = '%' then none else (unescapeUri? 0 rest).map (UInt8.ofNat c.toNat :: ·)
  | _, _ => none

def uri? (verbatim : Bool) (c : Cursor) : Option (Bytes × Cursor) := do
  let (found, c) := c.span (isUriChar verbatim)
  return (← unescapeUri? 0 found, c)

def untilZero (b : Bytes) : Bytes := b.takeWhile (· != 0)

def tagHandle? (c : Cursor) : Option (Token × Cursor) := do
  let (handle, c) ← handle? true c.skipSpaces
  if !isSpace (c.char 0) then none
  let (start, c) ← uri? true c.skipSpaces
  if start.isEmpty || !isGap (c.char 0) then none
  return (.tagHandle (String.ofList handle) (untilZero start), c)

def directive (s : Scan) : Option Scan := do
  let s ← (s.closeBlocks (-1)).dropCandidate
  let (name, c) := s.cursor.next.span isWord
  if !isGap (c.char 0) then none
  let (token, c) ← match String.ofList name with
    | "YAML" => version? c
    | "TAG" => tagHandle? c
    | _ => none
  let c := c.skipSpaces
  let c := if c.char 0 = '#' then (c.span fun ch => !isBreak ch).2 else c
  if !(isBreak (c.char 0) || c.atEnd) then none
  return ((s.push token).moveTo c.next).allowKey false

def openFlow (t : Token) (s : Scan) : Option Scan := do
  let s ← s.addCandidate
  return { (s.mark t).allowKey true with
    brackets := s.brackets + 1
    candidates := none :: s.candidates }

def closeFlow (t : Token) (s : Scan) : Option Scan := do
  let s ← s.dropCandidate
  let s :=
    if s.inFlow then { s with brackets := s.brackets - 1, candidates := s.candidates.drop 1 } else s
  return (s.mark t).allowKey false

def flowEntry (s : Scan) : Option Scan := do
  let s ← s.dropCandidate
  return (s.mark .flowEntry).allowKey true

def blockEntry (s : Scan) : Option Scan := do
  if !s.inFlow && !s.keyAllowed then none
  let s ← (s.openBlock s.cursor.column s.tokens.size .blockSequence).dropCandidate
  return (s.mark .blockEntry).allowKey true

def markedKey (s : Scan) : Option Scan := do
  if !s.inFlow && !s.keyAllowed then none
  let s ← (s.openBlock s.cursor.column s.tokens.size .blockMapping).dropCandidate
  return (s.mark .key).allowKey !s.inFlow

def value (s : Scan) : Option Scan :=
  match s.candidates with
  | some k :: outer =>
    let s := (s.insertAt k.place .key).openBlock k.column k.place .blockMapping
    some (({ s with candidates := none :: outer }.mark .value).allowKey false)
  | _ => do
    if !s.inFlow && !s.keyAllowed then none
    let s := s.openBlock s.cursor.column s.tokens.size .blockMapping
    return (s.mark .value).allowKey !s.inFlow

def endsName (c : Char) : Bool := isGap c || "?:,]\x7d%@\x60".toList.contains c

def anchor (make : String → Token) (s : Scan) : Option Scan := do
  let s ← s.addCandidate
  let (name, c) := s.cursor.next.span isWord
  if name.isEmpty || !endsName (c.char 0) then none
  return ((s.push (make (String.ofList name))).moveTo c).allowKey false

def tag? (c : Cursor) : Option (String × Bytes × Cursor) :=
  if c.char 1 = '<' then do
    let (suffix, c) ← uri? true (c.skip 2)
    if suffix.isEmpty || c.char 0 != '>' then none
    return ("", untilZero suffix, c.next)
  else do
    let (handle, c) ← handle? false c
    let (suffix, c) ← uri? false c
    if 1 < handle.length && handle.getLast? = some '!' then
      if suffix.isEmpty then none
      return (String.ofList handle, untilZero suffix, c)
    let suffix := untilZero (Bytes.ofText (String.ofList (handle.drop 1)) ++ suffix)
    return if suffix.isEmpty then ("", Bytes.ofText "!", c) else ("!", suffix, c)

def tag (s : Scan) : Option Scan := do
  let s ← s.addCandidate
  let (handle, suffix, c) ← tag? s.cursor
  if !(isGap (c.char 0) || (s.inFlow && c.char 0 = ',')) then none
  return ((s.push (.tag handle suffix)).moveTo c).allowKey false

def blockScalar (s : Scan) : Option Scan := do
  let s ← s.dropCandidate
  let (text, c) ← block? s.indent s.cursor
  return ((s.push (.scalar false (String.ofList text))).moveTo c).allowKey true

def quotedScalar (s : Scan) : Option Scan := do
  let s ← s.addCandidate
  let (text, c) ← quoted? s.cursor
  return ((s.push (.scalar false (String.ofList text))).moveTo c).allowKey false

def plainScalar (s : Scan) : Option Scan := do
  let s ← s.addCandidate
  let (text, broken, c) ← plain? s.inFlow (s.indent + 1) s.cursor
  return ((s.push (.scalar true (String.ofList text))).moveTo c).allowKey broken

def isIndicator (c : Char) : Bool := "-?:,[]\x7b\x7d#&*!|>'\"%@\x60".toList.contains c

def beginsPlain (inFlow : Bool) (c : Cursor) : Bool :=
  let ch := c.char 0
  !(isGap ch || isIndicator ch) || (ch = '-' && !isSpace (c.char 1))
    || (!inFlow && (ch = '?' || ch = ':') && !isGap (c.char 1))

def step (s : Scan) : Option Scan := do
  let s ← (s.skipBlanks s.cursor.fuel).refreshCandidates
  let s := s.closeBlocks s.cursor.column
  let c := s.cursor
  let ch := c.char 0
  if c.atEnd then s.endOfStream
  else if c.column = 0 && ch = '%' then s.directive
  else if c.atDocumentMark then s.documentMark (if ch = '-' then .documentStart else .documentEnd)
  else if ch = '[' then s.openFlow .flowSequence
  else if ch = '{' then s.openFlow .flowMapping
  else if ch = ']' then s.closeFlow .flowSequenceEnd
  else if ch = '}' then s.closeFlow .flowMappingEnd
  else if ch = ',' then s.flowEntry
  else if ch = '-' && isGap (c.char 1) then s.blockEntry
  else if ch = '?' && (s.inFlow || isGap (c.char 1)) then s.markedKey
  else if ch = ':' && (s.inFlow || isGap (c.char 1)) then s.value
  else if ch = '*' then s.anchor .copy
  else if ch = '&' then s.anchor .anchor
  else if ch = '!' then s.tag
  else if (ch = '|' || ch = '>') && !s.inFlow then s.blockScalar
  else if ch = '\'' || ch = '"' then s.quotedScalar
  else if beginsPlain s.inFlow c then s.plainScalar
  else none

def run : Nat → Scan → Option (List Token)
  | 0, _ => none
  | fuel + 1, s =>
    if s.tokens.back? = some .streamEnd then some s.tokens.toList
    else do run fuel (← s.step)

end Scan

def tokens? (text : String) : Option (List Token) :=
  let cursor := Cursor.ofChars text.toList
  if cursor.rest.all isPrintable then Scan.run cursor.fuel { cursor } else none

end RowQuery.Yaml
