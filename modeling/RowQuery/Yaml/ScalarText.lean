import RowQuery.Text.Bytes
import RowQuery.Yaml.Cursor

/-!
The texts of scalars in their three notations: plain, quoted, and as a block of lines. Line breaks
inside a plain or quoted scalar are folded: a single one is a space, and of several the first one is
dropped.
-/

namespace RowQuery.Yaml

/-- What stands between two words: spaces, or a first line break and the later ones. -/
structure Gap where
  spaces : List Char := []
  broken : Bool := false
  first : List Char := []
  later : List Char := []

namespace Gap

def text (g : Gap) : List Char :=
  if !g.broken then g.spaces
  else if g.first = ['\n'] then (if g.later.isEmpty then [' '] else g.later)
  else g.first ++ g.later

/-- Reads on from a gap. A tab may not stand for indentation below the given column. -/
def read (indent : Int) : Nat → Gap → Cursor → Option (Gap × Cursor)
  | 0, _, _ => none
  | fuel + 1, g, c =>
    let ch := c.char 0
    if isSpace ch then
      if g.broken && ch = '\t' && (c.column : Int) < indent then none
      else if g.broken then read indent fuel g c.next
      else read indent fuel { g with spaces := g.spaces ++ [ch] } c.next
    else if isBreak ch then
      if g.broken then read indent fuel { g with later := g.later ++ c.breakText } c.next
      else read indent fuel { broken := true, first := c.breakText } c.next
    else some (g, c)

end Gap

def isFlowMark (c : Char) : Bool := c = ',' || c = '[' || c = ']' || c = '{' || c = '}'

def plainLength? (inFlow : Bool) : List Char → Option Nat
  | [] => some 0
  | ch :: rest =>
    let after := rest.headD '\x00'
    if isGap ch then some 0
    else if inFlow && ch = ':' && (isFlowMark after || after = '?') then none
    else if ch = ':' && isGap after then some 0
    else if inFlow && isFlowMark ch then some 0
    else (plainLength? inFlow rest).map (· + 1)

/-- A plain scalar goes on over lines that are indented deeply enough. Also whether a line break was
passed after it. -/
def plainFrom? (inFlow : Bool) (indent : Int) :
    Nat → Gap → List Char → Cursor → Option (List Char × Bool × Cursor)
  | 0, _, _, _ => none
  | fuel + 1, g, text, c =>
    if c.atDocumentMark || c.char 0 = '#' then some (text, g.broken, c)
    else do
      let n ← plainLength? inFlow c.rest
      if n = 0 then return (text, g.broken, c)
      let text := text ++ g.text ++ c.rest.take n
      let c := c.skip n
      if !(isSpace (c.char 0) || isBreak (c.char 0)) then return (text, false, c)
      let (g, c) ← Gap.read indent c.fuel {} c
      if !inFlow && (c.column : Int) < indent then return (text, g.broken, c)
      plainFrom? inFlow indent fuel g text c

def plain? (inFlow : Bool) (indent : Int) (c : Cursor) : Option (List Char × Bool × Cursor) :=
  plainFrom? inFlow indent c.fuel {} [] c

def codeEscape? (digits : Nat) (c : Cursor) : Option (Char × Cursor) := do
  let values ← ((List.range digits).map c.char).mapM Bytes.hexValue?
  let n := values.foldl (fun n v => 16 * n + v) 0
  if n.isValidChar then some (Char.ofNat n, c.skip digits) else none

def shortEscape? : Char → Option Char
  | '0' => some '\x00'
  | 'a' => some '\x07'
  | 'b' => some '\x08'
  | 't' => some '\t'
  | '\t' => some '\t'
  | 'n' => some '\n'
  | 'v' => some '\x0b'
  | 'f' => some '\x0c'
  | 'r' => some '\r'
  | 'e' => some '\x1b'
  | ' ' => some ' '
  | '"' => some '"'
  | '/' => some '/'
  | '\\' => some '\\'
  | 'N' => some '\x85'
  | '_' => some '\xa0'
  | 'L' => some '\u2028'
  | 'P' => some '\u2029'
  | _ => none

def escape? (c : Cursor) : Option (Char × Cursor) :=
  match c.char 0 with
  | 'x' => codeEscape? 2 (c.skip 1)
  | 'u' => codeEscape? 4 (c.skip 1)
  | 'U' => codeEscape? 8 (c.skip 1)
  | ch => (shortEscape? ch).map fun e => (e, c.skip 1)

/-- The characters of a quoted scalar up to a gap or the closing quote, and whether an escaped line
break was passed. -/
def quotedRun? (quote : Char) : Nat → Cursor → Option (List Char × Bool × Cursor)
  | 0, _ => none
  | fuel + 1, c =>
    let ch := c.char 0
    let andThen (e : Char) (c : Cursor) : Option (List Char × Bool × Cursor) := do
      let (run, escaped, c) ← quotedRun? quote fuel c
      return (e :: run, escaped, c)
    if isGap ch then some ([], false, c)
    else if ch = quote then
      if quote = '\'' && c.char 1 = '\'' then andThen '\'' (c.skip 2) else some ([], false, c)
    else if quote = '"' && ch = '\\' then
      if isBreak (c.char 1) then some ([], true, c.next.next)
      else do
        let (e, c) ← escape? c.next
        andThen e c
    else andThen ch c.next

def quotedFrom? (quote : Char) : Nat → List Char → Cursor → Option (List Char × Cursor)
  | 0, _, _ => none
  | fuel + 1, text, c =>
    if c.atDocumentMark || c.atEnd then none
    else do
      let (run, escaped, c) ← quotedRun? quote c.fuel c
      let text := text ++ run
      if c.char 0 = quote then return (text, c.next)
      let (g, c) ← Gap.read (-1) c.fuel { broken := escaped } c
      quotedFrom? quote fuel (text ++ g.text) c

def quoted? (c : Cursor) : Option (List Char × Cursor) := quotedFrom? (c.char 0) c.fuel [] c.next

inductive Chomping
  | strip | clip | keep
  deriving DecidableEq

def chomping? : Char → Option Chomping
  | '-' => some .strip
  | '+' => some .keep
  | _ => none

def blockHeader? (c : Cursor) : Option (Chomping × Nat × Cursor) :=
  let width (c : Cursor) : Option (Nat × Cursor) :=
    let ch := c.char 0
    if ch = '0' then none
    else if ch.isDigit then some (ch.toNat - '0'.toNat, c.skip 1)
    else some (0, c)
  match chomping? (c.char 0) with
  | some chomping => do
    let (n, c) ← width (c.skip 1)
    return (chomping, n, c)
  | none => do
    let (n, c) ← width c
    if n = 0 then return (.clip, n, c)
    match chomping? (c.char 0) with
    | some chomping => return (chomping, n, c.skip 1)
    | none => return (.clip, n, c)

/-- The line breaks before the next line of a block. An indentation of zero is not settled yet: the
widest of these lines settles it, or the place of the block. -/
def blockBreaks? (parent : Int) :
    Nat → Nat → Nat → List Char → Cursor → Option (List Char × Nat × Cursor)
  | 0, _, _, _, _ => none
  | fuel + 1, indent, widest, breaks, c =>
    let spaces := (c.rest.takeWhile (· = ' ')).length
    let c := c.skip (if indent = 0 then spaces else min spaces (indent - c.column))
    let widest := max widest c.column
    if (indent = 0 || c.column < indent) && c.char 0 = '\t' then none
    else if isBreak (c.char 0) then blockBreaks? parent fuel indent widest
      (breaks ++ c.breakText) c.next
    else some (breaks, if indent = 0 then max widest (max (parent + 1).toNat 1) else indent, c)

/-- A block in the middle of being read: its text, the break after its last line, the breaks of the
empty lines after it, and whether that line began with a space. -/
structure BlockText where
  text : List Char := []
  last : List Char := []
  empty : List Char := []
  spaced : Bool := false

/-- Lines that begin with a space are not folded. -/
def BlockText.join (b : BlockText) (literal spaced : Bool) : List Char :=
  if !literal && b.last.head? = some '\n' && !b.spaced && !spaced then
    b.text ++ (if b.empty.isEmpty then [' '] else b.empty)
  else b.text ++ b.last ++ b.empty

def BlockText.finish (b : BlockText) : Chomping → List Char
  | .strip => b.text
  | .clip => b.text ++ b.last
  | .keep => b.text ++ b.last ++ b.empty

def blockLines? (literal : Bool) (parent : Int) (indent : Nat) :
    Nat → BlockText → Cursor → Option (BlockText × Cursor)
  | 0, _, _ => none
  | fuel + 1, b, c =>
    if c.column = indent && !c.atEnd then do
      let spaced := isSpace (c.char 0)
      let joined := b.join literal spaced
      let (line, c) := c.span fun ch => !isBreak ch
      let last := c.breakText
      let (empty, _, c) ← blockBreaks? parent c.fuel indent 0 [] c.next
      blockLines? literal parent indent fuel { text := joined ++ line, last, empty, spaced } c
    else some (b, c)

def block? (parent : Int) (c : Cursor) : Option (List Char × Cursor) := do
  let literal := c.char 0 = '|'
  let (chomping, width, c) ← blockHeader? (c.skip 1)
  let c := c.skipSpaces
  let c := if c.char 0 = '#' then (c.span fun ch => !isBreak ch).2 else c
  if !(isBreak (c.char 0) || c.atEnd) then none
  let indent := if width = 0 then 0 else (max parent 0).toNat + width
  let (empty, indent, c) ← blockBreaks? parent c.fuel indent 0 [] c.next
  let (b, c) ← blockLines? literal parent indent c.fuel { empty } c
  return (b.finish chomping, c)

end RowQuery.Yaml
