/-!
A place in a text, counted in lines and columns. Beyond the end a cursor sees the null character,
which no text that is read holds.
-/

namespace RowQuery.Yaml

-- sums start from the numeral, whatever else is imported
attribute [local instance (high)] Zero.ofOfNat0

def isBreak (c : Char) : Bool :=
  c = '\n' || c = '\r' || c = '\x85' || c = '\u2028' || c = '\u2029'

def isSpace (c : Char) : Bool := c = ' ' || c = '\t'

def isGap (c : Char) : Bool := isSpace c || isBreak c || c = '\x00'

def isWord (c : Char) : Bool := c.isAlphanum || c = '_' || c = '-'

def isPrintable (c : Char) : Bool :=
  let n := c.toNat
  n = 0x9 || n = 0xa || n = 0xd || (0x20 ≤ n && n ≤ 0x7e) || n = 0x85
    || (0xa0 ≤ n && n ≤ 0xd7ff) || (0xe000 ≤ n && n ≤ 0xfffd) || 0x10000 ≤ n

/-- The offset counts the bytes of the text before the place, the column the characters of its line.
The fuel is more than what any reading from a place of the text takes. -/
structure Cursor where
  fuel : Nat
  rest : List Char
  offset : Nat := 0
  line : Nat := 0
  column : Nat := 0

namespace Cursor

def ofChars (cs : List Char) : Cursor := { fuel := cs.length + 2, rest := cs }

def char (c : Cursor) (n : Nat) : Char := c.rest.getD n '\x00'

def atEnd (c : Cursor) : Bool := c.rest.isEmpty

/-- Behind one character. A carriage return and a line feed are one line break. -/
def next (c : Cursor) : Cursor :=
  match c.rest with
  | [] => c
  | '\r' :: '\n' :: rest => { c with rest, offset := c.offset + 2, line := c.line + 1, column := 0 }
  | ch :: rest =>
    let offset := c.offset + ch.utf8Size
    if isBreak ch then { c with rest, offset, line := c.line + 1, column := 0 }
    else { c with rest, offset, column := c.column + 1 }

def skip (c : Cursor) (n : Nat) : Cursor :=
  { c with
    rest := c.rest.drop n
    offset := c.offset + ((c.rest.take n).map Char.utf8Size).sum
    column := c.column + n }

def span (p : Char → Bool) (c : Cursor) : List Char × Cursor :=
  let found := c.rest.takeWhile p
  (found, c.skip found.length)

def skipSpaces (c : Cursor) : Cursor := (c.span isSpace).2

/-- The text of the line break at the cursor; the common ones are all written as a line feed. -/
def breakText (c : Cursor) : List Char :=
  let ch := c.char 0
  if ch = '\u2028' ∨ ch = '\u2029' then [ch] else if isBreak ch then ['\n'] else []

def startsWith (mark : List Char) (c : Cursor) : Bool := mark.isPrefixOf c.rest

def atDocumentMark (c : Cursor) : Bool :=
  c.column = 0 && (c.startsWith "---".toList || c.startsWith "...".toList) && isGap (c.char 3)

end Cursor

end RowQuery.Yaml
