import RowQuery.DataError
import RowQuery.Text.Bytes

/-!
Records of separated fields. A field that begins with a quote runs to the next lone quote, and a
quote inside is written twice; any other quote stands for itself. A record ends at a line feed or a
carriage return, and lines with nothing on them are passed over.
-/

namespace RowQuery.Records

def quote : UInt8 := 34
def lineFeed : UInt8 := 10
def carriageReturn : UInt8 := 13

def endsRecord (b : UInt8) : Bool := b == lineFeed || b == carriageReturn

structure Record where
  start : RecordStart
  fields : List Bytes
  deriving DecidableEq, Inhabited

inductive Place
  | record | field | plain | quoted | afterQuote
  deriving DecidableEq

/-- The record being read. The last complete field and the last byte of the open field come
first. -/
structure Partial where
  start : RecordStart
  fields : List Bytes
  open_ : Bytes
  line : Nat
  byte : Nat

namespace Partial

def begin (start : RecordStart) : Partial := ⟨start, [], [], start.line, start.byte⟩

def advance (p : Partial) (b : UInt8) : Partial :=
  { p with line := if b == lineFeed then p.line + 1 else p.line, byte := p.byte + 1 }

def push (p : Partial) (b : UInt8) : Partial := { p with open_ := b :: p.open_ }

def endField (p : Partial) : Partial :=
  { p with fields := p.open_.reverse :: p.fields, open_ := [] }

def finish (p : Partial) : Record := ⟨p.start, p.endField.fields.reverse⟩

def next (p : Partial) : Partial := begin ⟨p.start.record + 1, p.line, p.byte⟩

end Partial

/-- What a byte does: whether it completes a record, and where the reader stands after it. At the
start of a field the quote is looked at before the delimiter, and the delimiter before the end of
the record. -/
def step (delimiter : UInt8) (place : Place) (p : Partial) (b : UInt8) :
    Option Record × Place × Partial :=
  let p' := p.advance b
  let separate : Option Record × Place × Partial :=
    if b == delimiter then (none, .field, p'.endField)
    else if endsRecord b then (some p'.finish, .record, p'.next)
    else (none, .plain, p'.push b)
  let atField : Option Record × Place × Partial :=
    if b == quote then (none, .quoted, p') else separate
  match place with
  | .record => if endsRecord b then (none, .record, p') else atField
  | .field => atField
  | .plain => separate
  | .quoted => if b == quote then (none, .afterQuote, p') else (none, .quoted, p'.push b)
  | .afterQuote => if b == quote then (none, .quoted, p'.push b) else separate

def scan (delimiter : UInt8) : Place → Partial → Bytes → List Record
  | .record, _, [] => []
  | _, p, [] => [p.finish]
  | place, p, b :: bs =>
    match step delimiter place p b with
    | (some r, place, p) => r :: scan delimiter place p bs
    | (none, place, p) => scan delimiter place p bs

def read (delimiter : UInt8) (bs : Bytes) : List Record :=
  let p := Partial.begin ⟨0, 1, 0⟩
  match bs with
  | 0xef :: 0xbb :: 0xbf :: bs => scan delimiter .record { p with byte := 3 } bs
  | bs => scan delimiter .record p bs

def needsQuotes (delimiter : UInt8) (field : Bytes) : Bool :=
  field.any fun b => b == delimiter || b == quote || endsRecord b

def doubleQuotes (field : Bytes) : Bytes :=
  field.flatMap fun b => if b == quote then [b, b] else [b]

def writeField (delimiter : UInt8) (field : Bytes) : Bytes :=
  if needsQuotes delimiter field then quote :: doubleQuotes field ++ [quote] else field

/-- A record that would be an empty line is written as an empty field in quotes. -/
def write (delimiter : UInt8) (fields : List Bytes) : Bytes :=
  let line := List.intercalate [delimiter] (fields.map (writeField delimiter))
  (if line.isEmpty then [quote, quote] else line) ++ [lineFeed]

def texts (expected : Nat) (r : Record) : Except DataError (List String) :=
  if r.fields.length
    ≠ expected then .error (.record (.unequalLength r.start expected r.fields.length))
  else r.fields.zipIdx.mapM fun (field, i) =>
    match field.text? with
    | some s => .ok s
    | none => .error (.record (.invalidText r.start i field.validLength))

end RowQuery.Records
