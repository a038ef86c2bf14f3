import RowQuery.Codec.Records
import RowQuery.Row
import RowQuery.Text.Blank

/-!
Rows as separated values. The first record names the columns; without a header they are named by
their place.
-/

namespace RowQuery.Csv

structure Format where
  delimiter : UInt8 := 44
  hasHeader : Bool := true
  deriving DecidableEq, Inhabited

def repeated? (seen : List String) : List String → Option String
  | [] => none
  | name :: rest => if name ∈ seen then some name else repeated? (name :: seen) rest

def rowOf (names fields : List String) : Except DataError Row :=
  if fields.length ≠ names.length then .error (.codec (.fieldCount fields.length names.length))
  else .ok (NameMap.ofList (names.zip (fields.map Value.ofCell)))

def placeName (i : Nat) : String := s!"c{i}"

def placeNames (count : Nat) : List String := (List.range count).map placeName

def withHeader (header : Records.Record) (rest : List Records.Record) :
    Except DataError (List Row) := do
  let names := (← Records.texts header.fields.length header).map Text.trim
  match repeated? [] names with
  | some name => .error (.codec (.repeatedHeader name))
  | none => rest.mapM fun r => do rowOf names (← Records.texts header.fields.length r)

def withoutHeader (records : List Records.Record) : Except DataError (List Row) :=
  let count := (records.head?.map fun r => r.fields.length).getD 0
  records.mapM fun r => do rowOf (placeNames count) (← Records.texts count r)

def decode (format : Format) (bs : Bytes) : Except DataError (List Row) :=
  match format.hasHeader, Records.read format.delimiter bs with
  | true, header :: rest => withHeader header rest
  | true, [] => .ok []
  | false, records => withoutHeader records

def cellText : Option Value → String
  | none => ""
  | some .null => ""
  | some v => v.display

def writeTexts (delimiter : UInt8) (texts : List String) : Bytes :=
  Records.write delimiter (texts.map Bytes.ofText)

def writeCells (delimiter : UInt8) (names : List String) (row : Row) : Bytes :=
  writeTexts delimiter (names.map fun name => cellText (row.get? name))

/-- The bytes of one row, and the header from then on. The first row gives the header; a later row
must not have a column outside it. -/
def encodeRow (delimiter : UInt8) (header : Option (List String)) (row : Row) :
    Except DataError (List String × Bytes) :=
  match header with
  | none => .ok (row.names, writeTexts delimiter row.names ++ writeCells delimiter row.names row)
  | some names =>
    match row.names.find? fun name => name ∉ names with
    | some name => .error (.codec (.columnOutsideHeader name))
    | none => .ok (names, writeCells delimiter names row)

end RowQuery.Csv
