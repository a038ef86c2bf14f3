/-!
What can go wrong with stored data: finding it, reading its notation, and the options of a codec.
-/

namespace RowQuery

/-- Where a record of separated values begins: records and bytes count from zero, lines from one. -/
structure RecordStart where
  record : Nat
  line : Nat
  byte : Nat
  deriving DecidableEq, Inhabited

inductive RecordFault
  | unequalLength (start : RecordStart) (expected found : Nat)
  | invalidText (start : RecordStart) (field validBytes : Nat)
  deriving DecidableEq

def RecordFault.message : RecordFault → String
  | unequalLength start expected found =>
    s!"CSV error: record {start.record} (line: {start.line}, byte: {start.byte}): found record with "
      ++ s!"{found} fields, but the previous record has {expected} fields"
  | invalidText start field validBytes =>
    s!"CSV parse error: record {start.record} (line {start.line}, field: {field}, byte: {start.byte}): "
      ++ s!"invalid utf-8: invalid UTF-8 in field {field} near byte index {validBytes}"

inductive CodecFault
  | notOneByte (option value : String)
  | notBoolean (option value : String)
  | unknownDecoder (name : String)
  | unknownWriter (name : String)
  | repeatedHeader (name : String)
  | fieldCount (found expected : Nat)
  | notAnObject (line : Nat)
  | columnOutsideHeader (name : String)
  deriving DecidableEq

def CodecFault.message : CodecFault → String
  | notOneByte option value => s!"option '{option}' must be a single byte, got '{value}'"
  | notBoolean option value => s!"option '{option}' must be true/false, got '{value}'"
  | unknownDecoder name => s!"unknown extractor '{name}'"
  | unknownWriter name => s!"unknown writer '{name}'"
  | repeatedHeader name => s!"duplicate csv header '{name}'"
  | fieldCount found expected => s!"csv record has {found} fields, header has {expected}"
  | notAnObject line => s!"jsonl line {line} is not an object"
  | columnOutsideHeader name => s!"column '{name}' is not part of the csv header"

inductive DataError
  | unsupportedScheme (scheme : String)
  | invalidText
  | invalidJson
  | record (fault : RecordFault)
  | codec (fault : CodecFault)
  | store
  | notFound (path : String)
  deriving DecidableEq

def DataError.message : DataError → String
  | unsupportedScheme scheme => s!"storage configuration: unsupported storage scheme '{scheme}'"
  | invalidText => "i/o: stream did not contain valid UTF-8"
  | invalidJson => "json: the text is not a JSON value"
  | record fault => s!"csv: {fault.message}"
  | codec fault => s!"codec error: {fault.message}"
  | store => "object store error: the operation was refused"
  | notFound path => s!"object not found: {path}"

end RowQuery
