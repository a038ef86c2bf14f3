import RowQuery.Codec.Csv
import RowQuery.Codec.Jsonl
import RowQuery.Codec.Options

/-!
Decoders and writers, and the catalog in which queries find them by name. Names are matched in any
ASCII case.
-/

namespace RowQuery

inductive Decoder
  | csv : Csv.Format → Decoder
  | jsonl : Decoder
  | text : String → Decoder

namespace Decoder

def name : Decoder → String
  | csv _ => "csv"
  | jsonl => "jsonl"
  | text _ => "text"

def decode : Decoder → Bytes → Except DataError (List Row)
  | csv format, bs => Csv.decode format bs
  | jsonl, bs => Jsonl.decode bs
  | text column, bs =>
    match bs.text? with
    | some s => .ok [NameMap.empty.insert column (.text s)]
    | none => .error .invalidText

def ofCsvOptions (options : CodecOptions) : Except DataError Decoder := do
  let usual : Csv.Format := {}
  let delimiter ← options.byte "delimiter"
  let hasHeader ← options.bool "has_headers"
  return csv ⟨delimiter.getD usual.delimiter, hasHeader.getD usual.hasHeader⟩

def ofTextOptions (options : CodecOptions) : Except DataError Decoder :=
  .ok (text ((options.get? "column").getD "content"))

end Decoder

inductive Encoder
  | csv (delimiter : UInt8) (header : Option (List String)) : Encoder
  | jsonl : Encoder

/-- The bytes of one more row. A row that is refused leaves the encoder as it was. -/
def Encoder.write : Encoder → Row → Except DataError (Encoder × Bytes)
  | csv delimiter header, row => do
    let (header, bs) ← Csv.encodeRow delimiter header row
    return (csv delimiter (some header), bs)
  | jsonl, row => .ok (jsonl, Jsonl.encodeRow row)

inductive RowWriter
  | csv : UInt8 → RowWriter
  | jsonl : RowWriter
  deriving DecidableEq

namespace RowWriter

def name : RowWriter → String
  | csv _ => "csv"
  | jsonl => "jsonl"

def extension : RowWriter → String
  | csv _ => "csv"
  | jsonl => "jsonl"

def encoder : RowWriter → Encoder
  | csv delimiter => .csv delimiter none
  | jsonl => .jsonl

def ofCsvOptions (options : CodecOptions) : Except DataError RowWriter := do
  return csv ((← options.byte "delimiter").getD 44)

/-- The bytes of some rows written by a fresh encoder; rows that it refuses are left out. -/
def encodeFrom (e : Encoder) : List Row → Bytes
  | [] => []
  | row :: rest =>
    match e.write row with
    | .ok (e, bs) => bs ++ encodeFrom e rest
    | .error _ => encodeFrom e rest

def encode (w : RowWriter) (rows : List Row) : Bytes := encodeFrom w.encoder rows

end RowWriter

structure Catalog where
  decoders : NameMap (CodecOptions → Except DataError Decoder) := .empty
  writers : NameMap (CodecOptions → Except DataError RowWriter) := .empty

namespace Catalog

def empty : Catalog := {}

def addDecoder (c : Catalog) (name : String) (make : CodecOptions → Except DataError Decoder) :
    Catalog :=
  { c with decoders := c.decoders.insert name.toLower make }

def addWriter (c : Catalog) (name : String) (make : CodecOptions → Except DataError RowWriter) :
    Catalog :=
  { c with writers := c.writers.insert name.toLower make }

def standard : Catalog :=
  (((((empty.addDecoder "csv" Decoder.ofCsvOptions).addDecoder "jsonl"
    fun _ => .ok .jsonl).addDecoder "text"
    Decoder.ofTextOptions).addWriter "csv" RowWriter.ofCsvOptions).addWriter "jsonl"
      fun _ => .ok .jsonl)

def decoder (c : Catalog) (name : String) (options : CodecOptions) : Except DataError Decoder :=
  match c.decoders.get? name.toLower with
  | some make => make options
  | none => .error (.codec (.unknownDecoder name))

def writer (c : Catalog) (name : String) (options : CodecOptions) : Except DataError RowWriter :=
  match c.writers.get? name.toLower with
  | some make => make options
  | none => .error (.codec (.unknownWriter name))

end Catalog

end RowQuery
