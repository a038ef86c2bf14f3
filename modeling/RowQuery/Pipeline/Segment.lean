import RowQuery.Digest.Blake3
import RowQuery.Engine.RunError
import RowQuery.Store
import RowQuery.Value.Json

/-!
Segments: parts of persisted rows, kept as objects of a store in the tagged form and protected by a
checksum.
-/

namespace RowQuery

structure Segment where
  path : String
  checksum : Digest
  rows : Nat

namespace Segment

def version : String := "0.1.0"

def toJson (rows : List Row) : Json :=
  .obj [("version", .str version), ("rows", .arr (rows.map Row.tagged))]

def encode (rows : List Row) : Bytes := Bytes.ofText (toJson rows).compress

def ofJson? : Json → Option (List Row)
  | .obj [("version", .str _), ("rows", .arr items)] => items.mapM Row.ofTagged?
  | _ => none

def decode? (content : Bytes) : Option (List Row) := do
  ofJson? (← Json.parse? (← content.text?))

def load (segment : Segment) (store : Store) : Except RunError (List Row) := do
  let content ← onData (store.read segment.path)
  if Blake3.hash content = segment.checksum then
    match decode? content with
    | some rows => return rows
    | none => throw .unreadableSegment
  else throw (.corrupt segment.path)

def write (path : String) (rows : List Row) : StoreAction Segment := do
  let content := encode rows
  Store.put path content
  return ⟨path, Blake3.hash content, rows.length⟩

end Segment

end RowQuery
