import RowQuery.DataError
import RowQuery.Text.Blank
import RowQuery.Value.Json

/-!
Rows as lines of JSON: one object a line, blank lines passed over.
-/

namespace RowQuery.Jsonl

def pieces : Bytes → List Bytes
  | [] => []
  | b :: bs =>
    if b = 10 then [b] :: pieces bs
    else match pieces bs with
      | [] => [[b]]
      | piece :: rest => (b :: piece) :: rest

def withoutEnd (piece : Bytes) : Bytes :=
  match piece.reverse with
  | 10 :: 13 :: rest => rest.reverse
  | 10 :: rest => rest.reverse
  | _ => piece

def lines (bs : Bytes) : List Bytes := (pieces bs).map withoutEnd

def decodeLine (number : Nat) (line : Bytes) : Except DataError (Option Row) :=
  match line.text? with
  | none => .error .invalidText
  | some s =>
    if s.toList.all Text.isBlank then .ok none
    else match Json.parse? s with
      | none => .error .invalidJson
      | some (.obj members) => .ok (some (Row.ofMembers members))
      | some _ => .error (.codec (.notAnObject number))

def decodeLines : Nat → List Bytes → Except DataError (List Row)
  | _, [] => .ok []
  | number, line :: rest => do
    let row ← decodeLine number line
    let rows ← decodeLines (number + 1) rest
    return row.toList ++ rows

def decode (bs : Bytes) : Except DataError (List Row) := decodeLines 1 (lines bs)

def encodeRow (row : Row) : Bytes := Bytes.ofText row.toJson.compress ++ [10]

end RowQuery.Jsonl
