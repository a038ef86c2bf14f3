import RowQuery.DataError
import RowQuery.NameMap
import RowQuery.Text.Bytes

/-!
The options of a codec: texts under names, some of which have to spell a byte or a truth value.
-/

namespace RowQuery

abbrev CodecOptions := NameMap String

namespace CodecOptions

/-- A text of one byte; the two characters of an escaped tab stand for a tab. -/
def byte (options : CodecOptions) (name : String) : Except DataError (Option UInt8) :=
  match options.get? name with
  | none => .ok none
  | some value =>
    if value = "\\t" then .ok (some 9)
    else match Bytes.ofText value with
      | [b] => .ok (some b)
      | _ => .error (.codec (.notOneByte name value))

def bool (options : CodecOptions) (name : String) : Except DataError (Option Bool) :=
  match options.get? name with
  | none => .ok none
  | some "true" => .ok (some true)
  | some "false" => .ok (some false)
  | some value => .error (.codec (.notBoolean name value))

end CodecOptions

end RowQuery
