import RowQuery.Proofs.Json.RoundTrip
import RowQuery.Proofs.Value.Tagged
import RowQuery.Value.Json

/-!
The plain JSON form of values and rows: reading it gives the value back, but for doubles that are no
numbers and for bytes.
-/

namespace RowQuery

namespace NameMap

variable {α β : Type}

def map (f : α → β) (m : NameMap α) : NameMap β :=
  ⟨m.entries.map fun e => (e.1, f e.2), List.pairwise_map.2 m.sorted⟩

end NameMap

namespace Value

/-- What plain JSON keeps of a value: a double that is no number is nothing, and bytes are a text of
their digits. -/
def plain : Value → Value
  | float x => if x.isFinite then float x else null
  | bytes b => text (String.ofList ('0' :: 'x' :: b.hex))
  | v => v

theorem ofJson_toJson (v : Value) : ofJson v.toJson = v.plain := by
  cases v with
  | int i =>
    rw [toJson, ofJson, int64?_toInt]
    rfl
  | float x =>
    rw [toJson, plain]
    split <;> rfl
  | _ => rfl

theorem fits_toJson {v : Value} (back : v.ReadsBack) (depth : ℕ) : v.toJson.Fits depth := by
  cases v with
  | int i =>
    have low := i.le_toInt
    have high := i.toInt_lt
    rw [toJson, Json.Fits]
    omega
  | float x =>
    rw [toJson]
    split
    · next finite => exact back finite
    · trivial
  | _ => trivial

end Value

namespace Row

theorem fits_toJson {row : Row} (back : row.ReadsBack) (depth : ℕ) :
    (toJson row).Fits (depth + 1) := by
  rw [toJson, Json.Fits, Json.fitsMembers_iff, List.forall_mem_map]
  exact fun e he => Value.fits_toJson (back e he) depth

theorem ofMembers_toJson (row : Row) :
    ofMembers (row.entries.map fun e => (e.1, e.2.toJson)) = row.map Value.plain := by
  rw [ofMembers, List.map_map, ← (NameMap.map Value.plain row).ofList_entries]
  congr 1
  exact List.map_congr_left fun e _ => congrArg (e.1, ·) e.2.ofJson_toJson

end Row

end RowQuery
