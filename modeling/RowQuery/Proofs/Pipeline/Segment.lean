import RowQuery.Pipeline.Segment
import RowQuery.Proofs.Text.Bytes
import RowQuery.Proofs.Value.Tagged

/-!
Segments: what is read from an object that still holds what was written. Only rows whose values all
have a form in JSON come back.
-/

namespace RowQuery

namespace Segment

variable {rows : List Row} (back : ∀ row ∈ rows, row.ReadsBack)
include back

theorem fits_toJson : (toJson rows).Fits Json.depthLimit := by
  refine ⟨trivial, ?_, trivial⟩
  rw [Json.Fits, Json.fitsItems_iff, List.forall_mem_map]
  exact fun row hrow => Row.fits_tagged (back row hrow) 122

theorem decode?_encode :
    decode? (encode rows) = if rows.all Row.isSpellable then some rows else none := by
  have read : decode? (encode rows) = (rows.map Row.tagged).mapM Row.ofTagged? := by
    rw [decode?, encode, Bytes.text?_ofText, Option.bind_eq_bind, Option.bind_some,
      Json.parse?_compress _ (fits_toJson back)]
    rfl
  rw [read, List.mapM_map, ← mapM_guard]
  congr 1
  funext row
  exact row.ofTagged?_tagged

omit back in
theorem load_of_read {segment : Segment} {store : Store} {content : Bytes}
    (read : store.read segment.path = .ok content) (sum : Blake3.hash content = segment.checksum) :
    segment.load store = match decode? content with
      | some rows => .ok rows
      | none => .error .unreadableSegment := by
  simp only [load, read, onData, bind, Except.bind, if_pos sum]
  cases decode? content <;> rfl

theorem load_written {segment : Segment} {store : Store}
    (written : store.read segment.path = .ok (encode rows))
    (sum : segment.checksum = Blake3.hash (encode rows)) :
    segment.load store = if rows.all Row.isSpellable then .ok rows
      else .error .unreadableSegment := by
  rw [load_of_read written sum.symm, decode?_encode back]
  cases rows.all Row.isSpellable <;> rfl

end Segment

end RowQuery
