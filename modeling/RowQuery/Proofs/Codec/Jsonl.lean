import RowQuery.Codec.Catalog
import RowQuery.Proofs.Json.OneLine
import RowQuery.Proofs.Query.PartFile
import RowQuery.Proofs.Text.Bytes
import RowQuery.Proofs.Value.Plain

/-!
Rows that are written as lines of JSON are read again, each from a line of its own.
-/

namespace RowQuery.Jsonl

theorem pieces_line {line : Bytes} (unbroken : 10 ∉ line) (rest : Bytes) :
    pieces (line ++ 10 :: rest) = (line ++ [10]) :: pieces rest := by
  induction line with
  | nil => rfl
  | cons b line ih =>
    have notFeed : ¬ b = 10 := fun feed => unbroken (feed ▸ List.mem_cons_self)
    rw [List.cons_append, pieces, if_neg notFeed, ih fun h => unbroken (List.mem_cons_of_mem b h)]
    rfl

theorem withoutEnd_line {line : Bytes} (noReturn : 13 ∉ line) :
    withoutEnd (line ++ [10]) = line := by
  rw [withoutEnd, List.reverse_append]
  split
  · next rest same =>
    have last : line.reverse = 13 :: rest := (List.cons.inj same).2
    exact absurd (List.mem_reverse.1 (last ▸ List.mem_cons_self)) noReturn
  · next rest _ same =>
    have whole : line.reverse = rest := (List.cons.inj same).2
    rw [← whole, List.reverse_reverse]
  · next other => exact absurd rfl (other line.reverse)

theorem lines_line {line : Bytes} (unbroken : 10 ∉ line) (noReturn : 13 ∉ line) (rest : Bytes) :
    lines (line ++ 10 :: rest) = line :: lines rest := by
  rw [lines, pieces_line unbroken, List.map_cons, withoutEnd_line noReturn]
  rfl

theorem not_mem_compress (j : Json) {b : UInt8} (control : b.toNat < 0x20) :
    b ∉ Bytes.ofText j.compress := by
  intro h
  obtain ⟨c, hc, code⟩ := Bytes.exists_of_mem_ofText h (by omega)
  rw [Json.compress, String.toList_ofList] at hc
  have visible := j.holdsNoControl_text c hc
  omega

theorem lines_encode (rows : List Row) :
    lines (rows.flatMap encodeRow) = rows.map fun row => Bytes.ofText row.toJson.compress := by
  induction rows with
  | nil => rfl
  | cons row rows ih =>
    rw [List.flatMap_cons, encodeRow, List.append_assoc, List.singleton_append,
      lines_line (not_mem_compress _ (by decide)) (not_mem_compress _ (by decide)), ih,
      List.map_cons]

theorem decodeLine_row (number : ℕ) {row : Row} (back : row.ReadsBack) :
    decodeLine number (Bytes.ofText row.toJson.compress) = .ok (some (row.map Value.plain)) := by
  have written : row.toJson.compress.toList
      = '\x7b' :: Json.membersText (row.entries.map fun e => (e.1, e.2.toJson)) := by
    rw [Json.compress, String.toList_ofList, Row.toJson, Json.text]
  rw [decodeLine, Bytes.text?_ofText]
  simp only [written, Json.parse?_compress _ (Row.fits_toJson back 126)]
  rw [List.all_cons, ← row.ofMembers_toJson]
  rfl

theorem decodeLines_rows (number : ℕ) {rows : List Row} (back : ∀ row ∈ rows, row.ReadsBack) :
    decodeLines number (rows.map fun row => Bytes.ofText row.toJson.compress)
      = .ok (rows.map (NameMap.map Value.plain)) := by
  induction rows generalizing number with
  | nil => rfl
  | cons row rows ih =>
    obtain ⟨head, tail⟩ := List.forall_mem_cons.1 back
    rw [List.map_cons, decodeLines, decodeLine_row number head, ih (number + 1) tail]
    rfl

theorem feed_encoder (rows : List Row) :
    RowWriter.jsonl.encoder.feed rows = (rows.flatMap encodeRow, .ok ()) := by
  induction rows with
  | nil => rfl
  | cons row rows ih =>
    rw [RowWriter.encoder] at ih ⊢
    rw [Encoder.feed, Encoder.write]
    simp only [ih, List.flatMap_cons]

/-- Every row is written. It is read again with its names and its values, but for what plain JSON
does not keep of them, where the texts of its doubles are read as these doubles. -/
theorem decode_written_rows (rows : List Row) :
    (RowWriter.jsonl.encoder.feed rows).2 = .ok () ∧
      ((∀ row ∈ rows, row.ReadsBack) →
        Decoder.jsonl.decode (RowWriter.jsonl.encode rows)
          = .ok (rows.map (NameMap.map Value.plain))) := by
  have fed := feed_encoder rows
  refine ⟨congrArg Prod.snd fed, fun back => ?_⟩
  have written : RowWriter.jsonl.encode rows = rows.flatMap encodeRow := by
    rw [RowWriter.encode, RowWriter.encodeFrom_of_feed (congrArg Prod.snd fed), fed]
  rw [written, Decoder.decode, decode, lines_encode, decodeLines_rows _ back]

theorem decode_written_rows_kinds :
    let row (a b : Value) : Row := (NameMap.empty.insert "a" a).insert "b" b
    let rows := [row (.float ⟨0x3ff8000000000000⟩) (.float .nan), .empty,
      row (.text "\"\n") (.bytes [10, 255])]
    Decoder.jsonl.decode (RowWriter.jsonl.encode rows)
      = .ok [row (.float ⟨0x3ff8000000000000⟩) .null, .empty,
        row (.text "\"\n") (.text "0x0aff")] := by
  intro row rows
  have half : (⟨0x3ff8000000000000⟩ : Binary64).ReadsBack :=
    Json.Reader.readsBack_of_short (by decide) (by decide +kernel)
  have both {a b : Value} (ha : a.ReadsBack) (hb : b.ReadsBack) : (row a b).ReadsBack :=
    (Row.readsBack_empty.insert "a" ha).insert "b" hb
  have back : ∀ row ∈ rows, row.ReadsBack := by
    rw [List.forall_mem_cons, List.forall_mem_cons, List.forall_mem_singleton]
    exact ⟨both (fun _ => half) (by rintro ⟨⟩), Row.readsBack_empty, both trivial trivial⟩
  exact ((decode_written_rows rows).2 back).trans (by decide +kernel)

end RowQuery.Jsonl
