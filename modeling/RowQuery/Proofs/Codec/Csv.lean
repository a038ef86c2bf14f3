import RowQuery.Codec.Catalog
import RowQuery.Proofs.Codec.Records
import RowQuery.Proofs.Outcome
import RowQuery.Proofs.Text.Bytes
import RowQuery.Proofs.Value.Cell

/-!
Rows that one encoder writes as separated values are read again from the bytes of those that it
accepts, each with the columns of the first row and with what the text of each cell stands for.
-/

namespace RowQuery

namespace NameMap

variable {α β : Type}

def withValues (m : NameMap α) (f : String → β) : NameMap β :=
  ⟨m.names.map fun name => (name, f name), by
    rw [names, List.map_map]
    exact List.pairwise_map.2 m.sorted⟩

theorem names_withValues (m : NameMap α) (f : String → β) : (m.withValues f).names = m.names := by
  simp [withValues, names]

theorem findEntry_map_pair {names : List String} {name : String} (h : name ∈ names)
    (f : String → β) : findEntry name (names.map fun name => (name, f name)) = some (f name) := by
  induction names with
  | nil => cases h
  | cons n names ih =>
    rw [List.map_cons, findEntry]
    split
    · next same => rw [same]
    · next other => exact ih ((List.mem_cons.1 h).resolve_left other)

theorem get?_withValues (m : NameMap α) (f : String → β) {name : String} (h : name ∈ m.names) :
    (m.withValues f).get? name = some (f name) :=
  findEntry_map_pair h f

end NameMap

namespace Encoder

/-- What becomes of rows that are offered one after another: the bytes of each row, or why it is
refused. -/
def offer : Encoder → List Row → List (Except DataError Bytes)
  | _, [] => []
  | e, row :: rest =>
    match e.write row with
    | .ok (e, content) => .ok content :: offer e rest
    | .error fault => .error fault :: offer e rest

theorem encodeFrom_eq_offer (e : Encoder) (rows : List Row) :
    RowWriter.encodeFrom e rows = (e.offer rows).flatMap fun result => result.toOption.getD [] := by
  induction rows generalizing e with
  | nil => rfl
  | cons row rows ih =>
    rw [RowWriter.encodeFrom, offer]
    cases e.write row with
    | error fault => exact ih e
    | ok written => exact congrArg (written.2 ++ ·) (ih written.1)

end Encoder

namespace Records

theorem texts_ofText {r : Record} {ss : List String} (h : r.fields = ss.map Bytes.ofText) :
    texts ss.length r = .ok ss := by
  have same : r.fields.length = ss.length := by rw [h, List.length_map]
  rw [texts, same, if_neg (not_not.2 rfl), h]
  generalize 0 = k
  clear h same
  induction ss generalizing k with
  | nil => rfl
  | cons s ss ih =>
    rw [List.map_cons, List.zipIdx_cons, List.mapM_cons, ih]
    simp only [Bytes.text?_ofText]
    rfl

end Records

namespace Csv

variable {d : UInt8}

def cells (names : List String) (row : Row) : List String :=
  names.map fun name => cellText (row.get? name)

/-- The values that the cells of a row stand for, under the names of the first row. -/
def readBack (first row : Row) : Row :=
  first.withValues fun name => Value.ofCell (cellText (row.get? name))

def within (names : List String) (row : Row) : Bool := row.names.all fun name => name ∈ names

theorem repeated?_eq_none {seen names : List String} (nodup : names.Nodup)
    (apart : ∀ name ∈ names, name ∉ seen) : repeated? seen names = none := by
  induction names generalizing seen with
  | nil => rfl
  | cons name names ih =>
    obtain ⟨fresh, rest⟩ := List.nodup_cons.1 nodup
    rw [repeated?, if_neg (apart name List.mem_cons_self)]
    refine ih rest fun other h => ?_
    rw [List.mem_cons, not_or]
    exact ⟨fun same => fresh (same ▸ h), apart other (List.mem_cons_of_mem name h)⟩

theorem rowOf_cells (first row : Row) :
    rowOf first.names (cells first.names row) = .ok (readBack first row) := by
  have entries : first.names.zip ((cells first.names row).map Value.ofCell)
      = (readBack first row).entries := by
    rw [cells, List.map_map]
    exact List.map_prod_left_eq_zip.symm
  have same : (cells first.names row).length = first.names.length := List.length_map ..
  rw [rowOf, if_neg (not_not.2 same), entries, NameMap.ofList_entries]

theorem withHeader_cells {first : Row} (trimmed : ∀ name ∈ first.names, Text.trim name = name)
    {header : Records.Record} (names : header.fields = first.names.map Bytes.ofText)
    {records : List Records.Record} {rows : List Row}
    (values : records.map Records.Record.fields
      = rows.map fun row => (cells first.names row).map Bytes.ofText) :
    withHeader header records = .ok (rows.map (readBack first)) := by
  have count : header.fields.length = first.names.length := by rw [names, List.length_map]
  have kept : first.names.map Text.trim = first.names :=
    (List.map_congr_left trimmed).trans (List.map_id _)
  have paired : List.Forall₂
      (fun (r : Records.Record) row => r.fields = (cells first.names row).map Bytes.ofText)
      records rows := by
    rw [← List.forall₂_eq_eq_eq, List.forall₂_map_left_iff, List.forall₂_map_right_iff] at values
    exact values
  rw [withHeader, count, Records.texts_ofText names]
  simp only [bind, Except.bind, kept,
    repeated?_eq_none first.nodup_names fun _ _ => List.not_mem_nil]
  refine mapM_eq_ok.2 (List.forall₂_map_right_iff.2 (paired.imp fun r row fields => ?_))
  have same : first.names.length = (cells first.names row).length := (List.length_map ..).symm
  rw [same, Records.texts_ofText fields]
  exact rowOf_cells first row

theorem within_iff {names : List String} {row : Row} :
    within names row = true ↔ ¬ ∃ name ∈ row.names, name ∉ names := by
  simp [within]

theorem write_within {names : List String} {row : Row} (h : within names row = true) :
    (Encoder.csv d (some names)).write row = .ok (.csv d (some names), writeCells d names row) := by
  have inside : row.names.find? (fun name => name ∉ names) = none := by
    rw [List.find?_eq_none]
    simpa [within] using h
  rw [Encoder.write, encodeRow, inside]
  rfl

theorem write_outside {names : List String} {row : Row} (h : within names row = false) :
    ∃ fault, (Encoder.csv d (some names)).write row = .error fault := by
  have outside : (row.names.find? fun name => name ∉ names).isSome := by
    rw [List.find?_isSome]
    simpa [within] using h
  obtain ⟨name, found⟩ := Option.isSome_iff_exists.1 outside
  refine ⟨.codec (.columnOutsideHeader name), ?_⟩
  rw [Encoder.write, encodeRow, found]
  rfl

theorem offer_csv (names : List String) (rows : List Row) :
    List.Forall₂ (fun row result => (∃ fault, result = .error fault) ↔ ∃ name ∈ row.names,
      name ∉ names) rows
      ((Encoder.csv d (some names)).offer rows) := by
  induction rows with
  | nil => exact .nil
  | cons row rows ih =>
    rw [Encoder.offer]
    cases inside : within names row with
    | true =>
      rw [write_within inside]
      exact .cons ⟨by rintro ⟨_, ⟨⟩⟩, fun outside => absurd outside (within_iff.1 inside)⟩ ih
    | false =>
      obtain ⟨fault, refused⟩ := write_outside (d := d) inside
      rw [refused]
      have outside : ∃ name ∈ row.names, name ∉ names := not_not.1 fun all => by
        rw [within_iff.2 all] at inside
        cases inside
      exact .cons ⟨fun _ => outside, fun _ => ⟨fault, rfl⟩⟩ ih

theorem encodeFrom_csv (names : List String) (rows : List Row) :
    RowWriter.encodeFrom (.csv d (some names)) rows = (rows.filter (within names)).flatMap
      (writeCells d names) := by
  induction rows with
  | nil => rfl
  | cons row rows ih =>
    rw [RowWriter.encodeFrom]
    cases inside : within names row with
    | true =>
      rw [write_within inside, List.filter_cons_of_pos inside, List.flatMap_cons, ← ih]
    | false =>
      obtain ⟨fault, refused⟩ := write_outside (d := d) inside
      rw [refused, List.filter_cons_of_neg (Bool.not_eq_true _ ▸ inside), ← ih]

theorem within_self (row : Row) : within row.names row = true :=
  within_iff.2 fun ⟨_, mem, outside⟩ => outside mem

theorem write_first (row : Row) : (Encoder.csv d none).write row
    = .ok (.csv d (some row.names), writeTexts d row.names ++ writeCells d row.names row) := rfl

theorem encode_eq (first : Row) (rest : List Row) :
    (RowWriter.csv d).encode (first :: rest)
      = (first.names :: ((first :: rest).filter (within first.names)).map
        (cells first.names)).flatMap (writeTexts d) := by
  rw [RowWriter.encode, RowWriter.encoder, RowWriter.encodeFrom, write_first,
    List.filter_cons_of_pos (within_self first), List.map_cons, List.flatMap_cons,
    List.flatMap_cons, List.flatMap_map, ← List.append_assoc]
  exact congrArg _ (encodeFrom_csv first.names rest)

theorem unmarked_writeTexts (ascii : d < 128) {name : String}
    (unmarked : name.toList.head? ≠ some '\ufeff') (names : List String) (more rest : Bytes) :
    writeTexts d (name :: names) ++ more ≠ 0xef :: 0xbb :: 0xbf :: rest := by
  obtain ⟨tail, written, head⟩ := Records.write_cons d (Bytes.ofText name) (names.map Bytes.ofText)
  intro mark
  rw [writeTexts, List.map_cons, written, List.append_assoc] at mark
  cases quoted : Records.needsQuotes d (Bytes.ofText name) with
  | true =>
    rw [Records.writeField, if_pos quoted] at mark
    exact absurd (List.cons.inj mark).1 (by decide)
  | false =>
    have bare : Records.writeField d (Bytes.ofText name)
        = name.toList.flatMap String.utf8EncodeChar := by
      rw [Records.writeField, if_neg (by simp [quoted]), Bytes.ofText_eq]
    rw [bare] at mark head
    cases chars : name.toList with
    | nil =>
      rw [chars] at mark head
      obtain ⟨b, tail', rfl, special⟩ := head rfl
      have first : b = 0xef := (List.cons.inj mark).1
      rcases special with rfl | rfl
      · rw [first] at ascii
        exact absurd ascii (by decide)
      · exact absurd first (by decide)
    | cons c cs =>
      rw [chars, List.flatMap_cons, List.append_assoc] at mark
      exact unmarked (by rw [chars, Bytes.eq_of_mark mark]; rfl)

theorem map_fields_read_writeTexts (ascii : d < 128) (sep : Records.Separates d)
    {header : List String} {lines : List (List String)}
    (nonempty : ∀ line ∈ header :: lines, line ≠ [])
    (unmarked : ∀ name ∈ header, name.toList.head? ≠ some '\ufeff') :
    (Records.read d ((header :: lines).flatMap (writeTexts d))).map Records.Record.fields
      = (header :: lines).map (List.map Bytes.ofText) := by
  have noMark : ∀ rest,
      (header :: lines).flatMap (writeTexts d) ≠ 0xef :: 0xbb :: 0xbf :: rest := by
    intro rest
    obtain ⟨name, names, rfl⟩ := List.exists_cons_of_ne_nil (nonempty header List.mem_cons_self)
    rw [List.flatMap_cons]
    exact unmarked_writeTexts ascii (unmarked name List.mem_cons_self) names _ rest
  have written : (header :: lines).flatMap (writeTexts d)
      = ((header :: lines).map (List.map Bytes.ofText)).flatMap (Records.write d) := by
    rw [List.flatMap_map]
    rfl
  rw [Records.map_fields_read d noMark, written]
  refine Records.fieldsFrom_flatMap_write sep (List.forall_mem_map.2 fun line h => ?_)
  exact mt List.map_eq_nil_iff.1 (nonempty line h)

theorem decode_encode (ascii : d < 128) (sep : Records.Separates d) {first : Row} (rest : List Row)
    (columns : first.names ≠ []) (trimmed : ∀ name ∈ first.names, Text.trim name = name)
    (unmarked : ∀ name ∈ first.names, name.toList.head? ≠ some '\ufeff') :
    decode ⟨d, true⟩ ((RowWriter.csv d).encode (first :: rest))
      = .ok (((first :: rest).filter (within first.names)).map (readBack first)) := by
  have nonempty :
      ∀ line ∈ first.names :: ((first :: rest).filter (within first.names)).map (cells first.names),
      line ≠ [] := by
    rw [List.forall_mem_cons, List.forall_mem_map]
    exact ⟨columns, fun row _ => mt List.map_eq_nil_iff.1 columns⟩
  have fields := map_fields_read_writeTexts ascii sep nonempty unmarked
  rw [← encode_eq, List.map_cons] at fields
  obtain ⟨header, records, read, names, values⟩ := List.map_eq_cons_iff.1 fields
  simp only [decode, read]
  exact withHeader_cells trimmed names (values.trans (List.map_map ..))

/-- Of the rows that one encoder is offered, those with a column that the first row lacks are
refused and leave no byte; the others are decoded in their order, each with the columns of the first
row. A cell keeps nothing, truth values and integers as they are, and texts that do not spell
anything else. -/
theorem decode_accepted_rows (ascii : d < 128) (sep : Records.Separates d) (first : Row)
    (rest : List Row) (columns : first.names ≠ [])
    (trimmed : ∀ name ∈ first.names, Text.trim name = name)
    (unmarked : ∀ name ∈ first.names, name.toList.head? ≠ some '\ufeff') :
    let rows := first :: rest
    let results := (RowWriter.csv d).encoder.offer rows
    List.Forall₂ (fun row result =>
        (∃ fault, result = .error fault) ↔ ∃ name ∈ row.names, name ∉ first.names)
      rows results ∧
      (RowWriter.csv d).encode rows = results.flatMap (fun result => result.toOption.getD []) ∧
      (∃ back, (Decoder.csv ⟨d, true⟩).decode ((RowWriter.csv d).encode rows) = .ok back ∧
        List.Forall₂ (fun row row' => row'.names = first.names ∧
            ∀ name ∈ first.names, row'.get? name = some (Value.ofCell (cellText (row.get? name))))
          (rows.filter fun row => row.names.all (· ∈ first.names)) back) ∧
      (∀ v, (v = .null ∨ (∃ b, v = .bool b) ∨ ∃ i, v = .int i) →
        Value.ofCell (cellText (some v)) = v) ∧
      ∀ s, Value.ofCell (cellText (some (.text s))) = .text s ↔
        s ≠ "" ∧ s.toLower ≠ "true" ∧ s.toLower ≠ "false" ∧ Numeral.int64? s.toList = none ∧
          Numeral.binary64? s.toList = none := by
  intro rows results
  refine ⟨?_, Encoder.encodeFrom_eq_offer _ rows,
    ⟨(rows.filter (within first.names)).map (readBack first), ?_, ?_⟩, ?_,
    fun s => Value.ofCell_eq_text⟩
  · exact .cons ⟨by rintro ⟨_, ⟨⟩⟩,
      fun outside => absurd outside (within_iff.1 (within_self first))⟩
      (offer_csv first.names rest)
  · exact decode_encode ascii sep rest columns trimmed unmarked
  · exact List.forall₂_map_right_iff.2 (List.forall₂_same.2 fun row _ =>
      ⟨first.names_withValues _, fun name h => first.get?_withValues _ h⟩)
  · rintro v (rfl | ⟨b, rfl⟩ | ⟨i, rfl⟩)
    · rfl
    · exact Value.ofCell_display_bool b
    · exact Value.ofCell_display_int i

theorem decode_accepted_rows_quoted :
    let first : Row :=
      (NameMap.empty.insert "a;b" (.text "say \"x;y\"\r\n")).insert "n" (.int Int64.minValue)
    let refused : Row := NameMap.empty.insert "z" .null
    let last : Row := NameMap.empty.insert "n" (.text "01")
    ∃ a b, (Decoder.csv ⟨59, true⟩).decode ((RowWriter.csv 59).encode [first, refused, last])
      = .ok [a, b] ∧
      a.get? "a;b" = some (.text "say \"x;y\"\r\n") ∧ a.get? "n" = some (.int Int64.minValue) ∧
      b.get? "a;b" = some .null ∧ b.get? "n" = some (.int 1) := by
  intro first refused last
  have names : first.names = ["a;b", "n"] := by decide +kernel
  have sep : Records.Separates 59 := ⟨by decide, by decide⟩
  obtain ⟨-, -, ⟨back, decoded, cells⟩, -, -⟩ :=
    decode_accepted_rows (by decide) sep first [refused, last]
    (by decide +kernel) (by decide +kernel) (by decide +kernel)
  have accepted : [first, refused, last].filter (fun row => row.names.all (· ∈ first.names))
      = [first, last] := by
    decide +kernel
  rw [accepted, names] at cells
  obtain ⟨a, tail, firstCells, tailCells, rfl⟩ := List.forall₂_cons_left_iff.1 cells
  obtain ⟨b, tail, lastCells, noMore, rfl⟩ := List.forall₂_cons_left_iff.1 tailCells
  rw [List.forall₂_nil_left_iff.1 noMore] at decoded
  refine ⟨a, b, decoded, (firstCells.2 _ ?_).trans ?_, (firstCells.2 _ ?_).trans ?_,
    (lastCells.2 _ ?_).trans ?_,
    (lastCells.2 _ ?_).trans ?_⟩ <;> decide +kernel

end Csv

end RowQuery
