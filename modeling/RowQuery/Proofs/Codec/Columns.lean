import RowQuery.Proofs.Codec.Csv
import RowQuery.Proofs.Store.Memory

/-!
The columns of rows that are read from separated values. All rows of an input have the same ones,
each record becomes a row, and no field of it is lost: names that would meet in one row are refused
before any row is made.
-/

namespace RowQuery

theorem isSome_findEntry {α : Type} {name : String} {l : List (String × α)} :
    (findEntry name l).isSome = true ↔ name ∈ l.map Prod.fst := by
  induction l with
  | nil => simp [findEntry]
  | cons e l ih =>
    rw [findEntry, List.map_cons, List.mem_cons]
    split
    · next same => simp [same]
    · next other => simp [other, ih]

theorem map_findEntry_zip {α : Type} {names : List String} {values : List α}
    (distinct : names.Nodup) (same : values.length = names.length) :
    names.map (findEntry · (names.zip values)) = values.map some := by
  induction names generalizing values with
  | nil =>
    rw [List.length_eq_zero_iff.1 same]
    rfl
  | cons name names ih =>
    obtain ⟨fresh, distinct⟩ := List.nodup_cons.1 distinct
    obtain ⟨value, values, rfl⟩ := List.exists_cons_of_length_eq_add_one same
    have tail : names.map (findEntry · ((name :: names).zip (value :: values))) =
        names.map (findEntry · (names.zip values)) := by
      refine List.map_congr_left fun other h => ?_
      rw [List.zip_cons_cons, findEntry, if_neg fun (same : other = name) => fresh (same ▸ h)]
    rw [List.map_cons, List.map_cons, tail, ih distinct (Nat.succ.inj same), List.zip_cons_cons,
      findEntry, if_pos rfl]

namespace NameMap

variable {α : Type} {l : List (String × α)}

theorem get?_ofList (distinct : (l.map Prod.fst).Nodup) (name : String) :
    (ofList l).get? name = findEntry name l :=
  (get?_foldl_insert empty name distinct).trans (Option.or_none ..)

theorem mem_names_ofList (distinct : (l.map Prod.fst).Nodup) {name : String} :
    name ∈ (ofList l).names ↔ name ∈ l.map Prod.fst := by
  rw [mem_names, get?_ofList distinct, ← Option.isSome_iff_exists, isSome_findEntry]

theorem size_ofList (distinct : (l.map Prod.fst).Nodup) : (ofList l).size = l.length := by
  have same : (ofList l).names.Perm (l.map Prod.fst) :=
    (List.perm_ext_iff_of_nodup (nodup_names _) distinct).2 fun _ => mem_names_ofList distinct
  have lengths := same.length_eq
  rwa [names, List.length_map, List.length_map] at lengths

end NameMap

namespace Records

theorem texts_eq_ok {expected : ℕ} {r : Record} {ss : List String} :
    texts expected r = .ok ss ↔ r.fields.length = expected ∧ r.fields = ss.map Bytes.ofText := by
  rw [texts]
  split
  · next unequal => simp [unequal]
  · next equal =>
    rw [mapM_eq_ok, and_iff_right (not_not.1 equal)]
    have fields : List.Forall₂ (fun (e : Bytes × ℕ) s => e.1 = Bytes.ofText s) r.fields.zipIdx ss ↔
        r.fields = ss.map Bytes.ofText := by
      rw [← List.forall₂_map_left_iff (R := fun (field : Bytes) s => field = Bytes.ofText s),
        List.zipIdx_map_fst,
        ← List.forall₂_map_right_iff (R := (· = ·)), List.forall₂_eq_eq_eq]
    rw [← fields]
    refine ⟨fun h => h.imp fun field s read => ?_, fun h => h.imp fun field s same => ?_⟩
    · dsimp only at read
      split at read
      · next found =>
        cases read
        exact Bytes.text?_eq_some.1 found
      · cases read
    · dsimp only
      rw [Bytes.text?_eq_some.2 same]

theorem texts_eq_error {expected : ℕ} {r : Record} {e : DataError}
    (h : texts expected r = .error e) : ∃ fault, e = .record fault := by
  rw [texts] at h
  split at h
  · cases h
    exact ⟨_, rfl⟩
  · obtain ⟨⟨field, i⟩, -, failed⟩ := mapM_eq_error h
    dsimp only at failed
    split at failed
    · cases failed
    · cases failed
      exact ⟨_, rfl⟩

end Records

namespace Csv

theorem repeated?_eq_none_iff {seen names : List String} :
    repeated? seen names = none ↔ names.Nodup ∧ ∀ name ∈ names, name ∉ seen := by
  refine ⟨fun h => ?_, fun ⟨nodup, apart⟩ => repeated?_eq_none nodup apart⟩
  induction names generalizing seen with
  | nil => exact ⟨.nil, List.forall_mem_nil _⟩
  | cons name names ih =>
    rw [repeated?] at h
    split at h
    · cases h
    · next fresh =>
      obtain ⟨nodup, apart⟩ := ih h
      have new : name ∉ names := fun later => apart name later List.mem_cons_self
      refine ⟨List.nodup_cons.2 ⟨new, nodup⟩, List.forall_mem_cons.2 ⟨fresh, ?_⟩⟩
      exact fun other later seen => apart other later (List.mem_cons_of_mem name seen)

theorem placeName_injective {i j : ℕ} (h : placeName i = placeName j) : i = j := by
  have digits (k : ℕ) : (placeName k).toList = 'c' :: digitsOf k := by
    have text : placeName k = "c" ++ String.ofList (digitsOf k) := rfl
    rw [text, String.toList_append]
    exact congrArg ("c".toList ++ ·) String.toList_ofList
  have same : digitsOf i = digitsOf j := by
    have lists := congrArg String.toList h
    rw [digits, digits] at lists
    exact (List.cons.inj lists).2
  rw [← digitsValue_digitsOf i, same, digitsValue_digitsOf]

theorem nodup_placeNames (count : ℕ) : (placeNames count).Nodup :=
  List.Nodup.map (fun _ _ => placeName_injective) List.nodup_range

/-- A row that holds a record: the value under each column is that of its own field, and there is no
other column. -/
structure Holds (columns : List String) (r : Records.Record) (row : Row) : Prop where
  values : ∃ texts : List String, r.fields = texts.map Bytes.ofText ∧
    columns.map row.get? = texts.map fun s => some (Value.ofCell s)
  names : ∀ name, name ∈ row.names ↔ name ∈ columns
  size : row.size = r.fields.length

variable {columns : List String}

theorem rowOf_eq_ok {fields : List String} {row : Row} : rowOf columns fields = .ok row ↔
    fields.length = columns.length ∧
    row = NameMap.ofList (columns.zip (fields.map Value.ofCell)) := by
  rw [rowOf]
  split
  · next unequal => simp [unequal]
  · next equal => simp [not_not.1 equal, eq_comm]

theorem holds_ofList (distinct : columns.Nodup) {r : Records.Record} {fields : List String}
    (spelled : r.fields = fields.map Bytes.ofText) (same : fields.length = columns.length) :
    Holds columns r (NameMap.ofList (columns.zip (fields.map Value.ofCell))) := by
  have values : (fields.map Value.ofCell).length = columns.length := by rw [List.length_map, same]
  have first : (columns.zip (fields.map Value.ofCell)).map Prod.fst = columns :=
    List.map_fst_zip values.ge
  have distinct' : ((columns.zip (fields.map Value.ofCell)).map Prod.fst).Nodup := by rwa [first]
  refine ⟨⟨fields, spelled, ?_⟩, fun name => ?_, ?_⟩
  · rw [List.map_congr_left fun name _ => NameMap.get?_ofList distinct' name,
      map_findEntry_zip distinct values, List.map_map]
    rfl
  · rw [NameMap.mem_names_ofList distinct', first]
  · rw [NameMap.size_ofList distinct', List.length_zip, values, Nat.min_self, spelled,
      List.length_map, same]

theorem Holds.unique {r : Records.Record} {row row' : Row} (h : Holds columns r row)
    (h' : Holds columns r row') : row = row' := by
  obtain ⟨texts, spelled, values⟩ := h.values
  obtain ⟨texts', spelled', values'⟩ := h'.values
  obtain rfl : texts = texts' :=
    List.map_injective_iff.2 (fun _ _ => Bytes.ofText_injective) (spelled.symm.trans spelled')
  apply NameMap.ext_get?
  intro name
  rcases Decidable.em (name ∈ columns) with column | other
  · exact List.map_inj_left.1 (values.trans values'.symm) name column
  · have absent : row.get? name = none := findEntry_eq_none_of_notMem (mt (h.names name).1 other)
    have absent' : row'.get? name = none := findEntry_eq_none_of_notMem (mt (h'.names name).1 other)
    rw [absent, absent']

theorem row_eq_ok (distinct : columns.Nodup) {r : Records.Record} {row : Row} :
    (Records.texts columns.length r >>= fun fields => rowOf columns fields) = .ok row ↔
      Holds columns r row := by
  rw [bind_eq_ok]
  constructor
  · rintro ⟨fields, read, made⟩
    obtain ⟨-, spelled⟩ := Records.texts_eq_ok.1 read
    obtain ⟨same, rfl⟩ := rowOf_eq_ok.1 made
    exact holds_ofList distinct spelled same
  · intro h
    obtain ⟨fields, spelled, values⟩ := h.values
    have same : fields.length = columns.length := by
      have lengths := congrArg List.length values
      rw [List.length_map, List.length_map] at lengths
      exact lengths.symm
    have count : r.fields.length = columns.length := by rw [spelled, List.length_map, same]
    refine ⟨fields, Records.texts_eq_ok.2 ⟨count, spelled⟩, rowOf_eq_ok.2 ⟨same, ?_⟩⟩
    exact h.unique (holds_ofList distinct spelled same)

/-- The number of its fields is looked at before a row is made of them, so that it is the record
that is refused. -/
theorem row_eq_error {r : Records.Record} {e : DataError}
    (h : (Records.texts columns.length r >>= fun fields => rowOf columns fields) = .error e) :
    ∃ fault, e = .record fault := by
  cases read : Records.texts columns.length r with
  | error e' =>
    rw [read] at h
    cases h
    exact Records.texts_eq_error read
  | ok fields =>
    rw [read] at h
    obtain ⟨count, spelled⟩ := Records.texts_eq_ok.1 read
    have same : fields.length = columns.length := by rw [← count, spelled, List.length_map]
    cases h.symm.trans (rowOf_eq_ok.2 ⟨same, rfl⟩)

def rowsUnder (columns : List String) (records : List Records.Record) :
    Except DataError (List Row) :=
  records.mapM fun r => Records.texts columns.length r >>= fun fields => rowOf columns fields

theorem rowsUnder_eq_ok (distinct : columns.Nodup) {records : List Records.Record}
    {rows : List Row} :
    rowsUnder columns records = .ok rows ↔ List.Forall₂ (Holds columns) records rows :=
  mapM_eq_ok.trans ⟨fun h => h.imp fun _ _ => (row_eq_ok distinct).1,
    fun h => h.imp fun _ _ => (row_eq_ok distinct).2⟩

theorem rowsUnder_eq_error {records : List Records.Record} {e : DataError}
    (h : rowsUnder columns records = .error e) :
    ∃ fault, e = .record fault := by
  obtain ⟨r, -, failed⟩ := mapM_eq_error h
  exact row_eq_error failed

theorem withHeader_of_texts {header : Records.Record} {texts : List String}
    (read : Records.texts header.fields.length header = .ok texts) (rest : List Records.Record) :
    withHeader header rest = match repeated? [] (texts.map Text.trim) with
      | some name => .error (.codec (.repeatedHeader name))
      | none => rowsUnder (texts.map Text.trim) rest := by
  have count : header.fields.length = (texts.map Text.trim).length := by
    rw [(Records.texts_eq_ok.1 read).2, List.length_map, List.length_map]
  rw [withHeader, read, rowsUnder, ← count]
  rfl

theorem withHeader_eq_ok {header : Records.Record} {rest : List Records.Record} {rows : List Row} :
    withHeader header rest = .ok rows ↔
      ∃ texts : List String, header.fields = texts.map Bytes.ofText ∧
      (texts.map Text.trim).Nodup ∧ List.Forall₂ (Holds (texts.map Text.trim)) rest rows := by
  constructor
  · intro h
    obtain ⟨texts, read, -⟩ := bind_eq_ok.1 h
    rw [withHeader_of_texts read] at h
    split at h
    · cases h
    · next fresh =>
      obtain ⟨distinct, -⟩ := repeated?_eq_none_iff.1 fresh
      exact ⟨texts, (Records.texts_eq_ok.1 read).2, distinct, (rowsUnder_eq_ok distinct).1 h⟩
  · rintro ⟨texts, spelled, distinct, held⟩
    rw [withHeader_of_texts (Records.texts_eq_ok.2 ⟨rfl, spelled⟩),
      repeated?_eq_none distinct fun _ _ => List.not_mem_nil]
    exact (rowsUnder_eq_ok distinct).2 held

theorem withHeader_eq_error {header : Records.Record} {rest : List Records.Record} {e : DataError}
    (h : withHeader header rest = .error e) :
    (∃ fault, e = .record fault) ∨ ∃ name, e = .codec (.repeatedHeader name) := by
  cases read : Records.texts header.fields.length header with
  | error e' =>
    rw [withHeader, read] at h
    cases h
    exact .inl (Records.texts_eq_error read)
  | ok texts =>
    rw [withHeader_of_texts read] at h
    split at h
    · next name _ =>
      cases h
      exact .inr ⟨name, rfl⟩
    · exact .inl (rowsUnder_eq_error h)

theorem withoutHeader_cons (first : Records.Record) (rest : List Records.Record) :
    withoutHeader (first :: rest) = rowsUnder (placeNames first.fields.length) (first :: rest) := by
  have count : (placeNames first.fields.length).length = first.fields.length := by
    rw [placeNames, List.length_map, List.length_range]
  rw [rowsUnder, count]
  rfl

/-- The columns that the first record gives: its own texts without blanks around them, or their
places. -/
def Columns (format : Format) : List Records.Record → List String → Prop
  | [], columns => columns = []
  | first :: _, columns =>
    if format.hasHeader then ∃ texts : List String, first.fields = texts.map Bytes.ofText ∧
      columns = texts.map Text.trim
    else columns = placeNames first.fields.length

def body (format : Format) (records : List Records.Record) : List Records.Record :=
  if format.hasHeader then records.tail else records

variable {format : Format} {bs : Bytes}

theorem decode_eq_ok {rows : List Row} : decode format bs = .ok rows ↔
    ∃ columns, Columns format (Records.read format.delimiter bs) columns ∧ columns.Nodup ∧
      List.Forall₂ (Holds columns) (body format (Records.read format.delimiter bs)) rows := by
  obtain ⟨delimiter, header⟩ := format
  rw [decode]
  generalize Records.read _ bs = records
  cases records with
  | nil =>
    constructor
    · intro read
      obtain rfl : [] = rows := by cases header <;> exact Except.ok.inj read
      exact ⟨[], rfl, .nil, by cases header <;> exact .nil⟩
    · rintro ⟨_, rfl, _, held⟩
      cases header <;>
      · cases held
        rfl
  | cons first rest =>
    cases header with
    | true =>
      refine withHeader_eq_ok.trans ⟨?_, ?_⟩
      · rintro ⟨texts, spelled, distinct, held⟩
        exact ⟨_, ⟨texts, spelled, rfl⟩, distinct, held⟩
      · rintro ⟨_, ⟨texts, spelled, rfl⟩, distinct, held⟩
        exact ⟨texts, spelled, distinct, held⟩
    | false =>
      dsimp only
      rw [withoutHeader_cons, rowsUnder_eq_ok (nodup_placeNames _)]
      constructor
      · intro held
        exact ⟨_, rfl, nodup_placeNames _, held⟩
      · rintro ⟨_, rfl, _, held⟩
        exact held

theorem decode_eq_error {e : DataError} (h : decode format bs = .error e) :
    (∃ fault, e = .record fault) ∨ ∃ name, e = .codec (.repeatedHeader name) := by
  obtain ⟨delimiter, header⟩ := format
  rw [decode] at h
  generalize Records.read _ bs = records at h
  cases records with
  | nil => cases header <;> cases h
  | cons first rest =>
    cases header with
    | true => exact withHeader_eq_error h
    | false =>
      dsimp only at h
      rw [withoutHeader_cons] at h
      exact .inl (rowsUnder_eq_error h)

/-- One row for each record that is not the header, in their order, and in it a value for each field
under columns that are the same for all rows. No row is ever refused for its number of fields, since
a record of another length is refused itself. -/
theorem decode_keeps_every_field (format : Format) (bs : Bytes) :
    let records := Records.read format.delimiter bs
    (∀ rows, (Decoder.csv format).decode bs = .ok rows ↔
      ∃ columns, Columns format records columns ∧ columns.Nodup ∧
        List.Forall₂ (Holds columns) (body format records) rows) ∧
    ∀ found expected, (Decoder.csv format).decode bs
      ≠ .error (.codec (.fieldCount found expected)) := by
  refine ⟨fun rows => decode_eq_ok, fun found expected h => ?_⟩
  rcases decode_eq_error h with ⟨_, ⟨⟩⟩ | ⟨_, ⟨⟩⟩

end Csv

end RowQuery
