import Mathlib.Data.Nat.Notation
import RowQuery.Codec.Records

/-!
Records that are written one after another are read again with the same fields, whatever bytes the
fields have.
-/

namespace RowQuery.Records

/-- A byte that can stand between fields: it neither quotes a field nor ends a record. -/
structure Separates (d : UInt8) : Prop where
  notQuote : d ≠ quote
  within : endsRecord d = false

theorem map_fields_scan_congr (d : UInt8) (place : Place) {p q : Partial}
    (fields : p.fields = q.fields) (open_ : p.open_ = q.open_) (bs : Bytes) :
    (scan d place p bs).map Record.fields = (scan d place q bs).map Record.fields := by
  induction bs generalizing place p q with
  | nil => cases place <;> simp [scan, Partial.finish, Partial.endField, fields, open_]
  | cons b bs ih =>
    have field : (p.advance b).endField.fields = (q.advance b).endField.fields := by
      simp [Partial.advance, Partial.endField, fields, open_]
    have skipped (place : Place) := @ih place (p.advance b) (q.advance b) fields open_
    have pushed (place : Place) :=
      @ih place ((p.advance b).push b) ((q.advance b).push b) fields (congrArg (b :: ·) open_)
    have separated := ih .field field rfl
    have finished :
        (p.advance b).finish.fields :: (scan d .record (p.advance b).next bs).map Record.fields
        = (q.advance b).finish.fields :: (scan d .record (q.advance b).next bs).map
          Record.fields := by
      rw [Partial.finish, Partial.finish, field,
        @ih .record (p.advance b).next (q.advance b).next rfl rfl]
    rw [scan, scan]
    -- at each place a byte is a quote, the separator, the end of a record, or none of these
    cases hq : b == quote <;> cases hd : b == d <;> cases he : endsRecord b <;> cases place <;>
      simp only [step, hq, hd, he, if_true, Bool.false_eq_true, if_false] <;>
      first | exact skipped _ | exact pushed _ | exact separated | exact finished

/-- The fields of the records that are read from a place on, when `done` are complete and `open_` is
not. -/
def fieldsFrom (d : UInt8) (place : Place) (done : List Bytes) (open_ bs : Bytes) :
    List (List Bytes) :=
  (scan d place ⟨default, done, open_, 0, 0⟩ bs).map Record.fields

theorem map_fields_scan (d : UInt8) (place : Place) (p : Partial) (bs : Bytes) :
    (scan d place p bs).map Record.fields = fieldsFrom d place p.fields p.open_ bs := by
  rw [fieldsFrom]
  apply map_fields_scan_congr <;> rfl

def Place.closes : Place → Bool
  | .field | .plain | .afterQuote => true
  | .record | .quoted => false

section

variable {d : UInt8} {place : Place} (done : List Bytes) (open_ : Bytes)

theorem fieldsFrom_separator (sep : Separates d) (closes : place.closes) (bs : Bytes) :
    fieldsFrom d place done open_ (d :: bs)
      = fieldsFrom d .field (open_.reverse :: done) [] bs := by
  have notQuote : (d == quote) = false := beq_false_of_ne sep.notQuote
  cases place <;> cases closes <;>
    simp only [fieldsFrom, scan, step, notQuote, beq_self_eq_true, if_true, Bool.false_eq_true,
      if_false] <;>
    exact map_fields_scan d .field _ bs

theorem fieldsFrom_lineFeed (sep : Separates d) (closes : place.closes) (bs : Bytes) :
    fieldsFrom d place done open_ (lineFeed :: bs)
      = (done.reverse ++ [open_.reverse]) :: fieldsFrom d .record [] [] bs := by
  have notQuote : (lineFeed == quote) = false := rfl
  have ends : endsRecord lineFeed = true := rfl
  have notSeparator : (lineFeed == d) = false := beq_false_of_ne fun same => by
    rw [same, sep.within] at ends
    cases ends
  cases place <;> cases closes <;>
    simp only [fieldsFrom, scan, step, notQuote, notSeparator, ends, if_true, Bool.false_eq_true,
      if_false, List.map_cons, Partial.finish, Partial.endField, Partial.advance,
      List.reverse_cons] <;>
    exact congrArg _ (map_fields_scan d .record _ bs)

theorem fieldsFrom_within {b : UInt8} (h : endsRecord b = false) (bs : Bytes) :
    fieldsFrom d .record done open_ (b :: bs) = fieldsFrom d .field done open_ (b :: bs) := by
  simp only [fieldsFrom, scan, step, h, Bool.false_eq_true, if_false]

theorem fieldsFrom_byte (unquoted : place = .field ∨ place = .plain) {b : UInt8}
    (bare : (b == d || b == quote || endsRecord b) = false) (bs : Bytes) :
    fieldsFrom d place done open_ (b :: bs) = fieldsFrom d .plain done (b :: open_) bs := by
  simp only [Bool.or_eq_false_iff] at bare
  obtain ⟨⟨notSeparator, notQuote⟩, within⟩ := bare
  rcases unquoted with rfl | rfl <;>
    simp only [fieldsFrom, scan, step, notSeparator, notQuote, within, Bool.false_eq_true,
      if_false] <;>
    exact map_fields_scan d .plain _ bs

theorem fieldsFrom_plain {field : Bytes} (bare : needsQuotes d field = false) (bs : Bytes) :
    fieldsFrom d .plain done open_ (field ++ bs)
      = fieldsFrom d .plain done (field.reverse ++ open_) bs := by
  induction field generalizing open_ with
  | nil => rfl
  | cons b field ih =>
    obtain ⟨byte, rest⟩ := Bool.or_eq_false_iff.1 bare
    rw [List.cons_append, fieldsFrom_byte done open_ (.inr rfl) byte, ih _ rest, List.reverse_cons,
      List.append_assoc, List.singleton_append]

theorem fieldsFrom_quoted (field bs : Bytes) :
    fieldsFrom d .quoted done open_ (doubleQuotes field ++ quote :: bs)
      = fieldsFrom d .afterQuote done (field.reverse ++ open_) bs := by
  induction field generalizing open_ with
  | nil => exact map_fields_scan d .afterQuote _ bs
  | cons b field ih =>
    have pushed :
        fieldsFrom d .quoted done open_
          ((if b == quote then [b, b] else [b]) ++ (doubleQuotes field ++ quote :: bs))
          = fieldsFrom d .quoted done (b :: open_) (doubleQuotes field ++ quote :: bs) := by
      split
      · next same =>
        simp only [fieldsFrom, scan, step, same, List.cons_append, List.nil_append, if_true]
        exact map_fields_scan d .quoted _ _
      · next other =>
        simp only [fieldsFrom, scan, step, other, List.cons_append, List.nil_append,
          Bool.false_eq_true, if_false]
        exact map_fields_scan d .quoted _ _
    rw [doubleQuotes, List.flatMap_cons, ← doubleQuotes, List.append_assoc, pushed, ih,
      List.reverse_cons, List.append_assoc, List.singleton_append]

theorem fieldsFrom_opening (place : Place) (starts : place = .record ∨ place = .field)
    (bs : Bytes) :
    fieldsFrom d place done open_ (quote :: bs) = fieldsFrom d .quoted done open_ bs := by
  rcases starts with rfl | rfl <;> exact map_fields_scan d .quoted _ bs

/-- Behind a written field the reader has read it and stands where it can end. -/
theorem fieldsFrom_writeField (field : Bytes) :
    ∃ place : Place, place.closes ∧ ∀ bs, fieldsFrom d .field done [] (writeField d field ++ bs)
      = fieldsFrom d place done field.reverse bs := by
  rw [writeField]
  split
  · next quoted =>
    refine ⟨.afterQuote, rfl, fun bs => ?_⟩
    rw [List.cons_append, List.cons_append, fieldsFrom_opening _ _ _ (.inr rfl), List.append_assoc,
      List.singleton_append, fieldsFrom_quoted, List.append_nil]
  · next bare =>
    rw [Bool.not_eq_true] at bare
    cases field with
    | nil => exact ⟨.field, rfl, fun bs => rfl⟩
    | cons b field =>
      obtain ⟨byte, rest⟩ := Bool.or_eq_false_iff.1 bare
      refine ⟨.plain, rfl, fun bs => ?_⟩
      rw [List.cons_append, fieldsFrom_byte done [] (.inl rfl) byte, fieldsFrom_plain _ _ rest,
        List.reverse_cons]

theorem fieldsFrom_line (sep : Separates d) {fields : List Bytes} (ne : fields ≠ []) (bs : Bytes) :
    fieldsFrom d .field done [] (List.intercalate [d] (fields.map (writeField d)) ++ lineFeed :: bs)
      = (done.reverse ++ fields) :: fieldsFrom d .record [] [] bs := by
  induction fields generalizing done with
  | nil => exact absurd rfl ne
  | cons field fields ih =>
    obtain ⟨place, closes, written⟩ := fieldsFrom_writeField (d := d) done field
    cases fields with
    | nil =>
      rw [List.map_singleton, List.intercalate_singleton, written,
        fieldsFrom_lineFeed _ _ sep closes, List.reverse_reverse]
    | cons next fields =>
      rw [List.map_cons, List.map_cons, List.intercalate_cons_cons, ← List.map_cons,
        List.append_assoc, List.append_assoc, written, List.singleton_append,
        fieldsFrom_separator _ _ sep closes, ih _ (List.cons_ne_nil _ _), List.reverse_cons,
        List.append_assoc, List.reverse_reverse, List.singleton_append]

end

section

variable {d : UInt8} {b : UInt8} {bs : Bytes}

theorem within_writeField {field : Bytes} (h : writeField d field = b :: bs) :
    endsRecord b = false := by
  rw [writeField] at h
  split at h
  · cases h
    rfl
  · next bare =>
    rw [h, needsQuotes, List.any_cons] at bare
    simp only [Bool.not_eq_true, Bool.or_eq_false_iff] at bare
    exact bare.1.2

theorem eq_nil_of_writeField {field : Bytes} (h : writeField d field = []) : field = [] := by
  rw [writeField] at h
  split at h
  · cases h
  · exact h

theorem within_line (sep : Separates d) {fields : List Bytes}
    (h : List.intercalate [d] (fields.map (writeField d)) = b :: bs) : endsRecord b = false := by
  cases fields with
  | nil => cases h
  | cons field fields =>
    cases first : writeField d field with
    | cons b' bs' =>
      rw [List.map_cons, first, List.intercalate_cons_cons_left] at h
      cases h
      exact within_writeField first
    | nil =>
      cases fields with
      | nil => simp [first] at h
      | cons next fields =>
        rw [List.map_cons, List.map_cons, first, List.intercalate_cons_cons] at h
        cases h
        exact sep.within

theorem eq_of_line_eq_nil {fields : List Bytes} (ne : fields ≠ [])
    (h : List.intercalate [d] (fields.map (writeField d)) = []) : fields = [[]] := by
  match fields, ne with
  | [field], _ =>
    rw [List.map_singleton, List.intercalate_singleton] at h
    rw [eq_nil_of_writeField h]
  | field :: next :: fields, _ => simp at h

theorem write_cons (d : UInt8) (field : Bytes) (fields : List Bytes) :
    ∃ tail, write d (field :: fields) = writeField d field ++ tail ∧
      (writeField d field = [] → ∃ b tail', tail = b :: tail' ∧ (b = d ∨ b = quote)) := by
  cases fields with
  | nil =>
    rw [write, List.map_singleton, List.intercalate_singleton]
    cases writeField d field with
    | nil => exact ⟨_, rfl, fun _ => ⟨quote, _, rfl, .inr rfl⟩⟩
    | cons b bs => exact ⟨_, rfl, fun empty => nomatch empty⟩
  | cons next fields =>
    rw [write, List.map_cons, List.map_cons, List.intercalate_cons_cons, List.append_assoc]
    have nonempty : (writeField d field ++
        ([d] ++ List.intercalate [d] (writeField d next :: fields.map (writeField d)))).isEmpty
          = false := by
      simp
    rw [nonempty, if_neg Bool.false_ne_true, List.append_assoc]
    exact ⟨_, rfl, fun _ => ⟨d, _, rfl, .inl rfl⟩⟩

theorem fieldsFrom_write (sep : Separates d) {fields : List Bytes} (ne : fields ≠ []) (bs : Bytes) :
    fieldsFrom d .record [] [] (write d fields ++ bs)
      = fields :: fieldsFrom d .record [] [] bs := by
  rw [write]
  cases line : List.intercalate [d] (fields.map (writeField d)) with
  | nil =>
    -- only one empty field leaves an empty line, which is written as two quotes
    have quoted := fieldsFrom_quoted (d := d) [] [] [] (lineFeed :: bs)
    rw [eq_of_line_eq_nil ne line]
    exact (fieldsFrom_opening [] [] .record (.inl rfl) _).trans
      (quoted.trans (fieldsFrom_lineFeed [] [] sep rfl bs))
  | cons b rest =>
    rw [List.isEmpty_cons, if_neg Bool.false_ne_true, List.append_assoc, List.cons_append,
      fieldsFrom_within _ _ (within_line sep line), ← List.cons_append, ← line]
    exact fieldsFrom_line [] sep ne bs

theorem fieldsFrom_flatMap_write (sep : Separates d) {records : List (List Bytes)}
    (ne : ∀ fields ∈ records, fields ≠ []) :
    fieldsFrom d .record [] [] (records.flatMap (write d)) = records := by
  induction records with
  | nil => rfl
  | cons fields records ih =>
    obtain ⟨first, rest⟩ := List.forall_mem_cons.1 ne
    rw [List.flatMap_cons, fieldsFrom_write sep first, ih rest]

theorem map_fields_read (d : UInt8) (unmarked : ∀ rest, bs ≠ 0xef :: 0xbb :: 0xbf :: rest) :
    (read d bs).map Record.fields = fieldsFrom d .record [] [] bs := by
  rw [read]
  · exact map_fields_scan d .record _ bs
  · exact unmarked

end

end RowQuery.Records
