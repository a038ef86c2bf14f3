import RowQuery.Proofs.Codec.Jsonl
import RowQuery.Proofs.Json.Blanks
import RowQuery.Proofs.Outcome
import RowQuery.Proofs.Splits

/-!
Lines of JSON behind one another. Two inputs with a line feed between them are decoded exactly when
both are, and to the rows of both: the line feed makes a blank line after an input that ends in one,
and a carriage return that it takes away from the end of a line is a blank for the reader.
-/

namespace RowQuery

theorem Json.parse?_push {c : Char} (blank : Reader.isBlank c = true) (s : String) :
    parse? (s.push c) = parse? s := by
  rw [parse?, parse?, String.toList_push, Reader.read?_append_blank blank]

namespace Jsonl

theorem pieces_ne_nil {bs : Bytes} (ne : bs ≠ []) : pieces bs ≠ [] := by
  cases bs with
  | nil => exact absurd rfl ne
  | cons b bs =>
    rw [pieces]
    split
    · exact List.cons_ne_nil _ _
    · split <;> exact List.cons_ne_nil _ _

theorem pieces_append (a b : Bytes) : pieces (a ++ 10 :: b) = pieces (a ++ [10]) ++ pieces b := by
  induction a with
  | nil => rfl
  | cons x a ih =>
    rw [List.cons_append, List.cons_append, pieces, pieces, ih]
    split
    · rfl
    · cases h : pieces (a ++ [10]) with
      | nil => exact absurd h (pieces_ne_nil (by simp))
      | cons piece rest => rfl

theorem lines_append (a b : Bytes) : lines (a ++ 10 :: b) = lines (a ++ [10]) ++ lines b := by
  rw [lines, pieces_append, List.map_append]
  rfl

theorem pieces_unbroken {line : Bytes} (unbroken : 10 ∉ line) (ne : line ≠ []) :
    pieces line = [line] := by
  induction line with
  | nil => exact absurd rfl ne
  | cons b line ih =>
    have notFeed : ¬ b = 10 := fun feed => unbroken (feed ▸ List.mem_cons_self)
    rw [pieces, if_neg notFeed]
    cases line with
    | nil => rfl
    | cons b' line => rw [ih (List.not_mem_of_not_mem_cons unbroken) (List.cons_ne_nil _ _)]

theorem withoutEnd_unbroken {line : Bytes} (unbroken : 10 ∉ line) : withoutEnd line = line := by
  rw [withoutEnd]
  split
  · next same => exact absurd (List.mem_reverse.1 (same ▸ List.mem_cons_self)) unbroken
  · next same => exact absurd (List.mem_reverse.1 (same ▸ List.mem_cons_self)) unbroken
  · rfl

theorem withoutEnd_return (line : Bytes) : withoutEnd (line ++ [13] ++ [10]) = line := by
  simp [withoutEnd]

theorem withoutEnd_plain {b : UInt8} (plain : b ≠ 13) (line : Bytes) :
    withoutEnd (line ++ [b] ++ [10]) = line ++ [b] := by
  simp [withoutEnd, plain]

theorem toOption_decodeLine (number number' : ℕ) (line : Bytes) :
    (decodeLine number line).toOption = (decodeLine number' line).toOption := by
  rw [decodeLine, decodeLine]
  split
  · rfl
  · split
    · rfl
    · split <;> rfl

theorem decodeLine_nil (number : ℕ) : decodeLine number [] = .ok none := by
  have empty : Bytes.text? [] = some "" := Bytes.text?_ofText ""
  rw [decodeLine, empty]
  rfl

theorem decodeLine_return (number : ℕ) (line : Bytes) :
    decodeLine number (line ++ [13]) = decodeLine number line := by
  have ends : (line ++ [13]).text? = line.text?.map (·.push '\r') :=
    Bytes.text?_append_ascii rfl (by decide) line
  rw [decodeLine, decodeLine, ends]
  cases line.text? with
  | none => rfl
  | some s =>
    have blank : (s.push '\r').toList.all Text.isBlank = s.toList.all Text.isBlank := by
      rw [String.toList_push, List.all_append]
      exact Bool.and_true _
    rw [Option.map_some]
    simp only [blank, Json.parse?_push (c := '\r') rfl]

theorem toOption_decodeLines (number number' : ℕ) (ls : List Bytes) :
    (decodeLines number ls).toOption = (decodeLines number' ls).toOption := by
  induction ls generalizing number number' with
  | nil => rfl
  | cons line ls ih =>
    simp only [decodeLines, toOption_bind, toOption_decodeLine number number' line,
      ih (number + 1) (number' + 1)]

theorem toOption_decodeLines_append (number : ℕ) (ls ls' : List Bytes) :
    (decodeLines number (ls ++ ls')).toOption
      = (decodeLines number ls).toOption.bind
        fun rows => (decodeLines number ls').toOption.map (rows ++ ·) := by
  induction ls generalizing number with
  | nil => cases h : (decodeLines number ls').toOption <;> simp [decodeLines, h]
  | cons line ls ih =>
    simp only [List.cons_append, decodeLines, toOption_bind, ih,
      toOption_decodeLines (number + 1) number ls']
    cases (decodeLine number line).toOption with
    | none => rfl
    | some row =>
      cases (decodeLines (number + 1) ls).toOption with
      | none => rfl
      | some rows => cases (decodeLines number ls').toOption <;> simp

theorem decodeLines_unbroken {line : Bytes} (unbroken : 10 ∉ line) (number : ℕ) :
    decodeLines number (lines (line ++ [10])) = decodeLines number (lines line) := by
  have alone : lines (line ++ [10]) = [withoutEnd (line ++ [10])] := by
    rw [lines, pieces_line unbroken]
    rfl
  rw [alone]
  rcases List.eq_nil_or_concat line with rfl | ⟨front, b, rfl⟩
  · exact congrArg (· >>= fun row => pure (row.toList ++ [])) (decodeLine_nil number)
  · rw [List.concat_eq_append] at unbroken ⊢
    rw [lines, pieces_unbroken unbroken (by simp), List.map_singleton, withoutEnd_unbroken unbroken]
    rcases Decidable.em (b = 13) with rfl | plain
    · rw [withoutEnd_return, decodeLines, decodeLines.eq_2 number (front ++ [13]),
        decodeLine_return]
    · rw [withoutEnd_plain plain]

theorem toOption_decodeLines_feed (number : ℕ) (a : Bytes) :
    (decodeLines number (lines (a ++ [10]))).toOption
      = (decodeLines number (lines a)).toOption := by
  rcases Decidable.em (10 ∈ a) with broken | unbroken
  · obtain ⟨before, b, after, rfl, rfl, last⟩ :=
      exists_last (P := (· = (10 : UInt8))) ⟨10, broken, rfl⟩
    have unbroken : 10 ∉ after := fun feed => last 10 feed rfl
    rw [List.append_assoc, List.cons_append, lines_append before (after ++ [10]),
      lines_append before after, toOption_decodeLines_append, toOption_decodeLines_append,
      decodeLines_unbroken unbroken]
  · rw [decodeLines_unbroken unbroken]

/-- Two inputs with a line feed between them are decoded exactly when both are, to the rows of both
in this order. -/
theorem decode_append (a b : Bytes) (rows : List Row) :
    Decoder.jsonl.decode (a ++ 10 :: b) = .ok rows ↔
    ∃ first rest, Decoder.jsonl.decode a = .ok first ∧ Decoder.jsonl.decode b = .ok rest ∧
      rows = first ++ rest := by
  have whole : (Decoder.jsonl.decode (a ++ 10 :: b)).toOption
      = (Decoder.jsonl.decode a).toOption.bind
        fun first => (Decoder.jsonl.decode b).toOption.map (first ++ ·) := by
    simp only [Decoder.decode, decode]
    rw [lines_append, toOption_decodeLines_append, toOption_decodeLines_feed]
  rw [← toOption_eq_some, whole, Option.bind_eq_some_iff]
  constructor
  · rintro ⟨first, decoded, h⟩
    obtain ⟨rest, decoded', same⟩ := Option.map_eq_some_iff.1 h
    exact ⟨first, rest, toOption_eq_some.1 decoded, toOption_eq_some.1 decoded', same.symm⟩
  · rintro ⟨first, rest, decoded, decoded', rfl⟩
    exact ⟨first, toOption_eq_some.2 decoded, by rw [decoded']; rfl⟩

end Jsonl

end RowQuery
