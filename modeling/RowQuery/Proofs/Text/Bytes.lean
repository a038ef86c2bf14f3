import RowQuery.Text.Bytes

/-!
The bytes of a text in UTF-8: they are read as the text, and those below 128 are its ASCII
characters.
-/

namespace RowQuery.Bytes

theorem text?_ofText (s : String) : text? (ofText s) = some s := by
  have bytes : (⟨(ofText s).toArray⟩ : ByteArray) = s.toByteArray := by
    rw [ofText, Array.toArray_toList]
    rfl
  rw [text?, bytes, String.fromUTF8?, dif_pos s.isValidUTF8]
  rfl

theorem text?_eq_some {bs : Bytes} {s : String} : text? bs = some s ↔ bs = ofText s := by
  constructor
  · intro h
    rw [text?, String.fromUTF8?] at h
    split at h
    · cases h
      rfl
    · cases h
  · rintro rfl
    exact text?_ofText s

theorem ofText_eq (s : String) : ofText s = s.toList.flatMap String.utf8EncodeChar := by
  change s.toByteArray.data.toList = _
  rw [← String.utf8Encode_toList, List.utf8Encode, List.toList_data_toByteArray]

theorem toNat_of_mem_utf8EncodeChar {c : Char} {b : UInt8} (h : b ∈ String.utf8EncodeChar c)
    (ascii : b.toNat < 128) : c.toNat = b.toNat := by
  rw [String.utf8EncodeChar] at h
  change c.val.toNat = _
  split at h
  · next small =>
    rw [List.mem_singleton.1 h, UInt8.toNat_ofNat', Nat.mod_eq_of_lt (by omega)]
  · split at h
    · simp only [List.mem_cons, List.not_mem_nil, or_false] at h
      rcases h with rfl | rfl <;> rw [UInt8.toNat_ofNat'] at ascii <;> omega
    · split at h
      · simp only [List.mem_cons, List.not_mem_nil, or_false] at h
        rcases h with rfl | rfl | rfl <;> rw [UInt8.toNat_ofNat'] at ascii <;> omega
      · simp only [List.mem_cons, List.not_mem_nil, or_false] at h
        rcases h with rfl | rfl | rfl | rfl <;> rw [UInt8.toNat_ofNat'] at ascii <;> omega

theorem exists_of_mem_ofText {s : String} {b : UInt8} (h : b ∈ ofText s) (ascii : b.toNat < 128) :
    ∃ c ∈ s.toList, c.toNat = b.toNat := by
  rw [ofText_eq, List.mem_flatMap] at h
  obtain ⟨c, hc, hb⟩ := h
  exact ⟨c, hc, toNat_of_mem_utf8EncodeChar hb ascii⟩

theorem ofText_push (s : String) (c : Char) :
    ofText (s.push c) = ofText s ++ String.utf8EncodeChar c := by
  rw [ofText_eq, ofText_eq, String.toList_push, List.flatMap_append, List.flatMap_singleton]

theorem utf8EncodeChar_ne_nil (c : Char) : String.utf8EncodeChar c ≠ [] := by
  rw [String.utf8EncodeChar]
  repeat' split
  all_goals exact List.cons_ne_nil _ _

/-- A byte below 128 behind some bytes is a character of its own. -/
theorem text?_append_ascii {c : Char} {b : UInt8} (alone : String.utf8EncodeChar c = [b])
    (ascii : b.toNat < 128) (bs : Bytes) : text? (bs ++ [b]) = (text? bs).map (·.push c) := by
  apply Option.ext
  intro t
  rw [text?_eq_some, Option.map_eq_some_iff]
  constructor
  · intro whole
    rcases List.eq_nil_or_concat t.toList with none | ⟨front, d, split⟩
    · rw [ofText_eq, none] at whole
      exact absurd whole (by simp)
    · have pushed : t = (String.ofList front).push d := by
        rw [← String.toList_inj, String.toList_push, String.toList_ofList, split,
          List.concat_eq_append]
      rw [pushed, ofText_push] at whole
      -- the last byte belongs to the last character, and no other character has such a byte
      obtain ⟨bytes, last, ends⟩ := (List.eq_nil_or_concat _).resolve_left (utf8EncodeChar_ne_nil d)
      have inside : b ∈ String.utf8EncodeChar d := by
        have whole' := whole
        rw [ends, List.concat_eq_append, ← List.append_assoc] at whole'
        rw [ends, List.singleton_inj.1 (List.append_inj_right' whole' rfl)]
        simp
      have same : d = c := by
        apply Char.toNat_inj.1
        rw [toNat_of_mem_utf8EncodeChar inside ascii,
          toNat_of_mem_utf8EncodeChar (c := c) (alone ▸ List.mem_singleton_self b) ascii]
      rw [same, alone] at whole
      exact ⟨String.ofList front,
        text?_eq_some.2 (List.append_cancel_right whole), by rw [pushed, same]⟩
  · rintro ⟨s, read, rfl⟩
    rw [text?_eq_some.1 read, ofText_push, alone]

theorem ofText_injective {s t : String} (h : ofText s = ofText t) : s = t :=
  Option.some.inj (by rw [← text?_ofText s, h, text?_ofText])

theorem toNat_lt_of_mem_utf8EncodeChar {c : Char} {b : UInt8} (h : b ∈ String.utf8EncodeChar c) :
    b.toNat < 248 := by
  rw [String.utf8EncodeChar] at h
  repeat' split at h
  all_goals
    simp only [List.mem_cons, List.not_mem_nil, or_false, ← UInt8.toNat_inj,
      UInt8.toNat_ofNat'] at h
    omega

theorem notMem_ofText (s : String) : (0xff : UInt8) ∉ ofText s := by
  rw [ofText_eq, List.mem_flatMap]
  rintro ⟨c, -, h⟩
  exact absurd (toNat_lt_of_mem_utf8EncodeChar h) (by decide)

theorem append_cons_inj {mark : UInt8} {s t r r' : Bytes} (hs : mark ∉ s) (ht : mark ∉ t)
    (h : s ++ mark :: r = t ++ mark :: r') : s = t ∧ r = r' := by
  induction s generalizing t with
  | nil =>
    cases t with
    | nil => exact ⟨rfl, (List.cons.inj h).2⟩
    | cons b t => exact absurd ((List.cons.inj h).1 ▸ List.mem_cons_self) ht
  | cons b s ih =>
    cases t with
    | nil => exact absurd ((List.cons.inj h).1 ▸ List.mem_cons_self) hs
    | cons b' t =>
      obtain ⟨rfl, rest⟩ := List.cons.inj h
      obtain ⟨rfl, rfl⟩ :=
        ih (List.not_mem_of_not_mem_cons hs) (List.not_mem_of_not_mem_cons ht) rest
      exact ⟨rfl, rfl⟩

theorem eq_of_mark {c : Char} {more rest : Bytes}
    (h : String.utf8EncodeChar c ++ more = 0xef :: 0xbb :: 0xbf :: rest) :
    c = '\ufeff' := by
  have mark : 0xef :: 0xbb :: 0xbf :: rest = String.utf8EncodeChar '\ufeff' ++ rest := rfl
  have decoded := congrArg (fun bs : Bytes => bs.toByteArray.utf8DecodeChar? 0) (h.trans mark)
  simpa [List.toByteArray_append, ByteArray.utf8DecodeChar?_utf8EncodeChar_append] using decoded

end RowQuery.Bytes
