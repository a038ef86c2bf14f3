import RowQuery.Proofs.Number.Digits
import RowQuery.Proofs.Value.Tagged

/-!
Values whose text in a cell stands for the value itself: integers always do, and texts that spell
nothing else.
-/

namespace RowQuery

open Numeral (isDigit)

namespace Numeral

theorem natural?_digitsOf (n : ℕ) : natural? (digitsOf n) = some n := by
  have nonempty : (digitsOf n).isEmpty = false := List.isEmpty_eq_false_iff.2 (digitsOf_ne_nil n)
  have digits : (digitsOf n).all isDigit = true :=
    List.all_eq_true.2 fun _ => isDigit_of_mem_digitsOf
  rw [natural?, nonempty, digits, digitsValue_digitsOf]
  rfl

theorem splitSign_digitsOf (n : ℕ) : splitSign (digitsOf n) = (false, digitsOf n) := by
  rw [splitSign]
  · rintro cs same
    have digit : isDigit '-' = true := isDigit_of_mem_digitsOf (same ▸ List.mem_cons_self)
    cases digit
  · rintro cs same
    have digit : isDigit '+' = true := isDigit_of_mem_digitsOf (same ▸ List.mem_cons_self)
    cases digit

theorem integer?_intText (i : ℤ) : integer? (intText i) = some i := by
  rw [intText]
  split
  · next negative =>
    rw [integer?, splitSign]
    simp only [natural?_digitsOf, if_true]
    change some (-(i.natAbs : ℤ)) = some i
    rw [Int.ofNat_natAbs_of_nonpos negative.le, Int.neg_neg]
  · next positive =>
    rw [integer?, splitSign_digitsOf]
    simp only [natural?_digitsOf, Bool.false_eq_true, if_false]
    change some (i.natAbs : ℤ) = some i
    rw [Int.natAbs_of_nonneg (Int.not_lt.1 positive)]

theorem int64?_intText (i : Int64) : int64? (intText i.toInt) = some i := by
  rw [int64?, integer?_intText]
  exact Value.int64?_toInt i

end Numeral

theorem le_nine_of_mem_intText {i : ℤ} {c : Char} (h : c ∈ intText i) : c ≤ '9' := by
  have digits (h : c ∈ digitsOf i.natAbs) : c ≤ '9' := by
    have digit := isDigit_of_mem_digitsOf h
    rw [isDigit, Bool.and_eq_true, decide_eq_true_eq, decide_eq_true_eq] at digit
    exact digit.2
  rw [intText] at h
  split at h
  · rcases List.mem_cons.1 h with rfl | h
    · decide
    · exact digits h
  · exact digits h

theorem toLower_intText_ne (i : ℤ) {word : String} (letter : 'e' ∈ word.toList) :
    (String.ofList (intText i)).toLower ≠ word := by
  rintro rfl
  change 'e' ∈ ((String.ofList (intText i)).map Char.toLower).toList at letter
  rw [String.toList_map, String.toList_ofList, List.mem_map] at letter
  obtain ⟨c, hc, same⟩ := letter
  have low : c ≤ '9' := le_nine_of_mem_intText hc
  have kept : c.toLower = c := dif_neg fun upper => absurd (UInt32.le_trans upper.1 low) (by decide)
  rw [kept] at same
  subst same
  exact absurd low (by decide)

namespace Value

theorem ofCell_display_int (i : Int64) : ofCell (int i).display = int i := by
  have nonempty : (String.ofList (intText i.toInt)).isEmpty = false := by
    rw [String.isEmpty_eq_false_iff]
    intro empty
    have read := Numeral.int64?_intText i
    rw [← @String.toList_ofList (intText i.toInt), empty] at read
    cases read
  rw [ofCell, display, nonempty, if_neg Bool.false_ne_true,
    if_neg (toLower_intText_ne _ (by decide)), if_neg (toLower_intText_ne _ (by decide)),
    String.toList_ofList, Numeral.int64?_intText]

theorem ofCell_display_bool (b : Bool) : ofCell (bool b).display = bool b := by
  cases b <;> decide +kernel

theorem ofCell_eq_text {s : String} : ofCell s = text s ↔
    s ≠ "" ∧ s.toLower ≠ "true" ∧ s.toLower ≠ "false" ∧ Numeral.int64? s.toList = none ∧
      Numeral.binary64? s.toList = none := by
  simp only [ofCell, String.isEmpty_iff]
  split
  · next empty => simp [empty]
  · split
    · next yes => simp [yes]
    · split
      · next no => simp [no]
      · next nonempty notTrue notFalse =>
        split <;> simp_all

end Value

end RowQuery
