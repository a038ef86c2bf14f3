import RowQuery.Json.Basic
import RowQuery.Proofs.Number.Digits

/-!
The compact text of a JSON tree stands on one line: it holds no control character.
-/

namespace RowQuery

def HoldsNoControl (cs : List Char) : Prop := ∀ c ∈ cs, 0x20 ≤ c.toNat

namespace HoldsNoControl

@[simp] theorem nil : HoldsNoControl [] := List.forall_mem_nil _

@[simp] theorem cons {c : Char} {cs : List Char} :
    HoldsNoControl (c :: cs) ↔ 0x20 ≤ c.toNat ∧ HoldsNoControl cs :=
  List.forall_mem_cons

@[simp] theorem append {cs ds : List Char} :
    HoldsNoControl (cs ++ ds) ↔ HoldsNoControl cs ∧ HoldsNoControl ds :=
  List.forall_mem_append

theorem digitsOf (n : Nat) : HoldsNoControl (digitsOf n) := by
  intro c hc
  have digit : Numeral.isDigit c = true := isDigit_of_mem_digitsOf hc
  rw [Numeral.isDigit, Bool.and_eq_true, decide_eq_true_eq] at digit
  exact Nat.le_trans (by decide : 0x20 ≤ '0'.toNat) digit.1

theorem replicate_zero (n : Nat) : HoldsNoControl (List.replicate n '0') := by
  intro c hc
  rw [List.eq_of_mem_replicate hc]
  decide

theorem intText (i : Int) : HoldsNoControl (intText i) := by
  rw [RowQuery.intText]
  split
  · exact cons.2 ⟨by decide, digitsOf _⟩
  · exact digitsOf _

theorem positional {ds : List Char} (h : HoldsNoControl ds) (point : Int) :
    HoldsNoControl (Decimal.positional ds point) := by
  rw [Decimal.positional]
  split
  · simp [replicate_zero, h]
  · split
    · simp only [append, cons]
      exact ⟨fun c hc => h c (List.mem_of_mem_take hc), by decide,
        fun c hc => h c (List.mem_of_mem_drop hc)⟩
    · exact append.2 ⟨h, replicate_zero _⟩

theorem scientific {ds : List Char} (h : HoldsNoControl ds) (point : Int) :
    HoldsNoControl (Decimal.scientific ds point) := by
  have exponent : HoldsNoControl
      ('e' :: (if point - 1 < 0 then '-' else '+') :: RowQuery.digitsOf (point - 1).natAbs) := by
    refine cons.2 ⟨by decide, cons.2 ⟨?_, digitsOf _⟩⟩
    split <;> decide
  match ds with
  | [] => exact exponent
  | [d] => exact append.2 ⟨h, exponent⟩
  | d :: x :: ds =>
    obtain ⟨first, rest⟩ := cons.1 h
    exact append.2 ⟨cons.2 ⟨first, cons.2 ⟨by decide, rest⟩⟩, exponent⟩

theorem json (d : Decimal) : HoldsNoControl d.json := by
  have digits := digitsOf d.digits
  rw [Decimal.json, Decimal.pointed]
  dsimp only
  split
  · simp
  · split
    · exact scientific digits _
    · split
      · exact positional digits _
      · exact append.2 ⟨positional digits _, by simp⟩

theorem json? (x : Binary64) : HoldsNoControl (x.json?.getD "null".toList) := by
  rw [Binary64.json?]
  split
  · rw [Option.getD_some, Binary64.signed]
    split
    · exact cons.2 ⟨by decide, json _⟩
    · exact json _
  · simp

theorem digitChar {n : Nat} (h : n < 16) : 0x20 ≤ (Nat.digitChar n).toNat := by
  have all : ∀ n : Fin 16, 0x20 ≤ (Nat.digitChar n).toNat := by decide
  exact all ⟨n, h⟩

theorem escape (c : Char) : HoldsNoControl (Json.escape c) := by
  rw [Json.escape]
  repeat' split
  all_goals simp
  · exact ⟨digitChar (by omega), digitChar (by omega)⟩
  · omega

theorem quoted (s : String) : HoldsNoControl (Json.quoted s) := by
  refine cons.2 ⟨by decide, append.2 ⟨fun c hc => ?_, by simp⟩⟩
  obtain ⟨d, _, hd⟩ := List.mem_flatMap.1 hc
  exact escape d c hd

end HoldsNoControl

namespace Json

mutual

theorem holdsNoControl_text (j : Json) : HoldsNoControl j.text := by
  match j with
  | null => simp [text]
  | bool b => cases b <;> simp [text]
  | int i => exact .intText i
  | float x => exact .json? x
  | str s => exact .quoted s
  | arr items =>
    rw [text]
    exact HoldsNoControl.cons.2 ⟨by decide, holdsNoControl_itemsText items⟩
  | obj members =>
    rw [text]
    exact HoldsNoControl.cons.2 ⟨by decide, holdsNoControl_membersText members⟩

theorem holdsNoControl_itemsText (items : List Json) : HoldsNoControl (itemsText items) := by
  match items with
  | [] => simp [itemsText]
  | [j] =>
    rw [itemsText]
    exact HoldsNoControl.append.2 ⟨holdsNoControl_text j, by simp⟩
  | j :: k :: rest =>
    have texts := holdsNoControl_itemsText (k :: rest)
    simp [itemsText, holdsNoControl_text j, texts]

theorem holdsNoControl_membersText (members : List (String × Json)) :
    HoldsNoControl (membersText members) := by
  match members with
  | [] => simp [membersText]
  | [(name, j)] => simp [membersText, HoldsNoControl.quoted, holdsNoControl_text j]
  | (name, j) :: member :: rest =>
    have texts := holdsNoControl_membersText (member :: rest)
    simp [membersText, HoldsNoControl.quoted, holdsNoControl_text j, texts]

end

end Json

end RowQuery
