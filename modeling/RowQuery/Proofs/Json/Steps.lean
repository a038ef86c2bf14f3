import RowQuery.Proofs.Json.RoundTrip

/-!
How far the reader of JSON goes. What it reads is a beginning of the text that is not empty, and it
takes at most two steps for each character of it; so the number of steps that it is given never
decides what a text is read as.
-/

namespace RowQuery.Json.Reader

open Numeral (isDigit)

variable {α β : Type}

def next? (cs : List Char) : Option (Char × List Char) :=
  match skipBlanks cs with
  | [] => none
  | d :: rest => some (d, rest)

def scalar? : List Char → Option (Json × List Char)
  | 'n' :: 'u' :: 'l' :: 'l' :: cs => some (.null, cs)
  | 't' :: 'r' :: 'u' :: 'e' :: cs => some (.bool true, cs)
  | 'f' :: 'a' :: 'l' :: 's' :: 'e' :: cs => some (.bool false, cs)
  | cs => number? cs

def body? (closing : Char) (make : List α → Json)
    (read : ℕ → List Char → Option (List α × List Char)) :
    ℕ → List Char → Option (Json × List Char)
  | 0, _ => none
  | depth + 1, cs => (next? cs).bind fun (d, rest) =>
    if d = closing then some (make [], rest)
      else (read depth (d :: rest)).map fun (l, rest) => (make l, rest)

def more? (closing : Char) (a : α) (read : List Char → Option (List α × List Char))
    (cs : List Char) : Option (List α × List Char) :=
  (next? cs).bind fun (d, rest) =>
    if d = ',' then (read rest).map fun (l, rest) => (a :: l, rest)
    else if d = closing then some ([a], rest)
    else none

theorem value?_nil (fuel depth : ℕ) : value? fuel depth [] = none := by
  cases fuel <;> rfl

theorem items?_nil (fuel depth : ℕ) : items? fuel depth [] = none := by
  cases fuel with
  | zero => rfl
  | succ fuel =>
    rw [items?, value?_nil]
    rfl

theorem members?_nil (fuel depth : ℕ) : members? fuel depth [] = none := by
  cases fuel <;> rfl

theorem value?_succ (fuel depth : ℕ) (cs : List Char) :
    value? (fuel + 1) depth cs = (next? cs).bind fun (d, rest) =>
    if d = '"' then (string? rest).map fun (s, rest) => (.str (String.ofList s), rest)
    else if d = '[' then body? ']' arr (items? fuel) depth rest
    else if d = '\x7b' then body? '\x7d' obj (members? fuel) depth rest
    else scalar? (d :: rest) := by
  rw [value?, next?]
  cases skipBlanks cs with
  | nil => rfl
  | cons d rest =>
    simp only [Option.bind_some]
    split
    · next same => cases same; rfl
    · next same => cases same; rfl
    · next same => cases same; rfl
    · next same => cases same; rfl
    · next same =>
      cases same
      cases depth with
      | zero => rfl
      | succ depth =>
        simp only [body?, next?]
        cases skipBlanks rest with
        | nil => simp [items?_nil]
        | cons d rest =>
          rcases Decidable.em (d = ']') with rfl | other
          · rfl
          · simp [other]
    · next same =>
      cases same
      cases depth with
      | zero => rfl
      | succ depth =>
        simp only [body?, next?]
        cases skipBlanks rest with
        | nil => simp [members?_nil]
        | cons d rest =>
          rcases Decidable.em (d = '\x7d') with rfl | other
          · rfl
          · simp [other]
    · next null true false quote bracket brace =>
      rw [if_neg (fun same => quote rest (by rw [same])),
        if_neg (fun same => bracket rest (by rw [same])),
        if_neg (fun same => brace rest (by rw [same])), scalar?]
      · exact null
      · exact true
      · exact false

theorem items?_succ (fuel depth : ℕ) (cs : List Char) :
    items? (fuel + 1) depth cs = (value? fuel depth cs).bind fun (j, rest) =>
      more? ']' j (items? fuel depth) rest := by
  rw [items?]
  congr 1
  funext (j, rest)
  simp only [more?, next?]
  cases skipBlanks rest with
  | nil => rfl
  | cons d rest =>
    rcases Decidable.em (d = ',') with rfl | notComma
    · rfl
    · rcases Decidable.em (d = ']') with rfl | notBracket
      · rfl
      · simp [notComma, notBracket]

theorem members?_succ (fuel depth : ℕ) (cs : List Char) :
    members? (fuel + 1) depth cs = (next? cs).bind fun (d, rest) =>
    if d = '"' then (string? rest).bind fun (name, rest) => (next? rest).bind fun (d, rest) =>
      if d = ':' then (value? fuel depth rest).bind fun (j, rest) =>
        more? '\x7d' (String.ofList name, j) (members? fuel depth) rest
      else none
    else none := by
  rw [members?]
  conv => rhs; rw [next?]
  cases skipBlanks cs with
  | nil => rfl
  | cons d rest =>
    simp only [Option.bind_some]
    split
    · next same =>
      cases same
      rw [if_pos rfl]
      congr 1
      funext (name, rest)
      simp only [next?]
      cases skipBlanks rest with
      | nil => rfl
      | cons d rest =>
        simp only [Option.bind_some]
        split
        · next same =>
          cases same
          rw [if_pos rfl]
          congr 1
          funext (j, rest)
          simp only [more?, next?]
          cases skipBlanks rest with
          | nil => rfl
          | cons d rest =>
            rcases Decidable.em (d = ',') with rfl | notComma
            · rfl
            · rcases Decidable.em (d = '\x7d') with rfl | notBrace
              · rfl
              · simp [notComma, notBrace]
        · next other => rw [if_neg fun same => other rest (by rw [same])]
    · next other => rw [if_neg fun same => other rest (by rw [same])]

theorem length_next? {cs rest : List Char} {d : Char} (h : next? cs = some (d, rest)) :
    rest.length < cs.length := by
  rw [next?] at h
  split at h
  · cases h
  · next d' rest' found =>
    cases h
    have shorter := (List.dropWhile_sublist isBlank (l := cs)).length_le
    rw [← skipBlanks, found, List.length_cons] at shorter
    exact shorter

theorem length_string? {cs s rest : List Char} (h : string? cs = some (s, rest)) :
    rest.length < cs.length := by
  fun_induction string? cs generalizing s rest with
  | case1 cs =>
    cases h
    exact Nat.lt_succ_self _
  | case2 x y z w cs ih ih' =>
    obtain ⟨n, -, h⟩ := Option.bind_eq_some_iff.1 h
    simp only [List.length_cons]
    split at h
    · split at h
      · obtain ⟨m, -, h⟩ := Option.bind_eq_some_iff.1 h
        split at h
        · obtain ⟨⟨s', rest'⟩, read, h⟩ := Option.bind_eq_some_iff.1 h
          cases h
          have shorter := ih read
          simp only [List.length_cons]
          omega
        · cases h
      · cases h
    · split at h
      · cases h
      · obtain ⟨⟨s', rest'⟩, read, h⟩ := Option.bind_eq_some_iff.1 h
        cases h
        have shorter := ih' read
        omega
  | case3 e cs other ih =>
    obtain ⟨d, -, h⟩ := Option.bind_eq_some_iff.1 h
    obtain ⟨⟨s', rest'⟩, read, h⟩ := Option.bind_eq_some_iff.1 h
    cases h
    have shorter := ih read
    simp only [List.length_cons]
    omega
  | case4 => cases h
  | case5 d cs _ _ _ fine ih =>
    obtain ⟨⟨s', rest'⟩, read, h⟩ := Option.map_eq_some_iff.1 h
    cases h
    exact (ih read).trans (Nat.lt_succ_self _)
  | case6 => cases h

theorem length_dropWhile (p : Char → Bool) (cs : List Char) : (cs.dropWhile p).length ≤ cs.length :=
  (List.dropWhile_sublist p).length_le

theorem length_fraction? {cs ds rest : List Char} (h : fraction? cs = some (ds, rest)) :
    rest.length ≤ cs.length := by
  rw [fraction?.eq_def] at h
  split at h
  · next cs =>
    split at h
    · cases h
    · cases h
      exact (length_dropWhile isDigit cs).trans (Nat.le_succ _)
  · cases h
    exact Nat.le_refl _

theorem length_splitSign (cs : List Char) : (Numeral.splitSign cs).2.length ≤ cs.length := by
  fun_cases Numeral.splitSign cs with
  | case1 cs => exact Nat.le_succ _
  | case2 cs => exact Nat.le_succ _
  | case3 cs => exact Nat.le_refl _

theorem length_exponent? {cs rest : List Char} {e : ℤ} (h : exponent? cs = some (e, rest)) :
    rest.length ≤ cs.length := by
  cases cs with
  | nil =>
    cases h
    exact Nat.le_refl _
  | cons c cs =>
    rw [exponent?] at h
    split at h
    · dsimp only at h
      split at h
      · cases h
      · cases h
        have sign := length_splitSign cs
        have digits := length_dropWhile isDigit (Numeral.splitSign cs).2
        simp only [List.length_cons]
        omega
    · cases h
      exact Nat.le_refl _

theorem length_unsigned? {negative : Bool} {cs rest : List Char} {j : Json}
    (h : unsigned? negative cs = some (j, rest)) :
    rest.length < cs.length := by
  rw [unsigned?] at h
  split at h
  · cases h
  · next whole =>
    have digits : 0 < (cs.takeWhile isDigit).length := by
      refine List.length_pos_iff.2 fun none => whole ?_
      rw [none]
      rfl
    have shorter : (cs.dropWhile isDigit).length < cs.length := by
      have split := congrArg List.length (List.takeWhile_append_dropWhile (p := isDigit) (l := cs))
      rw [List.length_append] at split
      omega
    split at h
    · obtain ⟨j', -, h⟩ := Option.map_eq_some_iff.1 h
      cases h
      exact shorter
    · obtain ⟨⟨ds, cs'⟩, fraction, h⟩ := Option.bind_eq_some_iff.1 h
      obtain ⟨⟨e, cs''⟩, exponent, h⟩ := Option.bind_eq_some_iff.1 h
      obtain ⟨j', -, h⟩ := Option.bind_eq_some_iff.1 h
      cases h
      exact ((length_exponent? exponent).trans (length_fraction? fraction)).trans_lt shorter

theorem length_scalar? {cs rest : List Char} {j : Json} (h : scalar? cs = some (j, rest)) :
    rest.length < cs.length := by
  rw [scalar?.eq_def] at h
  split at h
  · cases h
    simp only [List.length_cons]
    omega
  · cases h
    simp only [List.length_cons]
    omega
  · cases h
    simp only [List.length_cons]
    omega
  · rcases Decidable.em (cs.head? = some '-') with minus | plain
    · obtain ⟨cs', rfl⟩ := List.head?_eq_some_iff.1 minus
      have shorter : rest.length < cs'.length := length_unsigned? h
      exact shorter.trans (Nat.lt_succ_self _)
    · have unsigned := number?_sign false plain
      exact length_unsigned? (unsigned.symm.trans h)

/-- Something is read only from a text that begins with it, and with two steps for each of its
characters it is read again. -/
def Brief (read : ℕ → List Char → Option (α × List Char)) (fuel : ℕ) : Prop :=
  ∀ {cs a rest}, read fuel cs = some (a, rest) → rest.length < cs.length ∧
    ∀ fuel', 2 * (cs.length - rest.length) ≤ fuel' → read fuel' cs = some (a, rest)

theorem Brief.body? {read : ℕ → ℕ → List Char → Option (List α × List Char)} {fuel : ℕ}
    (brief : ∀ depth, Brief (read · depth) fuel) (closing : Char)
    (make : List α → Json) (depth : ℕ) :
    Brief (fun fuel => body? closing make (read fuel) depth) fuel := by
  intro cs j rest h
  cases depth with
  | zero => cases h
  | succ depth =>
    simp only [Reader.body?] at h ⊢
    obtain ⟨⟨d, rest'⟩, next, h⟩ := Option.bind_eq_some_iff.1 h
    have shorter := length_next? next
    simp only [next, Option.bind_some]
    dsimp only at h
    split at h
    · next closes =>
      cases h
      exact ⟨shorter, fun _ _ => if_pos closes⟩
    · next opens =>
      obtain ⟨⟨l, rest''⟩, inside, same⟩ := Option.map_eq_some_iff.1 h
      cases same
      obtain ⟨shorter', again⟩ := brief depth inside
      simp only [List.length_cons] at shorter' again ⊢
      refine ⟨by omega, fun fuel' enough => ?_⟩
      rw [if_neg opens, again fuel' (by omega)]
      rfl

theorem Brief.more? {read : ℕ → List Char → Option (List α × List Char)} {fuel : ℕ}
    (brief : Brief read fuel) (closing : Char) (a : α) :
    Brief (fun fuel => more? closing a (read fuel)) fuel := by
  intro cs l rest h
  simp only [Reader.more?] at h ⊢
  obtain ⟨⟨d, rest'⟩, next, h⟩ := Option.bind_eq_some_iff.1 h
  have shorter := length_next? next
  simp only [next, Option.bind_some]
  dsimp only at h
  split at h
  · next comma =>
    obtain ⟨⟨l', rest''⟩, following, same⟩ := Option.map_eq_some_iff.1 h
    cases same
    obtain ⟨shorter', again⟩ := brief following
    dsimp only
    refine ⟨by omega, fun fuel' enough => ?_⟩
    rw [if_pos comma, again fuel' (by omega)]
    rfl
  · next other =>
    split at h
    · next closes =>
      cases h
      exact ⟨shorter, fun _ _ => by rw [if_neg other, if_pos closes]⟩
    · cases h

theorem brief_value? {fuel : ℕ} (items : ∀ depth, Brief (items? · depth) fuel)
    (members : ∀ depth, Brief (members? · depth) fuel) (depth : ℕ) :
    Brief (value? · depth) (fuel + 1) := by
  intro cs j rest h
  simp only [value?_succ] at h
  obtain ⟨⟨d, rest'⟩, next, h⟩ := Option.bind_eq_some_iff.1 h
  have shorter := length_next? next
  -- it is enough to look at what follows the next character
  suffices rest.length ≤ rest'.length ∧ ∀ fuel', 2 * (rest'.length - rest.length) ≤ fuel' →
      value? (fuel' + 1) depth cs = some (j, rest) by
    refine ⟨by omega, fun fuel' enough => ?_⟩
    obtain ⟨fuel', rfl⟩ : ∃ n, fuel' = n + 1 := ⟨fuel' - 1, by omega⟩
    exact this.2 fuel' (by omega)
  simp only [value?_succ, next, Option.bind_some]
  dsimp only at h
  split at h
  · next quote =>
    obtain ⟨⟨s, rest''⟩, read, same⟩ := Option.map_eq_some_iff.1 h
    cases same
    exact ⟨(length_string? read).le, fun _ _ => by rw [if_pos quote, h]⟩
  · next notQuote =>
    split at h
    · next bracket =>
      obtain ⟨shorter', again⟩ := Brief.body? items ']' arr depth h
      exact ⟨shorter'.le,
        fun fuel' enough => by rw [if_neg notQuote, if_pos bracket]; exact again fuel' enough⟩
    · next notBracket =>
      split at h
      · next brace =>
        obtain ⟨shorter', again⟩ := Brief.body? members '\x7d' obj depth h
        refine ⟨shorter'.le, fun fuel' enough => ?_⟩
        rw [if_neg notQuote, if_neg notBracket, if_pos brace]
        exact again fuel' enough
      · next notBrace =>
        refine ⟨Nat.le_of_lt_succ (length_scalar? h), fun _ _ => ?_⟩
        rw [if_neg notQuote, if_neg notBracket, if_neg notBrace, h]

theorem brief_items? {fuel depth : ℕ} (value : Brief (value? · depth) fuel)
    (items : Brief (items? · depth) fuel) : Brief (items? · depth) (fuel + 1) := by
  intro cs l rest h
  simp only [items?_succ] at h
  obtain ⟨⟨j, rest'⟩, first, h⟩ := Option.bind_eq_some_iff.1 h
  obtain ⟨shorter, again⟩ := value first
  obtain ⟨shorter', again'⟩ := items.more? ']' j h
  dsimp only at shorter' again again' ⊢
  refine ⟨by omega, fun fuel' enough => ?_⟩
  obtain ⟨fuel', rfl⟩ : ∃ n, fuel' = n + 1 := ⟨fuel' - 1, by omega⟩
  rw [items?_succ, again fuel' (by omega), Option.bind_some]
  exact again' fuel' (by omega)

theorem brief_members? {fuel depth : ℕ} (value : Brief (value? · depth) fuel)
    (members : Brief (members? · depth) fuel) : Brief (members? · depth) (fuel + 1) := by
  intro cs l rest h
  simp only [members?_succ] at h
  obtain ⟨⟨quote, cs₁⟩, first, h⟩ := Option.bind_eq_some_iff.1 h
  dsimp only at h
  split at h
  · next opens =>
    obtain ⟨⟨name, cs₂⟩, named, h⟩ := Option.bind_eq_some_iff.1 h
    obtain ⟨⟨colon, cs₃⟩, second, h⟩ := Option.bind_eq_some_iff.1 h
    dsimp only at h
    split at h
    · next separates =>
      obtain ⟨⟨j, cs₄⟩, read, h⟩ := Option.bind_eq_some_iff.1 h
      obtain ⟨shorter, again⟩ := value read
      obtain ⟨shorter', again'⟩ := members.more? '\x7d' (String.ofList name, j) h
      dsimp only at shorter shorter' again again' ⊢
      have shorter₁ := length_next? first
      have shorter₂ := length_string? named
      have shorter₃ : cs₃.length < cs₂.length := length_next? second
      refine ⟨by omega, fun fuel' enough => ?_⟩
      obtain ⟨fuel', rfl⟩ : ∃ n, fuel' = n + 1 := ⟨fuel' - 1, by omega⟩
      simp only [members?_succ, first, Option.bind_some, if_pos opens, named, second,
        if_pos separates, again fuel' (by omega)]
      exact again' fuel' (by omega)
    · cases h
  · cases h

theorem brief (fuel depth : ℕ) :
    Brief (value? · depth) fuel ∧ Brief (items? · depth) fuel ∧ Brief (members? · depth) fuel := by
  induction fuel generalizing depth with
  | zero => refine ⟨?_, ?_, ?_⟩ <;> exact fun h => nomatch h
  | succ fuel ih =>
    obtain ⟨value, items, members⟩ := ih depth
    exact ⟨brief_value? (fun depth => (ih depth).2.1) (fun depth => (ih depth).2.2) depth,
      brief_items? value items,
      brief_members? value members⟩

/-- What a text is read as does not depend on a number of steps. -/
theorem read?_eq_some {depth : ℕ} {cs : List Char} {j : Json} :
    read? depth cs = some j ↔
      ∃ steps rest, value? steps depth cs = some (j, rest) ∧ skipBlanks rest = [] := by
  rw [read?, Option.bind_eq_bind, Option.bind_eq_some_iff]
  constructor
  · rintro ⟨⟨j', rest⟩, read, h⟩
    dsimp only at h
    split at h
    · next whole =>
      cases h
      exact ⟨fuel cs, rest, read, List.isEmpty_iff.1 whole⟩
    · cases h
  · rintro ⟨steps, rest, read, whole⟩
    obtain ⟨-, again⟩ := (brief steps depth).1 read
    refine ⟨(j, rest), again (fuel cs) (by rw [fuel]; omega), ?_⟩
    simp [whole]

end RowQuery.Json.Reader
