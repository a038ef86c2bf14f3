import RowQuery.Proofs.Json.Steps

/-!
Blanks behind a JSON text. The reader takes at most two steps for each character that it reads, so
the number of steps it is given never matters; and a blank character at the end of a text is left
over, whatever is read before it.
-/

namespace RowQuery.Json.Reader

variable {α β : Type} {c : Char}

theorem blank_cases (blank : isBlank c = true) : c = ' ' ∨ c = '\n' ∨ c = '\r' ∨ c = '\t' := by
  simpa [isBlank, or_assoc] using blank

theorem ends_blank (blank : isBlank c = true) : Ends [c] := by
  rintro _ ⟨⟩
  rcases blank_cases blank with rfl | rfl | rfl | rfl <;> decide

theorem hex4?_blank (blank : isBlank c = true) (x y z : Char) : hex4? x y z c = none := by
  have noDigit : Bytes.hexValue? c = none := by
    rcases blank_cases blank with rfl | rfl | rfl | rfl <;> rfl
  simp [hex4?, noDigit]

theorem word_append (word : List Char) {cs rest : List Char} (h : cs ++ [c] = word ++ rest) :
    (rest = [] ∧ cs = word.dropLast ∧ word.getLast? = some c) ∨
    ∃ rest', cs = word ++ rest' ∧ rest = rest' ++ [c] := by
  rcases List.eq_nil_or_concat rest with rfl | ⟨rest', last, rfl⟩
  · obtain rfl : cs ++ [c] = word := h.trans (List.append_nil _)
    exact .inl ⟨rfl, by simp, by simp⟩
  · rw [List.concat_eq_append, ← List.append_assoc] at h
    obtain ⟨front, last⟩ := List.append_inj' h rfl
    exact .inr ⟨rest', front, by rw [last, List.concat_eq_append]⟩

theorem word_append_blank (blank : isBlank c = true) (word : List Char) {cs rest : List Char}
    (plain : ∀ d ∈ word, isBlank d = false) (h : cs ++ [c] = word ++ rest) :
    ∃ rest', cs = word ++ rest' ∧ rest = rest' ++ [c] := by
  rcases word_append word h with ⟨-, -, last⟩ | within
  · cases blank.symm.trans (plain c (List.mem_of_getLast? last))
  · exact within

/-! Strings. -/

theorem string?_escape_code {cs : List Char}
    (short : ∀ x y z w rest, cs ≠ x :: y :: z :: w :: rest) :
    string? ('\\' :: 'u' :: cs) = none := by
  rw [string?]
  · rfl
  · rintro x y z w rest - same
    exact short x y z w rest same

theorem string?_unknown {e : Char} (unknown : shortEscape? e = none) (ne : e ≠ 'u')
    (cs : List Char) : string? ('\\' :: e :: cs) = none := by
  rw [string?, unknown]
  · rfl
  · exact fun x y z w rest same _ => ne same

theorem string?_raw {d : Char} (control : d.toNat < 0x20) (cs : List Char) :
    string? (d :: cs) = none := by
  rw [string?]
  · simp [control]
  · rintro rfl
    exact absurd control (by decide)
  · rintro x y z w rest rfl -
    exact absurd control (by decide)
  · rintro e rest rfl -
    exact absurd control (by decide)

theorem string?_code_leaving (blank : isBlank c = true) {cs : List Char}
    (short : ∀ x y z w rest, cs ≠ x :: y :: z :: w :: rest) :
    string? ('\\' :: 'u' :: (cs ++ [c])) = none := by
  rcases Classical.em (∃ x y z w rest, cs ++ [c] = x :: y :: z :: w :: rest)
    with ⟨x, y, z, w, rest, same⟩ | none
  · rcases word_append [x, y, z, w] same with ⟨rfl, -, last⟩ | ⟨rest', within, -⟩
    · have last : w = c := Option.some.inj last
      rw [same, string?, last, hex4?_blank blank]
      rfl
    · exact absurd within (short x y z w rest')
  · refine string?_escape_code fun x y z w rest same => none ⟨x, y, z, w, rest, same⟩

theorem string?_leaving (blank : isBlank c = true) (cs : List Char) :
    string? (cs ++ [c]) = leaving [c] (string? cs) := by
  fun_induction string? cs with
  | case1 cs => rfl
  | case2 x y z w cs ih ih' =>
    simp only [List.cons_append]
    rw [string?]
    cases hex4? x y z w with
    | none => rfl
    | some n =>
      simp only [Option.bind_eq_bind, Option.bind_some]
      split
      · split
        · next x' y' z' w' rest same =>
          rcases word_append ['\\', 'u', x', y', z', w'] same
            with ⟨rfl, front, last⟩ | ⟨rest', rfl, rfl⟩
          · obtain rfl : cs = ['\\', 'u', x', y', z'] := front
            have last : w' = c := Option.some.inj last
            rw [last, hex4?_blank blank]
            rfl
          · simp only [List.cons_append, List.nil_append] at ih ⊢
            rw [ih]
            cases hex4? x' y' z' w' with
            | none => rfl
            | some m =>
              simp only [Option.bind_some]
              split
              · exact leaving_bind fun a rest => rfl
              · rfl
        · next other =>
          split
          · next x' y' z' w' cs => exact absurd rfl (other x' y' z' w' (cs ++ [c]))
          · rfl
      · split
        · rfl
        · rw [ih']
          exact leaving_bind fun a rest => rfl
  | case3 e cs other ih =>
    rw [List.cons_append, List.cons_append]
    rcases Decidable.em (e = 'u') with rfl | short
    · exact string?_code_leaving blank fun x y z w rest => other x y z w rest rfl
    · cases h : shortEscape? e with
      | none => exact string?_unknown h short (cs ++ [c])
      | some d =>
        rw [string?_short h short, ih, leaving_map (d :: ·)]
        cases string? cs <;> rfl
  | case4 d cs notQuote _ notEscape bad =>
    rw [Bool.or_eq_true, decide_eq_true_eq, decide_eq_true_eq] at bad
    rcases bad with rfl | control
    · cases cs with
      | nil => rcases blank_cases blank with rfl | rfl | rfl | rfl <;> rfl
      | cons e cs => exact absurd rfl (notEscape e cs rfl)
    · exact string?_raw control (cs ++ [c])
  | case5 d cs notQuote _ notEscape fine ih =>
    simp only [Bool.or_eq_true, decide_eq_true_eq, not_or] at fine
    rw [List.cons_append, string?_plain notQuote fine.1 fine.2, ih]
    exact leaving_map (d :: ·) _
  | case6 => rcases blank_cases blank with rfl | rfl | rfl | rfl <;> rfl

/-! Values. -/

theorem next?_leaving (blank : isBlank c = true) (cs : List Char) :
    next? (cs ++ [c]) = leaving [c] (next? cs) := by
  rw [next?, next?, skipBlanks, skipBlanks, List.dropWhile_append]
  cases cs.dropWhile isBlank with
  | nil => simp [blank]
  | cons d rest => rfl

theorem scalar?_leaving (blank : isBlank c = true) (cs : List Char) :
    scalar? (cs ++ [c]) = leaving [c] (scalar? cs) := by
  fun_cases scalar? cs with
  | case1 => rfl
  | case2 => rfl
  | case3 => rfl
  | case4 cs null true false =>
    rw [scalar?]
    · exact number?_leaving (ends_blank blank) cs
    · intro rest same
      obtain ⟨rest', rfl, -⟩ :=
        word_append_blank blank ['n', 'u', 'l', 'l'] (by simp [isBlank]) same
      exact null rest' rfl
    · intro rest same
      obtain ⟨rest', rfl, -⟩ :=
        word_append_blank blank ['t', 'r', 'u', 'e'] (by simp [isBlank]) same
      exact true rest' rfl
    · intro rest same
      obtain ⟨rest', rfl, -⟩ :=
        word_append_blank blank ['f', 'a', 'l', 's', 'e'] (by simp [isBlank]) same
      exact false rest' rfl

/-- Whatever a reader reads, a character at the end of the text is left over. -/
def Leaves (c : Char) (read : List Char → Option (α × List Char)) : Prop :=
  ∀ cs, read (cs ++ [c]) = leaving [c] (read cs)

theorem Leaves.body? (blank : isBlank c = true) {read : ℕ → List Char → Option (List α × List Char)}
    (leaves : ∀ depth, Leaves c (read depth)) (closing : Char) (make : List α → Json) (depth : ℕ) :
    Leaves c (body? closing make read depth) := by
  intro cs
  cases depth with
  | zero => rfl
  | succ depth =>
    rw [Reader.body?, Reader.body?, next?_leaving blank]
    refine leaving_bind fun d rest => ?_
    dsimp only
    split
    · rfl
    · rw [← List.cons_append, leaves]
      exact leaving_map make _

theorem Leaves.more? (blank : isBlank c = true) {read : List Char → Option (List α × List Char)}
    (leaves : Leaves c read) (closing : Char) (a : α) : Leaves c (more? closing a read) := by
  intro cs
  rw [Reader.more?, Reader.more?, next?_leaving blank]
  refine leaving_bind fun d rest => ?_
  dsimp only
  split
  · rw [leaves]
    exact leaving_map (a :: ·) _
  · split <;> rfl

theorem leaves (blank : isBlank c = true) (fuel depth : ℕ) :
    Leaves c (value? fuel depth) ∧ Leaves c (items? fuel depth) ∧
    Leaves c (members? fuel depth) := by
  induction fuel generalizing depth with
  | zero => exact ⟨fun _ => rfl, fun _ => rfl, fun _ => rfl⟩
  | succ fuel ih =>
    obtain ⟨value, items, members⟩ := ih depth
    refine ⟨fun cs => ?_, fun cs => ?_, fun cs => ?_⟩
    · rw [value?_succ, value?_succ, next?_leaving blank]
      refine leaving_bind fun d rest => ?_
      dsimp only
      split
      · rw [string?_leaving blank]
        exact leaving_map (fun s => str (String.ofList s)) _
      · split
        · exact Leaves.body? blank (fun depth => (ih depth).2.1) ']' arr depth rest
        · split
          · exact Leaves.body? blank (fun depth => (ih depth).2.2) '\x7d' obj depth rest
          · exact scalar?_leaving blank (d :: rest)
    · rw [items?_succ, items?_succ, value]
      exact leaving_bind fun j rest => items.more? blank ']' j rest
    · rw [members?_succ, members?_succ, next?_leaving blank]
      refine leaving_bind fun quote rest => ?_
      dsimp only
      split
      · rw [string?_leaving blank]
        refine leaving_bind fun name rest => ?_
        dsimp only
        rw [next?_leaving blank]
        refine leaving_bind fun colon rest => ?_
        dsimp only
        split
        · rw [value]
          exact leaving_bind fun j rest => members.more? blank '\x7d' (String.ofList name, j) rest
        · rfl
      · rfl

theorem skipBlanks_append_blank (blank : isBlank c = true) (cs : List Char) :
    skipBlanks (cs ++ [c]) = [] ↔ skipBlanks cs = [] := by
  rw [skipBlanks, skipBlanks, List.dropWhile_append]
  cases cs.dropWhile isBlank <;> simp [blank]

theorem read?_append_blank (blank : isBlank c = true) (depth : ℕ) (cs : List Char) :
    read? depth (cs ++ [c]) = read? depth cs := by
  apply Option.ext
  intro j
  rw [read?_eq_some, read?_eq_some]
  constructor
  · rintro ⟨steps, rest, read, whole⟩
    rw [(leaves blank steps depth).1 cs] at read
    obtain ⟨⟨j', rest'⟩, read', same⟩ := Option.map_eq_some_iff.1 read
    cases same
    exact ⟨steps, rest', read', (skipBlanks_append_blank blank rest').1 whole⟩
  · rintro ⟨steps, rest, read, whole⟩
    refine ⟨steps, rest ++ [c], ?_, (skipBlanks_append_blank blank rest).2 whole⟩
    rw [(leaves blank steps depth).1 cs, read]
    rfl

end RowQuery.Json.Reader
