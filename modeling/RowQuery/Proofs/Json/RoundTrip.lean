import RowQuery.Proofs.Json.Number

/-!
The compact text of a JSON tree is read as the tree, if its numbers can be told apart in text and it
is not nested too deep.
-/

namespace RowQuery.Json.Reader

theorem hexValue?_digitChar {n : ℕ} (h : n < 16) : Bytes.hexValue? (Nat.digitChar n) = some n := by
  have all : ∀ n : Fin 16, Bytes.hexValue? (Nat.digitChar n) = some n.val := by decide
  exact all ⟨n, h⟩

theorem string?_control {c : Char} (control : c.toNat < 0x20) (cs : List Char) :
    string? ('\\' :: 'u' :: '0' :: '0' :: Nat.digitChar (c.toNat / 16) :: Nat.digitChar
      (c.toNat % 16) :: cs)
      = (string? cs).map fun (s, rest) => (c :: s, rest) := by
  have code : hex4? '0' '0' (Nat.digitChar (c.toNat / 16)) (Nat.digitChar (c.toNat % 16))
      = some c.toNat := by
    have zero : Bytes.hexValue? '0' = some 0 := rfl
    rw [hex4?, zero, hexValue?_digitChar (by omega), hexValue?_digitChar (by omega)]
    simp
    omega
  have notHigh : isHighSurrogate c.toNat = false := by
    simp [isHighSurrogate]
    omega
  have notLow : isLowSurrogate c.toNat = false := by
    simp [isLowSurrogate]
    omega
  rw [string?, code]
  simp [notHigh, notLow, Option.map_eq_bind]

theorem string?_short {e c : Char} (escaped : shortEscape? e = some c) (ne : e ≠ 'u')
    (cs : List Char) :
    string? ('\\' :: e :: cs) = (string? cs).map fun (s, rest) => (c :: s, rest) := by
  rw [string?, escaped]
  · simp [Option.map_eq_bind]
  · intro a b c d rest same
    exact absurd same ne

theorem string?_plain {c : Char} (notQuote : c ≠ '"') (notBackslash : c ≠ '\\')
    (notControl : ¬ c.toNat < 0x20) (cs : List Char) :
    string? (c :: cs) = (string? cs).map fun (s, rest) => (c :: s, rest) := by
  rw [string?]
  · simp [notBackslash, notControl]
  · exact fun same => absurd same notQuote
  · intro a b c d rest same
    exact absurd same notBackslash
  · intro e rest same
    exact absurd same notBackslash

theorem string?_escape (c : Char) (cs : List Char) :
    string? (escape c ++ cs) = (string? cs).map fun (s, rest) => (c :: s, rest) := by
  rw [escape]
  split
  · next quote =>
    subst quote
    exact string?_short rfl (by decide) cs
  · next notQuote =>
    split
    · next backslash =>
      subst backslash
      exact string?_short rfl (by decide) cs
    · next notBackslash =>
      split
      · next newline =>
        subst newline
        exact string?_short rfl (by decide) cs
      · split
        · next back =>
          subst back
          exact string?_short rfl (by decide) cs
        · split
          · next tab =>
            subst tab
            exact string?_short rfl (by decide) cs
          · split
            · next backspace =>
              subst backspace
              exact string?_short rfl (by decide) cs
            · split
              · next feed =>
                subst feed
                exact string?_short rfl (by decide) cs
              · split
                · next control => exact string?_control control cs
                · next notControl => exact string?_plain notQuote notBackslash notControl cs

theorem string?_quoted (cs rest : List Char) :
    string? (cs.flatMap escape ++ '"' :: rest) = some (cs, rest) := by
  induction cs with
  | nil => rfl
  | cons c cs ih =>
    rw [List.flatMap_cons, List.append_assoc, string?_escape, ih]
    rfl

@[simp] theorem skipBlanks_cons {c : Char} (h : isBlank c = false) (cs : List Char) :
    skipBlanks (c :: cs) = c :: cs := by
  simp [skipBlanks, h]

theorem value?_number (fuel depth : ℕ) {c : Char} (h : c = '-' ∨ Numeral.isDigit c = true)
    (cs : List Char) : value? (fuel + 1) depth (c :: cs) = number? (c :: cs) := by
  have other {d : Char} (notMinus : d ≠ '-') (notDigit : Numeral.isDigit d = false) : c ≠ d :=
    h.elim (fun minus => minus ▸ notMinus.symm) fun digit => ne_of_isDigit digit notDigit
  have notBlank : isBlank c = false := h.elim (fun minus => minus ▸ rfl) isBlank_of_isDigit
  rw [value?, skipBlanks_cons notBlank]
  split
  · next same => exact absurd (List.cons.inj same).1 (other (by decide) rfl)
  · next same => exact absurd (List.cons.inj same).1 (other (by decide) rfl)
  · next same => exact absurd (List.cons.inj same).1 (other (by decide) rfl)
  · next same => exact absurd (List.cons.inj same).1 (other (by decide) rfl)
  · next same => exact absurd (List.cons.inj same).1 (other (by decide) rfl)
  · next same => exact absurd (List.cons.inj same).1 (other (by decide) rfl)
  · rfl

theorem value?_int (fuel depth : ℕ) {i : ℤ} (low : -2 ^ 63 ≤ i) (high : i < 2 ^ 64)
    {rest : List Char} (ends : Ends rest) :
    value? (fuel + 1) depth (intText i ++ rest) = some (.int i, rest) := by
  have read := number?_int low high ends
  obtain ⟨c, cs, h⟩ := List.exists_cons_of_ne_nil (digitsOf_ne_nil i.natAbs)
  have digit : Numeral.isDigit c = true :=
    isDigit_of_mem_digitsOf (by rw [h]; exact List.mem_cons_self)
  rw [← read]
  rw [intText]
  split
  · exact value?_number fuel depth (.inl rfl) _
  · rw [h]
    exact value?_number fuel depth (.inr digit) _

theorem value?_float (fuel depth : ℕ) {x : Binary64} (back : x.ReadsBack) {rest : List Char}
    (ends : Ends rest) :
    value? (fuel + 1) depth ((Json.float x).text ++ rest) = some (.float x, rest) := by
  have read := number?_float back ends
  obtain ⟨c, cs, h, digit⟩ := json_eq_cons (Decimal.shortest .even x)
  rw [← read, text_float (isFinite_of_readsBack back), Binary64.signed]
  split
  · exact value?_number fuel depth (.inl rfl) _
  · rw [h]
    exact value?_number fuel depth (.inr digit) _

end RowQuery.Json.Reader

namespace RowQuery.Json

mutual

/-- Whether the numbers of a tree are read as they are written, and at most so many arrays and
objects are open at a time. -/
def Fits : Json → ℕ → Prop
  | int i, _ => -2 ^ 63 ≤ i ∧ i < 2 ^ 64
  | float x, _ => x.ReadsBack
  | arr items, depth + 1 => FitsItems items depth
  | obj members, depth + 1 => FitsMembers members depth
  | arr _, 0 => False
  | obj _, 0 => False
  | _, _ => True

def FitsItems : List Json → ℕ → Prop
  | [], _ => True
  | j :: rest, depth => j.Fits depth ∧ FitsItems rest depth

def FitsMembers : List (String × Json) → ℕ → Prop
  | [], _ => True
  | (_, j) :: rest, depth => j.Fits depth ∧ FitsMembers rest depth

end

theorem fitsItems_iff (items : List Json) (depth : ℕ) :
    FitsItems items depth ↔ ∀ j ∈ items, j.Fits depth := by
  induction items with
  | nil => simp [FitsItems]
  | cons j items ih => simp [FitsItems, ih]

theorem fitsMembers_iff (members : List (String × Json)) (depth : ℕ) :
    FitsMembers members depth ↔ ∀ m ∈ members, m.2.Fits depth := by
  induction members with
  | nil => simp [FitsMembers]
  | cons member members ih => simp [FitsMembers, ih]

namespace Reader

theorem text_eq_cons (j : Json) :
    ∃ c cs, j.text = c :: cs ∧ isBlank c = false ∧ c ≠ ']' ∧ c ≠ '}' := by
  have number {c : Char} (h : Numeral.isDigit c = true) : isBlank c = false ∧ c ≠ ']' ∧ c ≠ '}' :=
    ⟨isBlank_of_isDigit h, ne_of_isDigit h rfl, ne_of_isDigit h rfl⟩
  cases j with
  | null => exact ⟨'n', _, rfl, by decide⟩
  | bool b => cases b <;> exact ⟨_, _, rfl, by decide⟩
  | int i =>
    obtain ⟨c, cs, h⟩ := List.exists_cons_of_ne_nil (digitsOf_ne_nil i.natAbs)
    have digit : Numeral.isDigit c = true :=
      isDigit_of_mem_digitsOf (by rw [h]; exact List.mem_cons_self)
    rw [text, intText]
    split
    · exact ⟨'-', _, rfl, by decide⟩
    · exact ⟨c, cs, h, number digit⟩
  | float x =>
    obtain ⟨c, cs, h, digit⟩ := json_eq_cons (Decimal.shortest .even x)
    rw [text, Binary64.json?]
    split
    · rw [Option.getD_some, Binary64.signed]
      split
      · exact ⟨'-', _, rfl, by decide⟩
      · exact ⟨c, cs, h, number digit⟩
    · exact ⟨'n', _, rfl, by decide⟩
  | str s => exact ⟨'"', _, rfl, by decide⟩
  | arr items => exact ⟨'[', _, by rw [text], by decide⟩
  | obj members => exact ⟨'\x7b', _, by rw [text], by decide⟩

theorem itemsText_eq_cons {items : List Json} (ne : items ≠ []) (rest : List Char) :
    ∃ c cs, itemsText items ++ rest = c :: cs ∧ isBlank c = false ∧ c ≠ ']' := by
  match items with
  | [] => exact absurd rfl ne
  | [j] =>
    obtain ⟨c, cs, h, notBlank, notEnd, _⟩ := text_eq_cons j
    exact ⟨c, _, by rw [itemsText, h]; rfl, notBlank, notEnd⟩
  | j :: k :: items =>
    obtain ⟨c, cs, h, notBlank, notEnd, _⟩ := text_eq_cons j
    exact ⟨c, _, by rw [itemsText, h]; rfl; simp, notBlank, notEnd⟩

theorem ends_cons {c : Char} (rest : List Char)
    (h : Numeral.isDigit c = false ∧ c ≠ '.' ∧ c ≠ 'e' ∧ c ≠ 'E' ∧ c ≠ '+' ∧ c ≠ '-') :
    Ends (c :: rest) := by
  rintro _ ⟨⟩
  exact h

theorem value?_open_arr (fuel depth : ℕ) {c : Char} (notBlank : isBlank c = false)
    (notEnd : c ≠ ']') (cs : List Char) : value? (fuel + 1) (depth + 1) ('[' :: c :: cs)
      = (items? fuel depth (c :: cs)).map fun (items, rest) => (arr items, rest) := by
  rw [value?, skipBlanks_cons rfl]
  simp only [skipBlanks_cons notBlank]
  split
  · next none => cases none
  · next same => exact absurd (List.cons.inj same).1 notEnd
  · next same _ =>
    cases same
    rfl

theorem value?_arr (fuel : ℕ) {depth : ℕ} {items : List Json} (ne : items ≠ []) {rest : List Char}
    (read : items? fuel depth (itemsText items ++ rest) = some (items, rest)) :
    value? (fuel + 1) (depth + 1) ((arr items).text ++ rest) = some (arr items, rest) := by
  obtain ⟨c, cs, h, notBlank, notEnd⟩ := itemsText_eq_cons ne rest
  rw [h] at read
  rw [text, List.cons_append, h, value?_open_arr fuel depth notBlank notEnd, read]
  rfl

theorem membersText_cons (name : String) (j : Json) (members : List (String × Json)) :
    ∃ cs, membersText ((name, j) :: members) = '"' :: cs := by
  cases members with
  | nil => exact ⟨_, by rw [membersText, quoted]; rfl⟩
  | cons member members => exact ⟨_, by rw [membersText, quoted]; rfl; simp⟩

theorem value?_open_obj (fuel depth : ℕ) (cs : List Char) :
    value? (fuel + 1) (depth + 1) ('\x7b' :: '"' :: cs)
    = (members? fuel depth ('"' :: cs)).map fun (members, rest) => (obj members, rest) := by
  rw [value?, skipBlanks_cons rfl]
  rfl

theorem value?_obj (fuel : ℕ) {depth : ℕ} {members : List (String × Json)} (ne : members ≠ [])
    {rest : List Char}
    (read : members? fuel depth (membersText members ++ rest) = some (members, rest)) :
    value? (fuel + 1) (depth + 1) ((obj members).text ++ rest) = some (obj members, rest) := by
  obtain ⟨⟨name, j⟩, members, rfl⟩ := List.exists_cons_of_ne_nil ne
  obtain ⟨cs, h⟩ := membersText_cons name j members
  rw [h, List.cons_append] at read
  rw [text, List.cons_append, h, List.cons_append, value?_open_obj, read]
  rfl

theorem members?_quoted (fuel depth : ℕ) (name : String) (cs : List Char) :
    members? (fuel + 1) depth (quoted name ++ ':' :: cs) = (value? fuel depth cs).bind
        fun (j, cs) =>
      match skipBlanks cs with
      | ',' :: cs =>
        (members? fuel depth cs).map fun (members, rest) => ((name, j) :: members, rest)
      | '\x7d' :: cs => some ([(name, j)], cs)
      | _ => none := by
  have read := string?_quoted name.toList (':' :: cs)
  have spelled : String.ofList name.toList = name := String.ofList_toList
  rw [quoted, List.cons_append, List.append_assoc, List.singleton_append, members?,
    skipBlanks_cons rfl]
  simp only [read, Option.bind_eq_bind, Option.bind_some,
    skipBlanks_cons (show isBlank ':' = false from rfl)]
  generalize String.ofList name.toList = name' at spelled
  subst spelled
  rfl

mutual

theorem value?_text (j : Json) (fuel : ℕ) {depth : ℕ} (fits : j.Fits depth)
    (enough : 2 * j.text.length ≤ fuel) {rest : List Char} (ends : Ends rest) :
    value? fuel depth (j.text ++ rest) = some (j, rest) := by
  obtain ⟨c, cs, starts, _⟩ := text_eq_cons j
  have positive : 0 < j.text.length := by simp [starts]
  obtain ⟨fuel, rfl⟩ : ∃ n, fuel = n + 1 := ⟨fuel - 1, by omega⟩
  match j with
  | null => rfl
  | bool b => cases b <;> rfl
  | int i => exact value?_int fuel depth fits.1 fits.2 ends
  | float x => exact value?_float fuel depth fits ends
  | str s =>
    rw [text, quoted, List.cons_append, List.append_assoc, value?, skipBlanks_cons rfl]
    change (string? (s.toList.flatMap escape ++ '"' :: rest)).map
      (fun (s, rest) => (str (String.ofList s), rest)) = _
    rw [string?_quoted]
    simp
  | arr [] =>
    cases depth with
    | zero => exact fits.elim
    | succ depth => rfl
  | arr (j :: items) =>
    cases depth with
    | zero => exact fits.elim
    | succ depth =>
      apply value?_arr fuel (by simp)
      refine items?_text (j :: items) fuel (by simp) fits ?_ rest
      rw [text, List.length_cons] at enough
      omega
  | obj [] =>
    cases depth with
    | zero => exact fits.elim
    | succ depth => rfl
  | obj (member :: members) =>
    cases depth with
    | zero => exact fits.elim
    | succ depth =>
      apply value?_obj fuel (by simp)
      refine members?_text (member :: members) fuel (by simp) fits ?_ rest
      rw [text, List.length_cons] at enough
      omega

theorem items?_text (items : List Json) (fuel : ℕ) {depth : ℕ} (ne : items ≠ [])
    (fits : FitsItems items depth) (enough : 2 * (itemsText items).length ≤ fuel)
    (rest : List Char) : items? fuel depth (itemsText items ++ rest) = some (items, rest) := by
  match items with
  | [] => exact absurd rfl ne
  | [j] =>
    rw [itemsText, List.length_append, List.length_singleton] at enough
    obtain ⟨fuel, rfl⟩ : ∃ n, fuel = n + 1 := ⟨fuel - 1, by omega⟩
    have read := value?_text j fuel fits.1 (by omega) (ends_cons rest (c := ']') (by decide))
    rw [itemsText, List.append_assoc, items?, List.singleton_append, read]
    rfl
  | j :: k :: items =>
    rw [itemsText, List.length_append, List.length_cons] at enough
    · obtain ⟨fuel, rfl⟩ : ∃ n, fuel = n + 1 := ⟨fuel - 1, by omega⟩
      have read := value?_text j fuel fits.1 (by omega)
        (ends_cons (itemsText (k :: items) ++ rest) (c := ',') (by decide))
      have readRest := items?_text (k :: items) fuel (by simp) fits.2 (by omega) rest
      rw [itemsText, List.append_assoc, items?, List.cons_append, read]
      · change (items? fuel depth (itemsText (k :: items) ++ rest)).map
          (fun (items, rest) => (j :: items, rest)) = _
        rw [readRest]
        rfl
      · simp
    · simp

theorem members?_text (members : List (String × Json)) (fuel : ℕ) {depth : ℕ} (ne : members ≠ [])
    (fits : FitsMembers members depth) (enough : 2 * (membersText members).length ≤ fuel)
    (rest : List Char) :
    members? fuel depth (membersText members ++ rest) = some (members, rest) := by
  match members with
  | [] => exact absurd rfl ne
  | [(name, j)] =>
    simp only [membersText, List.length_append, List.length_cons] at enough
    obtain ⟨fuel, rfl⟩ : ∃ n, fuel = n + 1 := ⟨fuel - 1, by omega⟩
    have read := value?_text j fuel fits.1 (by omega) (ends_cons rest (c := '\x7d') (by decide))
    rw [membersText, List.append_assoc, List.append_assoc, List.cons_append, members?_quoted,
      List.singleton_append, read]
    rfl
  | (name, j) :: member :: members =>
    rw [membersText] at enough
    · simp only [List.length_append, List.length_cons] at enough
      obtain ⟨fuel, rfl⟩ : ∃ n, fuel = n + 1 := ⟨fuel - 1, by omega⟩
      have read := value?_text j fuel fits.1 (by omega)
        (ends_cons (membersText (member :: members) ++ rest) (c := ',') (by decide))
      have readRest := members?_text (member :: members) fuel (by simp) fits.2 (by omega) rest
      rw [membersText, List.append_assoc, List.append_assoc, List.cons_append, members?_quoted,
        List.cons_append, read]
      · change (members? fuel depth (membersText (member :: members) ++ rest)).map
          (fun (members, rest) => ((name, j) :: members, rest)) = _
        rw [readRest]
        rfl
      · simp
    · simp

end

end Reader

/-- The compact text of a tree is read as the tree. -/
theorem parse?_compress (j : Json) (fits : j.Fits depthLimit) : parse? j.compress = some j := by
  have ends : Reader.Ends [] := by
    rintro c ⟨⟩
  have read := Reader.value?_text j (Reader.fuel j.text) fits (by rw [Reader.fuel]; omega) ends
  rw [List.append_nil] at read
  rw [parse?, compress, String.toList_ofList, Reader.read?, read]
  rfl

end RowQuery.Json
