import RowQuery.Proofs.Json.Scaling

/-!
Numbers in JSON text. What is read of one does not depend on what follows it. Integers are read as
they were written, and so are the doubles of a few digits; other doubles may come back as a
neighbour, since the reader rounds more than once.
-/

namespace RowQuery.Json.Reader

open Numeral (isDigit digitsValue)

def Ends (rest : List Char) : Prop :=
  ∀ c ∈ rest.head?, isDigit c = false ∧ c ≠ '.' ∧ c ≠ 'e' ∧ c ≠ 'E' ∧ c ≠ '+' ∧ c ≠ '-'

def EndsDigits (rest : List Char) : Prop := ∀ c ∈ rest.head?, isDigit c = false

def AllDigits (ds : List Char) : Prop := ∀ c ∈ ds, isDigit c = true

theorem Ends.digits {rest : List Char} (h : Ends rest) : EndsDigits rest := fun c hc => (h c hc).1

theorem takeWhile_digits {ds rest : List Char} (hds : AllDigits ds) (ends : EndsDigits rest) :
    (ds ++ rest).takeWhile isDigit = ds := by
  rw [List.takeWhile_append_of_pos hds]
  cases rest with
  | nil => simp
  | cons c rest => simp [ends c rfl]

theorem dropWhile_digits {ds rest : List Char} (hds : AllDigits ds) (ends : EndsDigits rest) :
    (ds ++ rest).dropWhile isDigit = rest := by
  rw [List.dropWhile_append_of_pos hds]
  cases rest with
  | nil => simp
  | cons c rest => simp [ends c rfl]

theorem allDigits_digitsOf (n : ℕ) : AllDigits (digitsOf n) := fun _ => isDigit_of_mem_digitsOf

theorem allDigits_append {ds es : List Char} (hds : AllDigits ds) (hes : AllDigits es) :
    AllDigits (ds ++ es) :=
  List.forall_mem_append.2 ⟨hds, hes⟩

theorem allDigits_replicate_zero (n : ℕ) : AllDigits (List.replicate n '0') := by
  intro c hc
  rw [List.eq_of_mem_replicate hc]
  rfl

theorem isWhole_of_head? {ds : List Char} (ne : ds ≠ []) (head : ds.head? ≠ some '0') :
    isWhole ds = true := by
  cases ds with
  | nil => exact absurd rfl ne
  | cons d ds =>
    have nonzero : d ≠ '0' := fun zero => head (congrArg some zero)
    cases ds <;> simp [isWhole, nonzero]

theorem isWhole_digitsOf (n : ℕ) : isWhole (digitsOf n) = true := by
  rcases Nat.eq_zero_or_pos n with rfl | pos
  · rfl
  · exact isWhole_of_head? (digitsOf_ne_nil n) (head?_digitsOf pos)

theorem fraction?_point {fraction rest : List Char} (digits : AllDigits fraction)
    (ne : fraction ≠ []) (ends : EndsDigits rest) :
    fraction? ('.' :: (fraction ++ rest)) = some (fraction, rest) := by
  rw [fraction?, takeWhile_digits digits ends, dropWhile_digits digits ends]
  simp [ne]

theorem fraction?_none {rest : List Char} (h : ∀ c ∈ rest.head?, c ≠ '.') :
    fraction? rest = some ([], rest) := by
  rw [fraction?]
  rintro cs rfl
  exact h '.' rfl rfl

theorem exponent?_none {rest : List Char} (h : ∀ c ∈ rest.head?, c ≠ 'e' ∧ c ≠ 'E') :
    exponent? rest = some (0, rest) := by
  cases rest with
  | nil => rfl
  | cons c rest =>
    rw [exponent?, if_neg]
    exact not_or.2 (h c rfl)

theorem exponent?_digits (negative : Bool) (n : ℕ) {rest : List Char} (ends : EndsDigits rest) :
    exponent? ('e' :: (if negative then '-' else '+') :: (digitsOf n ++ rest))
      = some (if negative then -(n : ℤ) else n, rest) := by
  have sign : Numeral.splitSign ((if negative then '-' else '+') :: (digitsOf n ++ rest))
      = (negative, digitsOf n ++ rest) := by
    cases negative <;> rfl
  rw [exponent?, if_pos (.inl rfl), sign]
  simp only [takeWhile_digits (allDigits_digitsOf n) ends,
    dropWhile_digits (allDigits_digitsOf n) ends, digitsValue_digitsOf]
  simp [digitsOf_ne_nil]

def unsigned? (negative : Bool) (cs : List Char) : Option (Json × List Char) := do
  let whole := cs.takeWhile isDigit
  let cs := cs.dropWhile isDigit
  if !isWhole whole then none
  else if isIntegral cs then
    (ofInteger? negative whole).map fun j => (j, cs)
  else
    let (fraction, cs) ← fraction? cs
    let (e, rest) ← exponent? cs
    let j ← ofDecimal? negative (ofParts whole fraction e)
    return (j, rest)

theorem number?_sign (negative : Bool) {cs : List Char} (head : cs.head? ≠ some '-') :
    number? (if negative then '-' :: cs else cs) = unsigned? negative cs := by
  cases negative with
  | true => rfl
  | false =>
    change number? cs = _
    rw [number?]
    · rfl
    · rintro cs' rfl
      exact head rfl

section Leaving

variable {α β : Type} {tail : List Char}

/-- What is read from a text with more text behind it, when that is left over. -/
def leaving (tail : List Char) : Option (α × List Char) → Option (α × List Char) :=
  Option.map fun (a, rest) => (a, rest ++ tail)

@[simp] theorem leaving_none : leaving tail (none : Option (α × List Char)) = none := rfl

@[simp] theorem leaving_some (a : α) (rest : List Char) :
    leaving tail (some (a, rest)) = some (a, rest ++ tail) := rfl

theorem leaving_map (f : α → β) (read : Option (α × List Char)) :
    (leaving tail read).map (fun (a, rest) => (f a, rest))
      = leaving tail (read.map fun (a, rest) => (f a, rest)) := by
  cases read <;> rfl

theorem leaving_bind {read : Option (α × List Char)} {f g : α × List Char → Option (β × List Char)}
    (h : ∀ a rest, f (a, rest ++ tail) = leaving tail (g (a, rest))) :
    (leaving tail read).bind f = leaving tail (read.bind g) := by
  cases read with
  | none => rfl
  | some found => exact h found.1 found.2

theorem takeWhile_leaving (ends : EndsDigits tail) (cs : List Char) :
    (cs ++ tail).takeWhile isDigit = cs.takeWhile isDigit := by
  induction cs with
  | nil =>
    have none : AllDigits [] := by simp [AllDigits]
    exact takeWhile_digits none ends
  | cons d cs ih => rw [List.cons_append, List.takeWhile_cons, List.takeWhile_cons, ih]

theorem dropWhile_leaving (ends : EndsDigits tail) (cs : List Char) :
    (cs ++ tail).dropWhile isDigit = cs.dropWhile isDigit ++ tail := by
  induction cs with
  | nil =>
    have none : AllDigits [] := by simp [AllDigits]
    exact dropWhile_digits none ends
  | cons d cs ih =>
    rw [List.cons_append, List.dropWhile_cons, List.dropWhile_cons, ih]
    split <;> rfl

theorem fraction?_leaving (ends : Ends tail) (cs : List Char) :
    fraction? (cs ++ tail) = leaving tail (fraction? cs) := by
  fun_cases fraction? cs with
  | case1 cs none =>
    rw [List.cons_append, fraction?, takeWhile_leaving ends.digits, if_pos none]
    rfl
  | case2 cs some =>
    rw [List.cons_append, fraction?, takeWhile_leaving ends.digits, if_neg some,
      dropWhile_leaving ends.digits]
    rfl
  | case3 cs other =>
    refine fraction?_none fun c first => ?_
    cases cs with
    | nil => exact (ends c first).2.1
    | cons d cs =>
      rintro rfl
      exact other cs (congrArg (· :: cs) (Option.some.inj first))

theorem splitSign_leaving (ends : Ends tail) (cs : List Char) :
    Numeral.splitSign (cs ++ tail)
      = ((Numeral.splitSign cs).1, (Numeral.splitSign cs).2 ++ tail) := by
  fun_cases Numeral.splitSign cs with
  | case1 cs => rfl
  | case2 cs => rfl
  | case3 cs notMinus notPlus =>
    cases cs with
    | nil =>
      rw [List.nil_append, Numeral.splitSign]
      · rintro rest rfl
        exact (ends '-' rfl).2.2.2.2.2 rfl
      · rintro rest rfl
        exact (ends '+' rfl).2.2.2.2.1 rfl
    | cons d cs =>
      rw [List.cons_append, Numeral.splitSign]
      · rintro rest ⟨⟩
        exact notMinus cs rfl
      · rintro rest ⟨⟩
        exact notPlus cs rfl

theorem exponent?_leaving (ends : Ends tail) (cs : List Char) :
    exponent? (cs ++ tail) = leaving tail (exponent? cs) := by
  cases cs with
  | nil => exact exponent?_none fun c hc => ⟨(ends c hc).2.2.1, (ends c hc).2.2.2.1⟩
  | cons d cs =>
    rw [List.cons_append, exponent?, exponent?]
    split
    · simp only [splitSign_leaving ends, takeWhile_leaving ends.digits,
        dropWhile_leaving ends.digits]
      split <;> rfl
    · rfl

theorem isIntegral_leaving (ends : Ends tail) (cs : List Char) :
    isIntegral (cs ++ tail) = isIntegral cs := by
  cases cs with
  | nil =>
    cases tail with
    | nil => rfl
    | cons c tail =>
      obtain ⟨_, point, e, E, _⟩ := ends c rfl
      simp [isIntegral, point, e, E]
  | cons d cs => rfl

theorem unsigned?_leaving (ends : Ends tail) (negative : Bool) (cs : List Char) :
    unsigned? negative (cs ++ tail) = leaving tail (unsigned? negative cs) := by
  rw [unsigned?, unsigned?]
  simp only [takeWhile_leaving ends.digits, dropWhile_leaving ends.digits, isIntegral_leaving ends,
    fraction?_leaving ends]
  split
  · rfl
  · split
    · cases ofInteger? negative _ <;> rfl
    · refine leaving_bind fun fraction rest => ?_
      rw [exponent?_leaving ends]
      refine leaving_bind fun e rest => ?_
      cases ofDecimal? negative _ <;> rfl

theorem number?_leaving (ends : Ends tail) (cs : List Char) :
    number? (cs ++ tail) = leaving tail (number? cs) := by
  rcases Decidable.em (cs.head? = some '-') with minus | plain
  · obtain ⟨rest, rfl⟩ := List.head?_eq_some_iff.1 minus
    exact unsigned?_leaving ends true rest
  · have plain' : (cs ++ tail).head? ≠ some '-' := by
      cases cs with
      | nil => exact fun minus => (ends '-' minus).2.2.2.2.2 rfl
      | cons d cs => exact plain
    exact (number?_sign false plain').trans
      ((unsigned?_leaving ends false cs).trans (congrArg _ (number?_sign false plain).symm))

end Leaving

theorem unsigned?_integer (negative : Bool) {whole rest : List Char} (digits : AllDigits whole)
    (isWhole : isWhole whole = true) (ends : Ends rest) :
    unsigned? negative (whole ++ rest) = (ofInteger? negative whole).map fun j => (j, rest) := by
  have integral : isIntegral rest = true := isIntegral_leaving ends []
  rw [unsigned?, takeWhile_digits digits ends.digits, dropWhile_digits digits ends.digits]
  simp [isWhole, integral]

theorem unsigned?_decimal (negative : Bool) {whole fraction tail tail' rest : List Char} {e : ℤ}
    (digits : AllDigits whole) (isWhole : isWhole whole = true) (ends : EndsDigits tail)
    (decimal : isIntegral tail = false) (hf : fraction? tail = some (fraction, tail'))
    (he : exponent? tail' = some (e, rest)) :
    unsigned? negative (whole ++ tail)
      = (ofDecimal? negative (ofParts whole fraction e)).map fun j => (j, rest) := by
  rw [unsigned?, takeWhile_digits digits ends, dropWhile_digits digits ends]
  simp [isWhole, decimal, hf, he, Option.map_eq_bind]

theorem unsigned?_point (negative : Bool) {whole fraction rest : List Char}
    (digits : AllDigits whole) (isWhole : isWhole whole = true) (digits' : AllDigits fraction)
    (ne : fraction ≠ []) (small : digitsValue (whole ++ fraction) < 2 ^ 64) (ends : Ends rest) :
    unsigned? negative (whole ++ '.' :: (fraction ++ rest))
      = (ofDecimal? negative ⟨digitsValue (whole ++ fraction), -fraction.length⟩).map
        fun j => (j, rest) := by
  have point : EndsDigits ('.' :: (fraction ++ rest)) := by
    rintro c ⟨⟩
    rfl
  have noExponent := exponent?_none fun c hc => ⟨(ends c hc).2.2.1, (ends c hc).2.2.2.1⟩
  rw [unsigned?_decimal negative digits isWhole point rfl
    (fraction?_point digits' ne ends.digits) noExponent,
    ofParts_eq _ small, zero_sub]

theorem unsigned?_scientific (negative : Bool) {ds : List Char} (digits : AllDigits ds)
    (ne : ds ≠ []) (head : ds.head? ≠ some '0') (small : digitsValue ds < 2 ^ 64) (point : ℤ)
    {rest : List Char} (ends : Ends rest) :
    unsigned? negative (Decimal.scientific ds point ++ rest)
      = (ofDecimal? negative ⟨digitsValue ds, point - ds.length⟩).map fun j => (j, rest) := by
  obtain ⟨d, ds, rfl⟩ := List.exists_cons_of_ne_nil ne
  have whole : AllDigits [d] := fun c hc => digits c (List.mem_of_mem_take (i := 1) hc)
  have isWhole : isWhole [d] = true := isWhole_of_head? (by simp) head
  have exponent : exponent?
    ('e' :: (if point - 1 < 0 then '-' else '+') :: (digitsOf (point - 1).natAbs ++ rest))
      = some (point - 1, rest) := by
    have read := exponent?_digits (decide (point - 1 < 0)) (point - 1).natAbs ends.digits
    simp only [decide_eq_true_eq] at read
    rw [read]
    congr 2
    split <;> omega
  have endsDigits (c : Char) (tail : List Char) (h : isDigit c = false) :
      EndsDigits (c :: tail) := by
    rintro _ ⟨⟩
    exact h
  cases ds with
  | nil =>
    have read := unsigned?_decimal negative whole isWhole (endsDigits 'e' _ rfl) rfl
      (fraction?_none (by simp)) exponent
    rw [ofParts_eq _ (by rwa [List.append_nil]), List.append_nil, List.length_nil] at read
    rw [Decimal.scientific, List.append_assoc, List.length_singleton]
    · refine Eq.trans read ?_
      congr 3
      omega
    · simp
  | cons x ds =>
    have digits' : AllDigits (x :: ds) := fun c hc => digits c (List.mem_cons_of_mem d hc)
    have read := unsigned?_decimal negative whole isWhole (endsDigits '.' _ rfl) rfl
      (fraction?_point digits' (by simp) (endsDigits 'e' _ rfl)) exponent
    rw [ofParts_eq _ small] at read
    rw [Decimal.scientific, List.append_assoc]
    refine Eq.trans read ?_
    congr 3
    simp
    omega

theorem unsigned?_positional_small (negative : Bool) {ds rest : List Char} (digits : AllDigits ds)
    (ne : ds ≠ []) (small : digitsValue ds < 2 ^ 64) {point : ℤ} (h : point ≤ 0)
    (ends : Ends rest) :
    unsigned? negative (Decimal.positional ds point ++ rest)
      = (ofDecimal? negative ⟨digitsValue ds, point - ds.length⟩).map fun j => (j, rest) := by
  have zeros := allDigits_replicate_zero (-point).toNat
  have value : digitsValue (List.replicate 1 '0' ++ (List.replicate (-point).toNat '0' ++ ds))
      = digitsValue ds := by
    rw [digitsValue_append, digitsValue_append, digitsValue_replicate_zero,
      digitsValue_replicate_zero, Nat.zero_mul, Nat.zero_mul, Nat.zero_add, Nat.zero_add]
  have read := unsigned?_point negative (allDigits_replicate_zero 1) rfl
    (allDigits_append zeros digits) (by simp [ne])
    (value.trans_lt small) ends
  rw [Decimal.positional, if_pos h]
  refine Eq.trans read ?_
  rw [value]
  congr 3
  rw [List.length_append, List.length_replicate]
  omega

theorem unsigned?_positional_inside (negative : Bool) {ds rest : List Char} (digits : AllDigits ds)
    (head : ds.head? ≠ some '0') (small : digitsValue ds < 2 ^ 64) {point : ℤ} (pos : 0 < point)
    (h : point < ds.length) (ends : Ends rest) :
    unsigned? negative (Decimal.positional ds point ++ rest)
      = (ofDecimal? negative ⟨digitsValue ds, point - ds.length⟩).map fun j => (j, rest) := by
  obtain ⟨n, rfl⟩ := Int.eq_ofNat_of_zero_le pos.le
  have whole : AllDigits (ds.take n) := fun c hc => digits c (List.mem_of_mem_take hc)
  have fraction : AllDigits (ds.drop n) := fun c hc => digits c (List.mem_of_mem_drop hc)
  have isWhole : isWhole (ds.take n) = true := by
    apply isWhole_of_head?
    · rw [ne_eq, List.take_eq_nil_iff]
      rintro (zero | rfl)
      · omega
      · simp at h
        omega
    · rwa [List.head?_take, if_neg (by omega)]
  have ne : ds.drop n ≠ [] := by
    rw [ne_eq, List.drop_eq_nil_iff]
    omega
  have read := unsigned?_point negative whole isWhole fraction ne
    (by rwa [List.take_append_drop]) ends
  rw [Decimal.positional, if_neg (by omega), if_pos h, List.append_assoc]
  refine Eq.trans read ?_
  rw [List.take_append_drop]
  congr 3
  rw [List.length_drop]
  omega

theorem unsigned?_positional_large (negative : Bool) {ds rest : List Char} (digits : AllDigits ds)
    (ne : ds ≠ []) (head : ds.head? ≠ some '0') {k : ℕ}
    (small : digitsValue ds * 10 ^ (k + 1) < 2 ^ 64) (ends : Ends rest) :
    unsigned? negative (Decimal.positional ds (ds.length + k) ++ ['.', '0'] ++ rest)
      = (ofDecimal? negative ⟨digitsValue ds * 10 ^ (k + 1), -1⟩).map fun j => (j, rest) := by
  have whole := allDigits_append digits (allDigits_replicate_zero k)
  have isWhole : isWhole (ds ++ List.replicate k '0') = true := by
    apply isWhole_of_head? (by simp [ne])
    rw [List.head?_append]
    obtain ⟨d, ds, rfl⟩ := List.exists_cons_of_ne_nil ne
    exact head
  have value : digitsValue (ds ++ List.replicate k '0' ++ List.replicate 1 '0')
      = digitsValue ds * 10 ^ (k + 1) := by
    rw [digitsValue_append, digitsValue_append, digitsValue_replicate_zero,
      digitsValue_replicate_zero]
    simp [Nat.pow_succ, Nat.mul_assoc]
  have read := unsigned?_point negative whole isWhole (allDigits_replicate_zero 1) (by simp)
    (value.trans_lt small) ends
  have length : 0 < ds.length := List.length_pos_of_ne_nil ne
  have zeros : ((ds.length : ℤ) + k - ds.length).toNat = k := by omega
  rw [Decimal.positional, if_neg (by omega), if_neg (by omega), zeros, List.append_assoc,
    List.append_assoc]
  rw [List.append_assoc, value] at read
  exact read

/-- A short decimal is read as the nearest double, whatever layout its text has. -/
theorem unsigned?_json (negative : Bool) {d : Decimal} (short : d.Short) {rest : List Char}
    (ends : Ends rest) :
    unsigned? negative (d.json ++ rest) = some (.float (d.nearest negative), rest) := by
  obtain ⟨few, low⟩ := short
  have digits := allDigits_digitsOf d.digits
  have ne := digitsOf_ne_nil d.digits
  have small : d.digits < 2 ^ 53 :=
    (Nat.le_mul_of_pos_right _ (Nat.pow_pos (by decide))).trans_lt few
  have value : digitsValue (digitsOf d.digits) < 2 ^ 64 := by
    rw [digitsValue_digitsOf]
    omega
  have exponent : (digitsOf d.digits).length + d.exponent - (digitsOf d.digits).length
    = d.exponent := by omega
  rw [Decimal.json, Decimal.pointed]
  dsimp only
  split
  · next noDigits =>
    have zero : AllDigits ['0'] := allDigits_replicate_zero 1
    have read := unsigned?_point negative zero rfl zero (by simp) (by decide) ends
    refine Eq.trans read ?_
    obtain ⟨n, e⟩ := d
    cases noDigits
    rw [ofDecimal?_of_short negative (by decide) (by decide) (by decide),
      Decimal.nearest_zero negative e]
    rw [Option.map_some, show digitsValue (['0'] ++ ['0']) = 0 from rfl, Decimal.nearest_zero]
  · next nonzero =>
    have head := head?_digitsOf (Nat.pos_of_ne_zero nonzero)
    have high : d.exponent ≤ 22 := by
      refine Int.le_of_not_gt fun large => few.not_ge ?_
      calc 2 ^ 53 ≤ 1 * 10 ^ 24 := by decide
        _ ≤ d.digits * 10 ^ (d.exponent.toNat + 1) :=
          Nat.mul_le_mul (Nat.pos_of_ne_zero nonzero) (Nat.pow_le_pow_right (by decide) (by omega))
    have nearest :
        (ofDecimal? negative ⟨digitsValue (digitsOf d.digits), d.exponent⟩).map (fun j => (j, rest))
          = some (.float (d.nearest negative), rest) := by
      rw [digitsValue_digitsOf, ofDecimal?_of_short negative small low high]
      rfl
    split
    · rw [unsigned?_scientific negative digits ne head value _ ends, exponent, nearest]
    · next near =>
      split
      · next inside =>
        rcases le_or_gt ((digitsOf d.digits).length + d.exponent : ℤ) 0 with left | right
        · rw [unsigned?_positional_small negative digits ne value left ends, exponent, nearest]
        · rw [unsigned?_positional_inside negative digits head value right inside ends, exponent,
            nearest]
      · next large =>
        obtain ⟨k, hk⟩ := Int.eq_ofNat_of_zero_le (show 0 ≤ d.exponent by omega)
        rw [hk, Int.toNat_natCast] at few
        have shift := Decimal.nearest_shift negative d.digits k (by omega)
        rw [hk, unsigned?_positional_large negative digits ne head
          (by rw [digitsValue_digitsOf]; omega) ends, digitsValue_digitsOf,
          ofDecimal?_of_short negative few (by decide) (by decide), shift, ← hk]
        rfl

theorem positional_eq_cons {ds : List Char} (digits : AllDigits ds) (ne : ds ≠ []) (point : ℤ) :
    ∃ c cs, Decimal.positional ds point = c :: cs ∧ isDigit c = true := by
  obtain ⟨d, ds, rfl⟩ := List.exists_cons_of_ne_nil ne
  have digit : isDigit d = true := digits d List.mem_cons_self
  rw [Decimal.positional]
  split
  · exact ⟨'0', _, rfl, rfl⟩
  · next pos =>
    split
    · obtain ⟨n, hn⟩ : ∃ n, point.toNat = n + 1 := ⟨point.toNat - 1, by omega⟩
      rw [hn]
      exact ⟨d, _, rfl, digit⟩
    · exact ⟨d, _, rfl, digit⟩

theorem json_eq_cons (d : Decimal) : ∃ c cs, d.json = c :: cs ∧ isDigit c = true := by
  have digits := allDigits_digitsOf d.digits
  have ne := digitsOf_ne_nil d.digits
  have positional := positional_eq_cons digits ne ((digitsOf d.digits).length + d.exponent)
  rw [Decimal.json, Decimal.pointed]
  dsimp only
  split
  · exact ⟨'0', _, rfl, rfl⟩
  · split
    · obtain ⟨c, cs, h⟩ := List.exists_cons_of_ne_nil ne
      rw [h]
      refine ⟨c, ?_⟩
      have digit : isDigit c = true := digits c (by rw [h]; exact List.mem_cons_self)
      cases cs <;> exact ⟨_, rfl, digit⟩
    · split
      · exact positional
      · obtain ⟨c, cs, h, digit⟩ := positional
        exact ⟨c, cs ++ ['.', '0'], by rw [h]; rfl, digit⟩

theorem ne_of_isDigit {c d : Char} (h : isDigit c = true) (other : isDigit d = false) : c ≠ d := by
  rintro rfl
  exact absurd h (by simp [other])

theorem isBlank_of_isDigit {c : Char} (h : isDigit c = true) : isBlank c = false := by
  simp [isBlank, ne_of_isDigit h (d := ' ') rfl, ne_of_isDigit h (d := '\n') rfl,
    ne_of_isDigit h (d := '\r') rfl, ne_of_isDigit h (d := '\t') rfl]

theorem text_float {x : Binary64} (finite : x.isFinite) :
    (Json.float x).text = x.signed (Decimal.shortest .even x).json := by
  rw [Json.text, Binary64.json?, if_pos finite]
  rfl

theorem isFinite_of_readsBack {x : Binary64} (back : x.ReadsBack) : x.isFinite := by
  by_contra infinite
  have text : (Json.float x).text = ['n', 'u', 'l', 'l'] := by
    rw [Json.text, Binary64.json?, if_neg infinite]
    rfl
  rw [Binary64.ReadsBack, text] at back
  cases back

theorem number?_float {x : Binary64} (back : x.ReadsBack) {rest : List Char} (ends : Ends rest) :
    number? ((Json.float x).text ++ rest) = some (.float x, rest) := by
  rw [number?_leaving ends, back]
  rfl

theorem readsBack_of_short {x : Binary64} (finite : x.isFinite)
    (short : (Decimal.shortest .even x).Short) : x.ReadsBack := by
  have text : (Json.float x).text
      = if x.isNegative then '-' :: (Decimal.shortest .even x).json
        else (Decimal.shortest .even x).json := by
    rw [text_float finite, Binary64.signed]
  have ends : Ends [] := by rintro c ⟨⟩
  have read := unsigned?_json x.isNegative short ends
  obtain ⟨c, cs, h, digit⟩ := json_eq_cons (Decimal.shortest .even x)
  have head : (Decimal.shortest .even x).json.head? ≠ some '-' := by
    rw [h]
    exact fun same => ne_of_isDigit digit rfl (Option.some.inj same)
  rw [List.append_nil, Decimal.nearest_shortest .even x.isNegative finite,
    x.ofMagnitude_magnitude] at read
  rw [Binary64.ReadsBack, text, number?_sign _ head, read]

-- the largest double below one is read as one: no double has its sixteen digits
example : ¬ (⟨0x3fefffffffffffff⟩ : Binary64).ReadsBack := by
  intro back
  have read : (number? (Json.float ⟨0x3fefffffffffffff⟩).text).map (·.1.text)
      = some ['1', '.', '0'] := by
    decide +kernel
  rw [Binary64.ReadsBack] at back
  rw [back] at read
  exact absurd read (by decide +kernel)

theorem number?_int {i : ℤ} (low : -2 ^ 63 ≤ i) (high : i < 2 ^ 64) {rest : List Char}
    (ends : Ends rest) : number? (intText i ++ rest) = some (.int i, rest) := by
  have text : intText i ++ rest
      = if decide (i < 0) then '-' :: (digitsOf i.natAbs ++ rest)
        else digitsOf i.natAbs ++ rest := by
    rw [intText]
    split <;> simp_all
  have head : (digitsOf i.natAbs ++ rest).head? ≠ some '-' := by
    obtain ⟨c, cs, h⟩ := List.exists_cons_of_ne_nil (digitsOf_ne_nil i.natAbs)
    have digit : isDigit c = true := isDigit_of_mem_digitsOf (by rw [h]; exact List.mem_cons_self)
    rw [h]
    exact fun same => ne_of_isDigit digit rfl (Option.some.inj same)
  have read : ofInteger? (decide (i < 0)) (digitsOf i.natAbs) = some (.int i) := by
    rw [ofInteger?, digitsValue_digitsOf]
    split
    · next negative =>
      have negative := of_decide_eq_true negative
      rw [if_pos (by omega), Int.ofNat_natAbs_of_nonpos negative.le, Int.neg_neg]
    · next positive =>
      have positive := of_decide_eq_false (Bool.eq_false_iff.2 positive)
      rw [if_pos (by omega), Int.natAbs_of_nonneg (by omega)]
  rw [text, number?_sign _ head,
    unsigned?_integer _ (allDigits_digitsOf _) (isWhole_digitsOf _) ends, read]
  rfl

end RowQuery.Json.Reader
