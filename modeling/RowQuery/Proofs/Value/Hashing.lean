import RowQuery.Proofs.Text.Bytes
import RowQuery.Proofs.Value.Order

/-!
What values feed to a hash function tells them apart exactly where they are not the same, also when
more is fed to it afterwards.
-/

namespace RowQuery.Value

def hashWrites (v : Value) : List Bytes :=
  [UInt8.ofNat v.kind.rank] :: match v with
    | null => []
    | bool b => [[if b then 1 else 0]]
    | int i => [littleEndian 8 i.toUInt64.toNat]
    | float x => [littleEndian 8 x.canonical.bits.toNat]
    | text s => [Bytes.ofText s, [0xff]]
    | bytes b => [littleEndian 8 b.length, b]

theorem flatten_hashWrites (v : Value) : v.hashWrites.flatten = v.hashInput := by
  cases v <;> simp [hashWrites, hashInput]

@[simp] theorem length_littleEndian (count n : ℕ) : (littleEndian count n).length = count := by
  induction count generalizing n with
  | zero => rfl
  | succ count ih => rw [littleEndian, List.length_cons, ih]

theorem littleEndian_injective {count n m : ℕ} (hn : n < 256 ^ count) (hm : m < 256 ^ count)
    (h : littleEndian count n = littleEndian count m) : n = m := by
  induction count generalizing n m with
  | zero => rw [Nat.pow_zero] at hn hm; omega
  | succ count ih =>
    rw [Nat.pow_succ] at hn hm
    obtain ⟨low, high⟩ := List.cons.inj h
    have high := ih (by omega) (by omega) high
    have low := congrArg UInt8.toNat low
    rw [UInt8.toNat_ofNat', UInt8.toNat_ofNat'] at low
    omega

theorem littleEndian_word_injective {w w' : UInt64}
    (h : littleEndian 8 w.toNat = littleEndian 8 w'.toNat) : w = w' :=
  UInt64.toNat_inj.1 (littleEndian_injective w.toNat_lt w'.toNat_lt h)

theorem littleEndian_int_injective {i j : Int64}
    (h : littleEndian 8 i.toUInt64.toNat = littleEndian 8 j.toUInt64.toNat) : i = j :=
  Int64.toBitVec_inj.1 (congrArg UInt64.toBitVec (littleEndian_word_injective h))

variable {a b : Value}

@[simp] theorem hashWrites_canonical (v : Value) : v.canonical.hashWrites = v.hashWrites := by
  cases v with
  | float x =>
    have again : x.canonical.canonical = x.canonical := Binary64.canonical_eq_iff.2 x.key_canonical
    simp only [canonical, hashWrites, again, kind]
  | null | bool | int | text | bytes => rfl

theorem kind_eq_of_ofNat_rank (h : UInt8.ofNat a.kind.rank = UInt8.ofNat b.kind.rank) :
    a.kind = b.kind := by
  cases ha : a.kind <;> cases hb : b.kind <;> first | rfl | simp [ha, hb, Kind.rank] at h

/-- Of writes that go on after those of a value, the value and the rest can be told. -/
theorem hashWrites_append {r r' : List Bytes} (h : a.hashWrites ++ r = b.hashWrites ++ r') :
    a.canonical = b.canonical ∧ r = r' := by
  obtain ⟨rank, rest⟩ := List.cons.inj h
  have kinds := kind_eq_of_ofNat_rank (List.cons.inj rank).1
  cases alike_of_kind kinds with
  | null => exact ⟨rfl, rest⟩
  | bool x y =>
    obtain ⟨same, rest⟩ := List.cons.inj rest
    refine ⟨?_, rest⟩
    cases x <;> cases y <;> first | rfl | simp at same
  | int i j =>
    obtain ⟨same, rest⟩ := List.cons.inj rest
    exact ⟨congrArg int (littleEndian_int_injective same), rest⟩
  | float x y =>
    obtain ⟨same, rest⟩ := List.cons.inj rest
    exact ⟨congrArg float (congrArg Binary64.mk (littleEndian_word_injective same)), rest⟩
  | text s t =>
    obtain ⟨same, rest⟩ := List.cons.inj rest
    exact ⟨congrArg text (Bytes.ofText_injective same), (List.cons.inj rest).2⟩
  | bytes x y =>
    obtain ⟨same, rest⟩ := List.cons.inj (List.cons.inj rest).2
    exact ⟨congrArg bytes same, rest⟩

def Countable : Value → Prop
  | bytes b => b.length < 2 ^ 64
  | _ => True

theorem hashInput_append {r r' : Bytes} (lengths : r.length = r'.length ∨ a.Countable ∧ b.Countable)
    (h : a.hashInput ++ r = b.hashInput ++ r') : a.canonical = b.canonical ∧ r = r' := by
  rw [hashInput.eq_def, hashInput.eq_def, List.cons_append, List.cons_append] at h
  obtain ⟨rank, rest⟩ := List.cons.inj h
  have kinds := kind_eq_of_ofNat_rank rank
  cases alike_of_kind kinds with
  | null => exact ⟨rfl, rest⟩
  | bool x y =>
    obtain ⟨same, rest⟩ := List.cons.inj rest
    refine ⟨?_, rest⟩
    cases x <;> cases y <;> first | rfl | simp at same
  | int i j =>
    obtain ⟨same, rest⟩ := List.append_inj rest (by simp)
    exact ⟨congrArg int (littleEndian_int_injective same), rest⟩
  | float x y =>
    obtain ⟨same, rest⟩ := List.append_inj rest (by simp)
    exact ⟨congrArg float (congrArg Binary64.mk (littleEndian_word_injective same)), rest⟩
  | text s t =>
    simp only [List.append_assoc, List.cons_append, List.nil_append] at rest
    obtain ⟨same, rest⟩ :=
      Bytes.append_cons_inj (Bytes.notMem_ofText s) (Bytes.notMem_ofText t) rest
    exact ⟨congrArg text (Bytes.ofText_injective same), rest⟩
  | bytes x y =>
    simp only [List.append_assoc] at rest
    obtain ⟨same, rest⟩ := List.append_inj rest (by simp)
    have size : x.length = y.length := by
      rcases lengths with equal | ⟨few, few'⟩
      · have total := congrArg List.length rest
        rw [List.length_append, List.length_append] at total
        omega
      · exact littleEndian_injective few few' same
    obtain ⟨content, rest⟩ := List.append_inj rest size
    exact ⟨congrArg bytes content, rest⟩

theorem same_iff_hashWrites : a.same b = true ↔ a.hashWrites = b.hashWrites := by
  rw [same_iff]
  constructor
  · intro forms
    rw [← hashWrites_canonical a, forms, hashWrites_canonical]
  · intro writes
    exact (hashWrites_append (congrArg (· ++ []) writes)).1

theorem same_iff_hashInput : a.same b = true ↔ a.hashInput = b.hashInput := by
  constructor
  · intro same
    rw [← flatten_hashWrites, same_iff_hashWrites.1 same, flatten_hashWrites]
  · intro input
    exact same_iff.2 (hashInput_append (.inl rfl) (congrArg (· ++ []) input)).1

end RowQuery.Value
