import Mathlib.Algebra.Order.Floor.Div
import RowQuery.Proofs.Outcome
import RowQuery.Proofs.Splits

/-!
How many parts there are and which rows they hold. The result of a wide stage is cut at the
multiples of one length, the least one with which there are no more parts than the degree of
parallelism says; the narrow stages after it leave the parts where they are.
-/

namespace RowQuery

section

variable {α : Type} {length : ℕ} {l : List α} {parts : List (List α)}

/-- The rounds of a loop that cuts up a list: as long as something is left, what comes next is
taken, as much as the length says. A loop that does not end has no rounds. -/
inductive Rounds (length : ℕ) : List α → List (List α) → Prop
  | done : Rounds length [] []
  | round {l : List α} {parts : List (List α)} (left : l ≠ [])
      (rest : Rounds length (l.drop length) parts) :
      Rounds length l (l.take length :: parts)

theorem Rounds.eq_nil_or_pos (rounds : Rounds length l parts) : l = [] ∨ 0 < length := by
  induction rounds with
  | done => exact .inl rfl
  | @round l parts left _ ih =>
    -- a round of length zero has the same list to go on with
    rcases Nat.eq_zero_or_pos length with rfl | pos
    · exact ih
    · exact .inr pos

theorem chunks_nil (length : ℕ) : chunks length ([] : List α) = [] := by
  rw [chunks]
  rfl

theorem chunks_of_ne_nil (pos : 0 < length) (left : l ≠ []) :
    chunks length l = l.take length :: chunks length (l.drop length) := by
  rw [chunks, List.isEmpty_eq_false_iff.2 left, max_eq_left (Nat.one_le_of_lt pos)]
  rfl

/-- The loop ends where there is nothing or where the length is not zero, and then with the
chunks. -/
theorem rounds_iff : Rounds length l parts ↔ (l = [] ∨ 0 < length) ∧ parts = chunks length l := by
  constructor
  · intro rounds
    refine ⟨rounds.eq_nil_or_pos, ?_⟩
    induction rounds with
    | done => rw [chunks_nil]
    | round left rest ih =>
      have pos := ((Rounds.round left rest).eq_nil_or_pos).resolve_left left
      rw [chunks_of_ne_nil pos left, ih]
  · rintro ⟨ends, rfl⟩
    fun_induction chunks length l with
    | case1 l empty =>
      rw [List.isEmpty_iff.1 empty]
      exact .done
    | case2 l some ih =>
      have left : l ≠ [] := fun empty => some (List.isEmpty_iff.2 empty)
      have pos := ends.resolve_left left
      rw [max_eq_left (Nat.one_le_of_lt pos)] at ih ⊢
      exact .round left (ih (.inr pos))

def block (length : ℕ) (l : List α) (i : ℕ) : List α :=
  l.extract (i * length) (min ((i + 1) * length) l.length)

theorem block_zero (length : ℕ) (l : List α) : block length l 0 = l.take length := by
  rw [block, List.extract_eq_take_drop, Nat.zero_add, Nat.one_mul, Nat.zero_mul, List.drop_zero,
    Nat.sub_zero, List.take_eq_take_iff]
  omega

theorem block_succ (length : ℕ) (l : List α) (i : ℕ) :
    block length l (i + 1) = block length (l.drop length) i := by
  have start : (i + 1) * length = length + i * length := by rw [Nat.succ_mul, Nat.add_comm]
  have size : min ((i + 1 + 1) * length) l.length - (i + 1) * length
      = min ((i + 1) * length) (l.length - length) - i * length := by
    simp only [Nat.succ_mul]
    omega
  rw [block, block, List.extract_eq_take_drop, List.extract_eq_take_drop, List.drop_drop,
    List.length_drop, size, start]

theorem ceilDiv_eq_succ {n : ℕ} (pos : 0 < length) (left : 0 < n) :
    n ⌈/⌉ length = (n - length) ⌈/⌉ length + 1 := by
  have whole : n + length - 1 = n - 1 + length := by omega
  rw [Nat.ceilDiv_eq_add_pred_div, Nat.ceilDiv_eq_add_pred_div, whole, Nat.add_div_right _ pos]
  congr 1
  rcases Nat.le_total length n with full | short
  · rw [Nat.sub_add_cancel full]
  · rw [Nat.sub_eq_zero_of_le short, Nat.div_eq_of_lt (by omega), Nat.div_eq_of_lt (by omega)]

theorem chunks_eq_map (pos : 0 < length) (l : List α) :
    chunks length l = (List.range (l.length ⌈/⌉ length)).map (block length l) := by
  fun_induction chunks length l with
  | case1 l empty =>
    rw [List.isEmpty_iff.1 empty, List.length_nil, zero_ceilDiv]
    rfl
  | case2 l some ih =>
    have left : 0 < l.length := List.length_pos_iff.2 fun empty => some (List.isEmpty_iff.2 empty)
    -- the first block is taken off here; those of what is dropped are the others, moved by one
    rw [max_eq_left (Nat.one_le_of_lt pos), List.length_drop] at ih
    rw [max_eq_left (Nat.one_le_of_lt pos), ih, ceilDiv_eq_succ pos left, List.range_succ_eq_map,
      List.map_cons, List.map_map, block_zero]
    congr 1
    exact List.map_congr_left fun i _ => (block_succ length l i).symm

theorem ceilDiv_pos {count : ℕ} (pos : 0 < count) (left : l ≠ []) : 0 < l.length ⌈/⌉ count := by
  by_contra none
  rw [Nat.not_lt, ceilDiv_le_iff_le_mul pos, Nat.mul_zero, Nat.le_zero,
    List.length_eq_zero_iff] at none
  exact left none

theorem ceilDiv_ceilDiv_le {count : ℕ} (pos : 0 < count) (l : List α) :
    l.length ⌈/⌉ (l.length ⌈/⌉ count) ≤ count := by
  rcases Classical.em (l = []) with rfl | left
  · rw [List.length_nil, zero_ceilDiv]
    exact Nat.zero_le count
  · rw [ceilDiv_le_iff_le_mul (ceilDiv_pos pos left), Nat.mul_comm]
    exact le_smul_ceilDiv pos

theorem splitRows_eq_chunks (count : ℕ) (l : List α) :
    splitRows count l = chunks (l.length ⌈/⌉ max count 1) l := by
  have one : 1 ≤ max count 1 := Nat.le_max_right _ _
  rw [splitRows, Nat.ceilDiv_eq_add_pred_div, Nat.add_sub_assoc one]

theorem rounds_splitRows {count : ℕ} :
    Rounds (l.length ⌈/⌉ max count 1) l parts ↔ parts = splitRows count l := by
  rw [rounds_iff, splitRows_eq_chunks, and_iff_right_iff_imp]
  rintro -
  rcases Classical.em (l = []) with empty | left
  · exact .inl empty
  · exact .inr (ceilDiv_pos (Nat.lt_of_lt_of_le Nat.one_pos (Nat.le_max_right _ _)) left)

theorem splitRows_eq_map {count : ℕ} (pos : 0 < count) (l : List α) : splitRows count l =
    (List.range (l.length ⌈/⌉ (l.length ⌈/⌉ count))).map (block (l.length ⌈/⌉ count) l) := by
  rw [splitRows_eq_chunks, max_eq_left (Nat.one_le_of_lt pos)]
  rcases Classical.em (l = []) with rfl | left
  · rw [chunks_nil, List.length_nil, zero_ceilDiv, zero_ceilDiv]
    rfl
  · exact chunks_eq_map (ceilDiv_pos pos left) l

theorem getElem_splitRows {count : ℕ} (pos : 0 < count) {i : ℕ}
    (inside : i < (splitRows count l).length) :
    (splitRows count l)[i] = block (l.length ⌈/⌉ count) l i := by
  rw [List.getElem_of_eq (splitRows_eq_map pos l) inside, List.getElem_map, List.getElem_range]

end

variable {store : Store}

theorem runNarrow_eq_ok {units : List SourceUnit} {waiting : List Stage} {parts : List (List Row)} :
    runNarrow store units waiting = .ok parts ↔
      List.Forall₂ (fun unit part => SourceUnit.evaluate store waiting unit = .ok part)
        units parts := by
  rw [runNarrow, gather_eq_ok, ← List.forall₂_eq_eq_eq, List.forall₂_map_left_iff,
    List.forall₂_map_right_iff]

theorem runNarrow_rows_eq_ok {blocks parts : List (List Row)} {waiting : List Stage} :
    runNarrow store (blocks.map .rows) waiting = .ok parts ↔
      List.Forall₂ (fun block part => runStages waiting block = .ok part) blocks parts := by
  rw [runNarrow_eq_ok, List.forall₂_map_left_iff]
  rfl

theorem prepareFrom_narrow (parallelism : ℕ) (units : List SourceUnit) (waiting : List Stage)
    {stages : List Stage} (narrow : ∀ stage ∈ stages, stage.scope = .narrow) :
    prepareFrom store parallelism units waiting stages = .ok (units, waiting ++ stages) := by
  induction stages generalizing waiting with
  | nil => rw [prepareFrom, List.append_nil]
  | cons stage stages ih =>
    obtain ⟨first, rest⟩ := List.forall_mem_cons.1 narrow
    rw [prepareFrom, first, ih _ rest, List.append_assoc]
    rfl

theorem prepareFrom_append (parallelism : ℕ) (units : List SourceUnit)
    (waiting before after : List Stage) :
    prepareFrom store parallelism units waiting (before ++ after) =
      prepareFrom store parallelism units waiting before >>= fun (units, waiting) =>
        prepareFrom store parallelism units waiting after := by
  induction before generalizing units waiting with
  | nil => rfl
  | cons stage before ih =>
    rw [List.cons_append, prepareFrom, prepareFrom]
    cases stage.scope with
    | narrow => exact ih _ _
    | wide => simp only [ih, bind_assoc]

namespace Pipeline

variable {p : Pipeline}

/-- The stages of a pipeline, cut at the last wide one. -/
structure LastWide (p : Pipeline) (before : List Stage) (wide : Stage) (trailing : List Stage) :
    Prop where
  stages : p.stages = before ++ wide :: trailing
  wide : wide.scope = .wide
  narrow : ∀ stage ∈ trailing, stage.scope = .narrow

theorem exists_lastWide (some : ∃ stage ∈ p.stages, stage.scope = .wide) :
    ∃ before wide trailing, p.LastWide before wide trailing := by
  obtain ⟨before, wide, trailing, stages, isWide, others⟩ := exists_last some
  refine ⟨before, wide, trailing, stages, isWide, fun stage member => ?_⟩
  cases scope : stage.scope with
  | narrow => rfl
  | wide => exact absurd scope (others stage member)

theorem LastWide.prepare_eq {before : List Stage} {wide : Stage} {trailing : List Stage}
    (cut : p.LastWide before wide trailing) : p.prepare store = do
      let input ← rows store { p with stages := before }
      let result ← onStage (wide.eval input)
      return ((splitRows p.parallelism result).map .rows, trailing) := by
  rw [prepare, cut.stages, prepareFrom_append]
  simp only [rows, partitions, prepare, bind_assoc, pure_bind, prepareFrom, cut.wide,
    prepareFrom_narrow _ _ _ cut.narrow, List.nil_append]
  rfl

theorem LastWide.partitions_eq_ok {before : List Stage} {wide : Stage} {trailing : List Stage}
    (cut : p.LastWide before wide trailing) {parts : List (List Row)} :
    p.partitions store = .ok parts ↔
      ∃ input result, rows store { p with stages := before } = .ok input ∧
        wide.eval input = .ok result ∧
        List.Forall₂ (fun block part => runStages trailing block = .ok part)
          (splitRows p.parallelism result) parts := by
  rw [partitions, cut.prepare_eq, bind_assoc, bind_eq_ok]
  refine exists_congr fun input => ?_
  rw [exists_and_left, bind_assoc, bind_eq_ok]
  simp only [onStage_eq_ok, pure_bind, runNarrow_rows_eq_ok]

theorem partitions_narrow_eq_ok (narrow : ∀ stage ∈ p.stages, stage.scope = .narrow)
    {parts : List (List Row)} :
    p.partitions store = .ok parts ↔
      List.Forall₂ (fun unit part => SourceUnit.evaluate store p.stages unit = .ok part)
        p.source.units parts := by
  rw [partitions, prepare, prepareFrom_narrow _ _ _ narrow]
  exact runNarrow_eq_ok

/-- The partitions of a pipeline, if it has any result. The degree of parallelism is not zero, and
the loop that splits rows ends for every number of rows and of parts, zero included. Behind the last
wide stage the rows are cut at the multiples of one length, none of the parts is empty, there are no
more of them than the degree of parallelism says, and the narrow stages that follow are run on each.
Without a wide stage every unit of the source is a partition, in their order. -/
theorem partitions_split (store : Store) (p : Pipeline) :
    1 ≤ p.parallelism ∧
    (∀ (count : ℕ) (rows : List Row) (blocks : List (List Row)),
      Rounds (rows.length ⌈/⌉ max count 1) rows blocks ↔ blocks = splitRows count rows) ∧
    (∀ parts, p.partitions store = .ok parts → (∃ stage ∈ p.stages, stage.scope = .wide) →
      ∃ before wide trailing input result length, p.LastWide before wide trailing ∧
        rows store { p with stages := before } = .ok input ∧ wide.eval input = .ok result ∧
        length = result.length ⌈/⌉ p.parallelism ∧ (result = [] → parts = []) ∧
        parts.length = result.length ⌈/⌉ length ∧ parts.length ≤ p.parallelism ∧
        ∀ i (inside : i < parts.length), block length result i ≠ [] ∧
          runStages trailing (block length result i) = .ok parts[i]) ∧
    (∀ parts, p.partitions store = .ok parts → (∀ stage ∈ p.stages, stage.scope = .narrow) →
      List.Forall₂ (fun unit part => SourceUnit.evaluate store p.stages unit = .ok part)
        p.source.units parts) := by
  refine ⟨p.parallelism_pos, fun _ _ _ => rounds_splitRows, fun parts h wide => ?_,
      fun parts h narrow =>
    (partitions_narrow_eq_ok narrow).1 h⟩
  obtain ⟨before, wide, trailing, cut⟩ := exists_lastWide wide
  obtain ⟨input, result, cutRows, evaluated, made⟩ := cut.partitions_eq_ok.1 h
  have count : parts.length = result.length ⌈/⌉ (result.length ⌈/⌉ p.parallelism) := by
    rw [← made.length_eq, splitRows_eq_map p.parallelism_pos, List.length_map, List.length_range]
  refine ⟨before, wide, trailing, input, result, _, cut, cutRows, evaluated, rfl, ?_, count, ?_,
    fun i inside => ?_⟩
  · rintro rfl
    rw [List.length_nil, zero_ceilDiv] at count
    exact List.length_eq_zero_iff.1 count
  · rw [count]
    exact ceilDiv_ceilDiv_le p.parallelism_pos result
  · obtain ⟨same, each⟩ := List.forall₂_iff_get.1 made
    have inside' : i < (splitRows p.parallelism result).length := same ▸ inside
    rw [← getElem_splitRows p.parallelism_pos inside']
    exact ⟨ne_nil_of_mem_chunks (List.getElem_mem inside'), each i inside' inside⟩

theorem partitions_split_four_rows :
    let row (i : Int64) : Row := NameMap.empty.insert "n" (.int i)
    let large : Stage := .filter fun r => do return (← r.lookup "n") == .int 3
    let p : Pipeline :=
      { source := .memory [[row 1], [row 2, row 3, row 4]]
        stages := [.take 5, large]
        parallelism := 3
        parallelism_pos := by decide }
    let q : Pipeline := { p with stages := [large] }
    let parts := [[], [row 3]]
    p.partitions (.memory {}) = .ok parts ∧
    (∃ before wide trailing input result length, p.LastWide before wide trailing ∧
      rows (.memory {}) { p with stages := before } = .ok input ∧ wide.eval input = .ok result ∧
      length = result.length ⌈/⌉ p.parallelism ∧ 2 = result.length ⌈/⌉ length ∧
      block length result 0 ≠ [] ∧
      runStages trailing (block length result 0) = .ok []) ∧
    q.partitions (.memory {}) = .ok parts ∧
    List.Forall₂ (fun unit part => SourceUnit.evaluate (.memory {}) [large] unit = .ok part)
      q.source.units parts := by
  intro row large p q parts
  have split : p.partitions (.memory {}) = .ok parts := by cbv
  have whole : q.partitions (.memory {}) = .ok parts := by cbv
  obtain ⟨-, -, behind, -⟩ := partitions_split (.memory {}) p
  obtain ⟨-, -, -, narrow⟩ := partitions_split (.memory {}) q
  obtain ⟨before, wide, trailing, input, result, length, cut, cutRows, evaluated, cutLength, -,
      count, -, each⟩ :=
    behind parts split ⟨.take 5, List.mem_cons_self, rfl⟩
  obtain ⟨some, made⟩ := each 0 Nat.two_pos
  refine ⟨split, ⟨before, wide, trailing, input, result, length, cut, cutRows, evaluated, cutLength,
    count, some, made⟩,
    whole, narrow parts whole (List.forall_mem_singleton.2 rfl)⟩

end Pipeline

end RowQuery
