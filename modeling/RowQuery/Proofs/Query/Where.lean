import Mathlib.Logic.ExistsUnique
import RowQuery.Proofs.Query.Plan
import RowQuery.Proofs.Term.Logic

/-!
The filter of a query and its negation. A filter keeps a row only where its term is true; where the
term is false its negation keeps the row, and where it is null neither does, which is what the test
for null is there for.
-/

namespace RowQuery

namespace Term

/-- A query with the term as its filter keeps these of the rows. -/
def Keeps (t : Term) (rows kept : List Row) : Prop :=
  ∃ stages, filterStages compile (some t) = .ok stages ∧ runStages stages rows = .ok kept

/-- The term that is true where a term has the truth value. -/
def asking (t : Term) : Option Bool → Term
  | some true => t
  | some false => .unary .not t
  | none => .isNull t false

variable {t : Term} {e : Expression} {row : Row} {rows kept : List Row}

theorem compiled_of_keeps (h : t.Keeps rows kept) : ∃ e, compile t = .ok e := by
  obtain ⟨stages, planned, -⟩ := h
  rw [filterStages, compileTerm] at planned
  cases compiled : compile t with
  | error fault =>
    rw [compiled] at planned
    cases planned
  | ok e => exact ⟨e, rfl⟩

theorem keeps_iff (compiled : compile t = .ok e) : t.Keeps rows kept ↔
    (∀ row ∈ rows, ∃ v, e row = .ok v) ∧
    kept = rows.filter fun row => (e row).toOption = some (.bool true) := by
  have planned : filterStages compile (some t) = .ok [filterStage e] := by
    rw [filterStages, compileTerm, compiled]
    rfl
  have ran : t.Keeps rows kept ↔ keepTrue? e rows = some kept := by
    simp only [Keeps, planned, Except.ok.injEq, exists_eq_left']
    rw [← toOption_filterStage, toOption_eq_some]
  have valued (row : Row) : (∃ v, e row = .ok v) ↔ (e row).toOption.isSome = true := by
    simp only [Option.isSome_iff_exists, toOption_eq_some]
  simp only [ran, keepTrue?, valued]
  split
  · next all => rw [Option.some.injEq, and_iff_right all, eq_comm]
  · next some => simp only [reduceCtorEq, some, false_and]

theorem exists_truth (h : ∃ v, negation e row = .ok v) : ∃ s, e row = .ok (.ofTruth s) := by
  obtain ⟨v, negated⟩ := h
  rw [negation] at negated
  cases meant : e row with
  | error fault =>
    rw [meant] at negated
    cases negated
  | ok w =>
    rw [meant] at negated
    cases w with
    | null => exact ⟨none, rfl⟩
    | bool b => exact ⟨some b, rfl⟩
    | int | float | text | bytes => cases negated

theorem compile_asking (compiled : compile t = .ok e) (answer : Option Bool) :
    ∃ asked, compile (t.asking answer) = .ok asked ∧
      ∀ row s, e row = .ok (.ofTruth s) →
        ∃ v, asked row = .ok v ∧ (v = .bool true ↔ s = answer) := by
  rcases answer with _ | _ | _
  · refine ⟨fun row => return .bool ((← e row).isNull != false),
      by rw [asking, compile, compiled]; rfl, fun row s meant => ?_⟩
    refine ⟨.bool ((Value.ofTruth s).isNull != false), by simp only [meant]; rfl, ?_⟩
    cases s <;> simp [Value.ofTruth, Value.isNull]
  · refine ⟨negation e, by rw [asking, compile, compiled]; rfl,
      fun row s meant => ⟨.ofTruth (Truth.not s), ?_, ?_⟩⟩
    · rw [negation_eq, truthOf_ofTruth e row meant]
      rfl
    · cases s <;> simp [Value.ofTruth, Truth.not]
  · refine ⟨e, compiled, fun row s meant => ⟨.ofTruth s, meant, ?_⟩⟩
    cases s <;> simp [Value.ofTruth]

theorem perm_of_truth (truth : Row → Option Bool) (rows : List Row) :
    (rows.filter (truth · = some true) ++ rows.filter (truth · = some false) ++
      rows.filter (truth · = none)).Perm rows := by
  have no (row : Row) :
      (decide (truth row = some false) && !decide (truth row = some true))
      = decide (truth row = some false) := by
    rcases truth row with _ | _ | _ <;> rfl
  have unknown (row : Row) :
      (!decide (truth row = some false) && !decide (truth row = some true))
      = decide (truth row = none) := by
    rcases truth row with _ | _ | _ <;> rfl
  have others := List.filter_append_perm (truth · = some false)
    (rows.filter fun row => !decide (truth row = some true))
  simp only [List.filter_filter, no, unknown] at others
  rw [List.append_assoc]
  exact (others.append_left _).trans (List.filter_append_perm _ rows)

/-- The filters by a term, by its negation and by the test whether it is null cut the rows into
three, where all of them succeed: what the term says of a row picks the one filter that keeps it.
Each keeps its rows in their order, and together they have every row once. -/
theorem keeps_three_ways {t : Term} {rows : List Row} {kept : Option Bool → List Row}
    (h : ∀ answer, (t.asking answer).Keeps rows (kept answer)) :
    (∃ truth : Row → Option Bool, ∀ answer, kept answer = rows.filter (truth · = answer)) ∧
    (∀ row ∈ rows, ∃! answer, row ∈ kept answer) ∧ (∀ answer, (kept answer).Sublist rows) ∧
    (kept (some true) ++ kept (some false) ++ kept none).Perm rows := by
  obtain ⟨e, compiled⟩ : ∃ e, compile t = .ok e := compiled_of_keeps (h (some true))
  have truths (row : Row) (hrow : row ∈ rows) : ∃ s, e row = .ok (.ofTruth s) := by
    have negated : compile (t.asking (some false)) = .ok (negation e) := by
      rw [asking, compile, compiled]
      rfl
    exact exists_truth (((keeps_iff negated).1 (h (some false))).1 row hrow)
  let truth (row : Row) : Option Bool := (truthOf e row).toOption.join
  have cut (answer : Option Bool) : kept answer = rows.filter (truth · = answer) := by
    obtain ⟨asked, answered, tells⟩ := compile_asking compiled answer
    rw [((keeps_iff answered).1 (h answer)).2]
    refine List.filter_congr fun row hrow => ?_
    obtain ⟨s, meant⟩ := truths row hrow
    obtain ⟨v, asks, isTrue⟩ := tells row s meant
    simp [truth, truthOf_ofTruth e row meant, asks, isTrue]
  refine ⟨⟨truth, cut⟩, fun row hrow => ⟨truth row, ?_, fun answer member => ?_⟩,
    fun answer => ?_, ?_⟩
  · simp [cut, hrow]
  · simp only [cut, List.mem_filter, decide_eq_true_eq] at member
    exact member.2.symm
  · rw [cut]
    exact List.filter_sublist
  · rw [cut, cut, cut]
    exact perm_of_truth truth rows

theorem keeps_three_ways_incomparable :
    let row (x : Value) : Row := NameMap.empty.insert "x" x
    let rows := [row (.text "a"), row (.int 2), row .null, row (.float ⟨0⟩), row (.int 3)]
    let t : Term := .binary .gt (.column ["x"]) (.int 1)
    let kept (answer : Option Bool) : List Row :=
      match answer with
      | some true => [row (.int 2), row (.int 3)]
      | some false => [row (.float ⟨0⟩)]
      | none => [row (.text "a"), row .null]
    (∀ answer, (t.asking answer).Keeps rows (kept answer)) ∧
    (∃! answer, row (.text "a") ∈ kept answer) ∧
    (kept (some true) ++ kept (some false) ++ kept none).Perm rows := by
  intro row rows t kept
  have h (answer : Option Bool) : (t.asking answer).Keeps rows (kept answer) := by
    rcases answer with _ | _ | _
    · exact ⟨_, rfl, by rfl⟩
    · exact ⟨_, rfl, by rfl⟩
    · exact ⟨_, rfl, by rfl⟩
  obtain ⟨-, once, -, whole⟩ := keeps_three_ways h
  exact ⟨h, once _ (by simp [rows]), whole⟩

end Term

end RowQuery
