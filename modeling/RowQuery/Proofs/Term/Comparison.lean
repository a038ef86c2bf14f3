import RowQuery.Proofs.Term.Logic

/-!
The six comparisons of terms. All of them ask one thing of two values, which way these lie, and are
known or unknown together; so one is the negation of another, and two are the disjunctions of
others, with the failures of the operands.
-/

namespace RowQuery

/-- Which way two values lie, if they are compared at all: null is not, and neither are kinds that
have nothing in common. -/
def Value.meet? (v w : Value) : Option Ordering :=
  if v.isNull || w.isNull then none else v.compare? w

theorem Value.isNull_iff {v : Value} : v.isNull = true ↔ v = .null := by
  cases v <;> simp [isNull]

theorem Value.meet?_eq_none {v w : Value} :
    v.meet? w = none ↔ v = .null ∨ w = .null ∨ v.compare? w = none := by
  rw [meet?]
  split
  · next null => simpa [isNull_iff, or_assoc] using Or.inl null
  · next values =>
    rw [Bool.or_eq_true, not_or, isNull_iff, isNull_iff] at values
    simp [values]

theorem Value.meet?_eq_some {v w : Value} {o : Ordering} (h : v.meet? w = some o) :
    v.compare? w = some o := by
  rw [meet?] at h
  split at h
  · cases h
  · exact h

inductive Comparison
  | eq | notEq | lt | ltEq | gt | gtEq

namespace Comparison

def op : Comparison → BinaryOp
  | eq => .eq
  | notEq => .notEq
  | lt => .lt
  | ltEq => .ltEq
  | gt => .gt
  | gtEq => .gtEq

def opposite : Comparison → Comparison
  | eq => notEq
  | notEq => eq
  | lt => gtEq
  | ltEq => gt
  | gt => ltEq
  | gtEq => lt

def only : Ordering → Comparison
  | .lt => lt
  | .eq => eq
  | .gt => gt

def orEqual : Ordering → Comparison
  | .lt => ltEq
  | .eq => eq
  | .gt => gtEq

variable (c : Comparison) (o p : Ordering) (v w : Value)

def truth : Option Bool := (v.meet? w).map c.op.holds

theorem holds_opposite : c.opposite.op.holds o = !c.op.holds o := by
  cases c <;> cases o <;> rfl

theorem holds_only : (only p).op.holds o = (p == o) := by
  cases p <;> cases o <;> rfl

theorem holds_orEqual :
    (orEqual p).op.holds o = ((only p).op.holds o || (only .eq).op.holds o) := by
  cases p <;> cases o <;> rfl

theorem truth_opposite : c.opposite.truth v w = Truth.not (c.truth v w) := by
  rw [truth, truth]
  cases v.meet? w with
  | none => rfl
  | some o => exact congrArg some (c.holds_opposite o)

theorem truth_orEqual :
    (orEqual p).truth v w = Connective.or.join ((only p).truth v w) ((only .eq).truth v w) := by
  rw [truth, truth, truth]
  cases v.meet? w with
  | none => rfl
  | some o =>
    rw [Option.map_some, holds_orEqual, Option.map_some, Option.map_some]
    cases (only p).op.holds o <;> cases (only .eq).op.holds o <;> rfl

theorem apply_op : c.op.apply v w = .ok (.ofTruth (c.truth v w)) := by
  have asked : c.op.apply v w = if v.isNull || w.isNull then .ok .null else
      .ok (.ofTruth ((v.compare? w).map c.op.holds)) := by
    cases c <;>
      · simp only [op, BinaryOp.apply, BinaryOp.isArithmetic]
        cases v.compare? w <;> rfl
  rw [asked, truth, Value.meet?]
  split <;> rfl

end Comparison

namespace Term

variable (c : Comparison) (o : Ordering) (l r : Expression) (row : Row)

def compared : Eval (Option Bool) := do
  return c.truth (← l row) (← r row)

theorem comparison_eq : binaryExpression c.op l r row = Value.ofTruth <$> compared c l r row := by
  have strictly : binaryExpression c.op l r = strict c.op l r :=
    binaryExpression_of_strict (by cases c <;> decide) l r
  rw [strictly, strict, compared]
  cases l row with
  | error fault => rfl
  | ok v =>
    cases r row with
    | error fault => rfl
    | ok w => exact c.apply_op v w

theorem truthOf_comparison : truthOf (binaryExpression c.op l r) row = compared c l r row :=
  truthOf_eq _ _ (comparison_eq c l r row)

theorem not_compared : Truth.not <$> compared c l r row = compared c.opposite l r row := by
  rw [compared, compared]
  cases l row with
  | error fault => rfl
  | ok v =>
    cases r row with
    | error fault => rfl
    | ok w => exact congrArg Except.ok (c.truth_opposite v w).symm

theorem joinLazily_compared :
    Connective.or.joinLazily (compared (.only o) l r row) (compared (.only .eq) l r row)
    = compared (.orEqual o) l r row := by
  rw [compared, compared, compared]
  cases l row with
  | error fault => rfl
  | ok v =>
    cases r row with
    | error fault => rfl
    | ok w =>
      exact (Connective.or.joinLazily_ok _ _).trans
        (congrArg Except.ok (Comparison.truth_orEqual o v w).symm)

theorem negation_comparison :
    negation (binaryExpression c.op l r) = binaryExpression c.opposite.op l r := by
  funext row
  rw [negation_eq, truthOf_comparison, not_compared, comparison_eq]

theorem or_comparison :
    binaryExpression .or (binaryExpression (Comparison.only o).op l r) (binaryExpression .eq l r)
    = binaryExpression (Comparison.orEqual o).op l r := by
  funext row
  have equal : truthOf (binaryExpression .eq l r) row = compared (.only .eq) l r row :=
    truthOf_comparison .eq l r row
  have joined := binaryExpression_eq .or (binaryExpression (Comparison.only o).op l r)
    (binaryExpression .eq l r) row
  rw [truthOf_comparison, equal, joinLazily_compared] at joined
  rw [comparison_eq]
  exact joined

theorem compile_not_comparison (l r : Term) :
    compile (.unary .not (.binary c.op l r)) = compile (.binary c.opposite.op l r) := by
  simp only [compile]
  cases compile l with
  | error fault => rfl
  | ok a =>
    cases compile r with
    | error fault => rfl
    | ok b => exact congrArg Except.ok (negation_comparison c a b)

theorem compile_or_comparison (l r : Term) :
    compile (.binary .or (.binary (Comparison.only o).op l r) (.binary .eq l r))
      = compile (.binary (Comparison.orEqual o).op l r) := by
  simp only [compile]
  cases compile l with
  | error fault => rfl
  | ok a =>
    cases compile r with
    | error fault => rfl
    | ok b => exact congrArg Except.ok (or_comparison o a b)

/-- The comparisons of two terms agree with each other. Three of them are the negations of the three
others, and two are the disjunctions of others: the terms compile to one function from rows to
values and errors. Where both operands have values, all comparisons are null, which is so when one
of the values is null or they are of kinds that are not compared; or else one of less, equal and
greater is true, and the two others are false. -/
theorem compile_comparisons (l r : Term) :
    compile (.unary .not (.binary .eq l r)) = compile (.binary .notEq l r) ∧
    compile (.unary .not (.binary .lt l r)) = compile (.binary .gtEq l r) ∧
    compile (.unary .not (.binary .gt l r)) = compile (.binary .ltEq l r) ∧
    compile (.binary .ltEq l r) = compile (.binary .or (.binary .lt l r) (.binary .eq l r)) ∧
    compile (.binary .gtEq l r) = compile (.binary .or (.binary .gt l r) (.binary .eq l r)) ∧
    ∀ a b, compile l = .ok a → compile r = .ok b → ∃ e : Comparison → Expression,
      (∀ c, compile (.binary c.op l r) = .ok (e c)) ∧
      ∀ row v w, a row = .ok v → b row = .ok w →
        ((v = .null ∨ w = .null ∨ v.compare? w = none) ∧ ∀ c, e c row = .ok .null) ∨
        (¬ (v = .null ∨ w = .null ∨ v.compare? w = none) ∧
          ∃ o, v.compare? w = some o ∧ ∀ p, e (.only p) row = .ok (.bool (p == o))) := by
  refine ⟨compile_not_comparison .eq l r, compile_not_comparison .lt l r,
    compile_not_comparison .gt l r,
    (compile_or_comparison .lt l r).symm, (compile_or_comparison .gt l r).symm, fun a b hl hr => ?_⟩
  refine ⟨fun c => binaryExpression c.op a b, fun c => by rw [compile, hl, hr]; rfl,
    fun row v w left right => ?_⟩
  have said (c : Comparison) : binaryExpression c.op a b row = .ok (.ofTruth (c.truth v w)) := by
    rw [comparison_eq, compared, left, right]
    rfl
  cases meet : v.meet? w with
  | none =>
    refine .inl ⟨Value.meet?_eq_none.1 meet, fun c => (said c).trans ?_⟩
    rw [Comparison.truth, meet]
    rfl
  | some o =>
    have known : v.meet? w ≠ none := by simp [meet]
    refine .inr ⟨mt Value.meet?_eq_none.2 known, o, Value.meet?_eq_some meet,
      fun p => (said (.only p)).trans ?_⟩
    rw [Comparison.truth, meet, Option.map_some, Comparison.holds_only]
    rfl

theorem compile_comparisons_rounded :
    let row : Row :=
      ((NameMap.empty.insert "i" (.int 9007199254740993)).insert "n" (.float .nan)).insert "x"
      (.float (.ofInt 9007199254740992))
    let i := column ["i"]
    let n := column ["n"]
    let x := column ["x"]
    (∃ e, compile (.binary .eq i x) = .ok e ∧ e row = .ok (.bool true)) ∧
    (∃ e, compile (.binary .eq n n) = .ok e ∧ e row = .ok (.bool true)) ∧
    (∃ e, compile (.binary .gt n i) = .ok e ∧ e row = .ok (.bool true)) ∧
    (∃ e, compile (.binary .notEq i (text "i")) = .ok e ∧ e row = .ok .null) := by
  intro row i n x
  have asked {l r : Term} {a b : Expression} {v w : Value} {o : Ordering} (hl : compile l = .ok a)
    (hr : compile r = .ok b)
      (left : a row = .ok v) (right : b row = .ok w) (values : v ≠ .null ∧ w ≠ .null)
        (meet : v.compare? w = some o) :
      ∃ e, compile (.binary (Comparison.only o).op l r) = .ok e ∧ e row = .ok (.bool true) := by
    obtain ⟨-, -, -, -, -, laws⟩ := compile_comparisons l r
    obtain ⟨e, compiled, said⟩ := laws a b hl hr
    rcases said row v w left right with ⟨unknown, -⟩ | ⟨-, o', meet', one⟩
    · simp [values, meet] at unknown
    · obtain rfl : o = o' := Option.some.inj (meet.symm.trans meet')
      exact ⟨_, compiled _, (one o).trans (by simp)⟩
  refine ⟨?_, ?_, ?_, ?_⟩
  · exact asked (o := .eq) rfl rfl rfl rfl (by decide) (by decide +kernel)
  · exact asked (o := .eq) rfl rfl rfl rfl (by decide) (by decide +kernel)
  · exact asked (o := .gt) rfl rfl rfl rfl (by decide) (by decide +kernel)
  · obtain ⟨-, -, -, -, -, laws⟩ := compile_comparisons i (text "i")
    obtain ⟨e, compiled, said⟩ := laws _ _ rfl rfl
    rcases said row (.int 9007199254740993) (.text "i") rfl rfl with ⟨-, unknown⟩ | ⟨known, -⟩
    · exact ⟨_, compiled .notEq, unknown .notEq⟩
    · exact absurd (.inr (.inr rfl)) known

end Term

end RowQuery
