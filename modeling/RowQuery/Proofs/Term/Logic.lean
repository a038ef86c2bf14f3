import RowQuery.Term.Eval

/-!
The three-valued logic of terms. The two connectives are one function of the truth value that
decides them, and so their laws are stated once. They hold with the failures of the operands, which
are looked at from left to right and no further than the first one that decides.
-/

namespace RowQuery

inductive Connective
  | and | or

namespace Connective

def op : Connective → BinaryOp
  | and => .and
  | or => .or

def dual : Connective → Connective
  | and => or
  | or => and

/-- The truth value of one operand that leaves no choice to the other. -/
def decisive : Connective → Bool
  | and => false
  | or => true

def extreme : Connective → Nat → Nat → Nat
  | and => min
  | or => max

def join : Connective → Option Bool → Option Bool → Option Bool
  | and => Truth.and
  | or => Truth.or

/-- The connective of truth values that are looked at from left to right until one decides. -/
def joinLazily (c : Connective) (x y : Eval (Option Bool)) : Eval (Option Bool) := do
  let a ← x
  if a = some c.decisive then return a
  return c.join a (← y)

end Connective

namespace Truth

def rank : Option Bool → Nat
  | some false => 0
  | none => 1
  | some true => 2

theorem rank_not (a : Option Bool) : rank (not a) = 2 - rank a := by
  rcases a with _ | _ | _ <;> rfl

theorem rank_and (a b : Option Bool) : rank (and a b) = min (rank a) (rank b) := by
  rcases a with _ | _ | _ <;> rcases b with _ | _ | _ <;> rfl

theorem rank_or (a b : Option Bool) : rank (or a b) = max (rank a) (rank b) := by
  rcases a with _ | _ | _ <;> rcases b with _ | _ | _ <;> rfl

theorem rank_injective {a b : Option Bool} (h : rank a = rank b) : a = b := by
  rcases a with _ | _ | _ <;> rcases b with _ | _ | _ <;> first | rfl | cases h

end Truth

namespace Connective

open Truth (rank rank_and rank_or rank_injective)

variable (c : Connective) (a b d : Option Bool) (x y z : Eval (Option Bool))

theorem rank_join : rank (c.join a b) = c.extreme (rank a) (rank b) := by
  cases c with
  | and => exact Truth.rank_and a b
  | or => exact Truth.rank_or a b

theorem join_comm : c.join a b = c.join b a := by
  apply rank_injective
  cases c with
  | and => rw [join, rank_and, rank_and, Nat.min_comm]
  | or => rw [join, rank_or, rank_or, Nat.max_comm]

theorem join_assoc : c.join (c.join a b) d = c.join a (c.join b d) := by
  apply rank_injective
  cases c with
  | and => simp only [join, rank_and, Nat.min_assoc]
  | or => simp only [join, rank_or, Nat.max_assoc]

theorem join_decisive : c.join (some c.decisive) b = some c.decisive := by
  cases c <;> rfl

theorem not_join : Truth.not (c.join a b) = c.dual.join (Truth.not a) (Truth.not b) := by
  cases c <;> rcases a with _ | _ | _ <;> rcases b with _ | _ | _ <;> rfl

theorem not_eq_decisive : Truth.not a = some c.dual.decisive ↔ a = some c.decisive := by
  cases c <;> rcases a with _ | _ | _ <;> decide

theorem join_eq_decisive :
    c.join a b = some c.decisive ↔ a = some c.decisive ∨ b = some c.decisive := by
  cases c <;> rcases a with _ | _ | _ <;> rcases b with _ | _ | _ <;> decide

theorem joinLazily_decided : c.joinLazily (.ok (some c.decisive)) y = .ok (some c.decisive) := by
  rw [joinLazily]
  change ite _ _ _ = _
  rw [if_pos rfl]
  rfl

theorem joinLazily_undecided {a : Option Bool} (h : a ≠ some c.decisive) :
    c.joinLazily (.ok a) y = c.join a <$> y := by
  rw [joinLazily]
  change ite _ _ _ = _
  rw [if_neg h]
  cases y <;> rfl

theorem joinLazily_ok : c.joinLazily (.ok a) (.ok b) = .ok (c.join a b) := by
  rcases Decidable.em (a = some c.decisive) with rfl | undecided
  · rw [joinLazily_decided, join_decisive]
  · rw [joinLazily_undecided c _ undecided]
    rfl

theorem not_joinLazily :
    Truth.not <$> c.joinLazily x y = c.dual.joinLazily (Truth.not <$> x) (Truth.not <$> y) := by
  cases x with
  | error e => rfl
  | ok a =>
    change _ = c.dual.joinLazily (.ok (Truth.not a)) _
    rcases Decidable.em (a = some c.decisive) with rfl | undecided
    · have turned : Truth.not (some c.decisive) = some c.dual.decisive :=
        (c.not_eq_decisive _).2 rfl
      rw [turned, joinLazily_decided, joinLazily_decided]
      exact congrArg Except.ok turned
    · rw [joinLazily_undecided c _ undecided,
        joinLazily_undecided c.dual _ (mt (c.not_eq_decisive a).1 undecided)]
      cases y with
      | error e => rfl
      | ok b => exact congrArg Except.ok (c.not_join a b)

theorem joinLazily_assoc :
    c.joinLazily (c.joinLazily x y) z = c.joinLazily x (c.joinLazily y z) := by
  cases x with
  | error e => rfl
  | ok a =>
    rcases Decidable.em (a = some c.decisive) with rfl | undecided
    · rw [joinLazily_decided, joinLazily_decided, joinLazily_decided]
    · rw [joinLazily_undecided c _ undecided, joinLazily_undecided c _ undecided]
      cases y with
      | error e => rfl
      | ok b =>
        change c.joinLazily (.ok (c.join a b)) z = _
        -- the second operand decides the two together exactly when it decides alone
        rcases Decidable.em (b = some c.decisive) with rfl | undecided'
        · have joined : c.join a (some c.decisive) = some c.decisive :=
            (c.join_comm a _).trans (c.join_decisive a)
          rw [joined, joinLazily_decided]
          exact congrArg Except.ok joined.symm
        · have joined : c.join a b ≠ some c.decisive := by
            simp [join_eq_decisive, undecided, undecided']
          rw [joinLazily_undecided c _ joined, joinLazily_undecided c _ undecided']
          cases z with
          | error e => rfl
          | ok d => exact congrArg Except.ok (c.join_assoc a b d)

end Connective

@[simp] theorem Value.truth_ofTruth (a : Option Bool) : (Value.ofTruth a).truth = .ok a := by
  cases a <;> rfl

theorem UnaryOp.apply_not (v : Value) :
    UnaryOp.not.apply v = (fun a => .ofTruth (Truth.not a)) <$> v.truth := by
  cases v <;> rfl

theorem Connective.apply_op (c : Connective) (a b : Option Bool) :
    c.op.apply (.ofTruth a) (.ofTruth b) = .ok (.ofTruth (c.join a b)) := by
  cases c <;> simp [op, join, BinaryOp.apply, bind, Except.bind, pure, Except.pure]

namespace Term

def truthOf (e : Expression) (row : Row) : Eval (Option Bool) := do
  (← e row).truth

def negation (e : Expression) : Expression := fun row => do
  UnaryOp.not.apply (← e row)

variable (c : Connective) (e l m r : Expression) (row : Row)

theorem negation_eq : negation e row = Value.ofTruth <$> Truth.not <$> truthOf e row := by
  rw [negation, truthOf]
  cases e row with
  | error fault => rfl
  | ok v =>
    change UnaryOp.not.apply v = Value.ofTruth <$> Truth.not <$> v.truth
    rw [UnaryOp.apply_not]
    cases v.truth <;> rfl

theorem binaryExpression_eq :
    binaryExpression c.op l r row = Value.ofTruth <$> c.joinLazily (truthOf l row)
      (truthOf r row) := by
  have looked (a : Option Bool) :
      (r row >>= fun v => v.truth >>= fun b => .ok (Value.ofTruth (c.join a b)))
      = Value.ofTruth <$> c.join a <$> truthOf r row := by
    rw [truthOf]
    cases r row with
    | error fault => rfl
    | ok v =>
      change (v.truth >>= _) = Value.ofTruth <$> c.join a <$> v.truth
      cases v.truth <;> rfl
  cases c with
  | and =>
    change andThen l r row = _
    rw [andThen, truthOf]
    cases l row with
    | error fault => rfl
    | ok v =>
      change (v.truth >>= _) = Value.ofTruth <$> Connective.and.joinLazily v.truth _
      rcases v.truth with fault | _ | _ | _
      · rfl
      · rw [Connective.joinLazily_undecided _ _ (by decide)]
        exact looked none
      · rfl
      · rw [Connective.joinLazily_undecided _ _ (by decide)]
        exact looked (some true)
  | or =>
    change orElse l r row = _
    rw [orElse, truthOf]
    cases l row with
    | error fault => rfl
    | ok v =>
      change (v.truth >>= _) = Value.ofTruth <$> Connective.or.joinLazily v.truth _
      rcases v.truth with fault | _ | _ | _
      · rfl
      · rw [Connective.joinLazily_undecided _ _ (by decide)]
        exact looked none
      · rw [Connective.joinLazily_undecided _ _ (by decide)]
        exact looked (some false)
      · rfl

theorem truthOf_eq {x : Eval (Option Bool)} (h : e row = Value.ofTruth <$> x) :
    truthOf e row = x := by
  rw [truthOf, h]
  cases x with
  | error fault => rfl
  | ok a => exact Value.truth_ofTruth a

theorem truthOf_ofTruth {a : Option Bool} (h : e row = .ok (.ofTruth a)) : truthOf e row = .ok a :=
  truthOf_eq e row (x := .ok a) h

theorem truthOf_eq_error {fault : EvalError} :
    truthOf e row = .error fault ↔ e row = .error fault ∨
    ∃ v, e row = .ok v ∧ v.truth = .error fault := by
  rw [truthOf]
  cases e row with
  | error other => simp [bind, Except.bind]
  | ok v => simp [bind, Except.bind]

theorem negation_binaryExpression :
    negation (binaryExpression c.op l r) = binaryExpression c.dual.op (negation l)
      (negation r) := by
  funext row
  calc
    negation (binaryExpression c.op l r) row
        = Value.ofTruth <$> Truth.not <$> c.joinLazily (truthOf l row) (truthOf r row) := by
      rw [negation_eq, truthOf_eq _ _ (binaryExpression_eq c l r row)]
    _ = Value.ofTruth <$> c.dual.joinLazily (truthOf (negation l) row)
      (truthOf (negation r) row) := by
      rw [Connective.not_joinLazily, truthOf_eq _ _ (negation_eq l row),
        truthOf_eq _ _ (negation_eq r row)]
    _ = binaryExpression c.dual.op (negation l) (negation r) row :=
      (binaryExpression_eq _ _ _ _).symm

theorem binaryExpression_assoc :
    binaryExpression c.op (binaryExpression c.op l m) r
      = binaryExpression c.op l (binaryExpression c.op m r) := by
  funext row
  rw [binaryExpression_eq, binaryExpression_eq, truthOf_eq _ _ (binaryExpression_eq c l m row),
    truthOf_eq _ _ (binaryExpression_eq c m r row), Connective.joinLazily_assoc]

variable {l r row}

theorem binaryExpression_of_truths {a b : Option Bool} (left : l row = .ok (.ofTruth a))
    (right : r row = .ok (.ofTruth b)) :
    binaryExpression c.op l r row = .ok (.ofTruth (c.join a b)) := by
  rw [binaryExpression_eq, truthOf_ofTruth l row left, truthOf_ofTruth r row right,
    Connective.joinLazily_ok]
  rfl

theorem binaryExpression_of_error {a : Option Bool} {fault : EvalError}
    (left : l row = .ok (.ofTruth a)) (right : truthOf r row = .error fault) :
    binaryExpression c.op l r row = if a = some c.decisive then .ok (.bool c.decisive)
      else .error fault := by
  rw [binaryExpression_eq, truthOf_ofTruth l row left, right]
  split
  · next decided =>
    rw [decided, Connective.joinLazily_decided]
    rfl
  · next undecided =>
    rw [Connective.joinLazily_undecided _ _ undecided]
    rfl

/-- Compiled terms keep to Kleene's three-valued logic, whatever their parts are and also where
these fail. A negated connective is the dual connective of negated operands, and a connective may be
taken together from either side: the terms compile to one function from rows to values and errors.
Of two truth values a connective is the lesser or the greater one, in either order, as it is where
both operands are looked at. A second operand that fails, or that is no truth value, is passed over
where the first one decides, and only there. -/
theorem compile_connectives (c : Connective) (l m r : Term) :
    compile (.unary .not (.binary c.op l r))
      = compile (.binary c.dual.op (.unary .not l) (.unary .not r)) ∧
    compile (.binary c.op (.binary c.op l m) r) = compile (.binary c.op l (.binary c.op m r)) ∧
    (∀ a, compile l = .ok a → ∃ e, compile (.unary .not l) = .ok e ∧
      ∀ row s, a row = .ok (.ofTruth s) →
      ∃ t, e row = .ok (.ofTruth t) ∧ Truth.rank t = 2 - Truth.rank s) ∧
    (∀ a b, compile l = .ok a → compile r = .ok b → ∃ forth back,
      compile (.binary c.op l r) = .ok forth ∧ compile (.binary c.op r l) = .ok back ∧
      ∀ row s, a row = .ok (.ofTruth s) →
        (∀ t, b row = .ok (.ofTruth t) →
          forth row = c.op.apply (.ofTruth s) (.ofTruth t) ∧ back row = forth row ∧
          ∃ u, forth row = .ok (.ofTruth u) ∧
            Truth.rank u = c.extreme (Truth.rank s) (Truth.rank t)) ∧
        (∀ fault, (b row = .error fault ∨ ∃ v, b row = .ok v ∧ v.truth = .error fault) →
          forth row = if s = some c.decisive then .ok (.bool c.decisive) else .error fault)) := by
  refine ⟨?_, ?_, fun a hl => ?_, fun a b hl hr => ?_⟩
  · simp only [compile]
    cases compile l with
    | error fault => rfl
    | ok a =>
      cases compile r with
      | error fault => rfl
      | ok b => exact congrArg Except.ok (negation_binaryExpression c a b)
  · simp only [compile]
    cases compile l with
    | error fault => rfl
    | ok a =>
      cases compile m with
      | error fault => rfl
      | ok e =>
        cases compile r with
        | error fault => rfl
        | ok b => exact congrArg Except.ok (binaryExpression_assoc c a e b)
  · refine ⟨negation a, by rw [compile, hl]; rfl,
      fun row s meant => ⟨Truth.not s, ?_, Truth.rank_not s⟩⟩
    rw [negation_eq, truthOf_ofTruth a row meant]
    rfl
  · refine ⟨binaryExpression c.op a b,
      binaryExpression c.op b a, by rw [compile, hl, hr]; rfl, by rw [compile, hl, hr]; rfl,
      fun row s left => ⟨fun t right => ?_, fun fault wrong => ?_⟩⟩
    · have forth := binaryExpression_of_truths c left right
      have back := binaryExpression_of_truths c right left
      rw [Connective.join_comm] at back
      exact ⟨forth.trans (c.apply_op s t).symm, back.trans forth.symm, _, forth, c.rank_join s t⟩
    · exact binaryExpression_of_error c left ((truthOf_eq_error b row).2 wrong)

theorem compile_connectives_missing :
    let row : Row := (NameMap.empty.insert "f" (.bool false)).insert "n" .null
    let f := column ["f"]
    let n := column ["n"]
    let m := column ["m"]
    (∃ e, compile (.binary .and f m) = .ok e ∧ e row = .ok (.bool false)) ∧
    (∃ e, compile (.binary .and n m) = .ok e ∧ e row = .error (.columnNotFound "m")) ∧
    (∃ e, compile (.binary .and n f) = .ok e ∧ e row = .ok (.bool false)) := by
  intro row f n m
  have absent : row.lookup "m" = .error (.columnNotFound "m") := by rfl
  have no : row.lookup "f" = .ok (.ofTruth (some false)) := by rfl
  have unknown : row.lookup "n" = .ok (.ofTruth none) := by rfl
  refine ⟨?_, ?_, ?_⟩
  · obtain ⟨-, -, -, laws⟩ := compile_connectives .and f f m
    obtain ⟨e, _, compiled, -, result⟩ := laws _ _ rfl rfl
    exact ⟨e, compiled, (result row _ no).2 _ (.inl absent)⟩
  · obtain ⟨-, -, -, laws⟩ := compile_connectives .and n n m
    obtain ⟨e, _, compiled, -, result⟩ := laws _ _ rfl rfl
    exact ⟨e, compiled, (result row _ unknown).2 _ (.inl absent)⟩
  · obtain ⟨-, -, -, laws⟩ := compile_connectives .and n n f
    obtain ⟨e, _, compiled, -, result⟩ := laws _ _ rfl rfl
    obtain ⟨strict, -⟩ := (result row _ unknown).1 _ no
    exact ⟨e, compiled, strict⟩

end Term

end RowQuery
