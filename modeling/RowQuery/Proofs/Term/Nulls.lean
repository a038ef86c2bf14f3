import RowQuery.Proofs.Term.Checking
import RowQuery.Proofs.Term.Comparison

/-!
Null in terms of strict operators, the ones that give null wherever an operand is null. A single
leaf that is null then makes the whole term null. No check of kinds and no division by zero stands
before that, save in the parts beside the leaf.
-/

namespace RowQuery

theorem UnaryOp.apply_null (op : UnaryOp) : op.apply .null = .ok .null := by
  cases op <;> rfl

theorem BinaryOp.apply_null {op : BinaryOp} (strict : op ∉ [and, or]) {v w : Value}
    (null : v = .null ∨ w = .null) : op.apply v w = .ok .null := by
  have either : (v.isNull || w.isNull) = true := by
    rwa [Bool.or_eq_true, Value.isNull_iff, Value.isNull_iff]
  fun_cases BinaryOp.apply op v w with
  | case1 | case2 => simp at strict
  | case3 => rfl
  | case4 _ _ _ neither | case5 _ _ _ neither | case6 _ _ _ neither => exact absurd either neither

namespace Function

theorem ofOne_null (f : Function) : f.ofOne .null = .ok .null := by
  cases f <;> rfl

theorem resolve_unary {name : String} {arity : ℕ} {f : Function}
    (unary : name.toLower ∈ ["upper", "lower", "length", "abs"])
    (resolved : resolve name arity = .ok f) : arity = 1 ∧ ∀ v, f.apply [v] = f.ofOne v := by
  constructor
  · by_contra count
    rw [resolve_eq_error.2 (.notOne unary count)] at resolved
    cases resolved
  · simp only [List.mem_cons, List.not_mem_nil, or_false] at unary
    intro v
    -- the four names are resolved alike
    rcases unary with named | named | named | named <;>
      simp only [resolve, named, ofName?] at resolved <;>
      split at resolved <;> cases resolved <;> rfl

end Function

namespace Term

inductive Occurs (s : Term) : Term → Prop
  | here : Occurs s s
  | unary {op : UnaryOp} {t : Term} (inside : Occurs s t) : Occurs s (.unary op t)
  | left {op : BinaryOp} {l r : Term} (inside : Occurs s l) : Occurs s (.binary op l r)
  | right {op : BinaryOp} {l r : Term} (inside : Occurs s r) : Occurs s (.binary op l r)
  | isNull {t : Term} {negated : Bool} (inside : Occurs s t) : Occurs s (.isNull t negated)
  | argument {name : String} {args : List Term} {t : Term} (member : t ∈ args)
      (inside : Occurs s t) :
      Occurs s (.call name args)

inductive NullLeaf (row : Row) : Term → Prop
  | literal : NullLeaf row (.literal .null)
  | column {components : List String} (null : row.get? (columnName components) = some .null) :
      NullLeaf row (.column components)

def HasNull (row : Row) (t : Term) : Prop := ∃ leaf, Occurs leaf t ∧ NullLeaf row leaf

/-- Terms of literals, columns, the unary operators, the comparisons, arithmetic and the functions
of one argument. -/
inductive Strict : Term → Prop
  | literal (l : Literal) : Strict (.literal l)
  | column (components : List String) : Strict (.column components)
  | unary (op : UnaryOp) {t : Term} (inner : Strict t) : Strict (.unary op t)
  | binary {op : BinaryOp} (strict : op ∉ [.and, .or]) {l r : Term} (left : Strict l)
      (right : Strict r) :
      Strict (.binary op l r)
  | call {name : String} (unary : name.toLower ∈ ["upper", "lower", "length", "abs"])
      {args : List Term}
      (inner : ∀ t ∈ args, Strict t) : Strict (.call name args)

theorem Occurs.trans {s t u : Term} (inner : Occurs s t) (outer : Occurs t u) : Occurs s u := by
  induction outer with
  | here => exact inner
  | unary _ ih => exact .unary ih
  | left _ ih => exact .left ih
  | right _ ih => exact .right ih
  | isNull _ ih => exact .isNull ih
  | argument member _ ih => exact .argument member ih

section

variable {row : Row} {s t l r : Term} {e : Expression}

theorem HasNull.of_unary {op : UnaryOp} : HasNull row (.unary op t) → HasNull row t
  | ⟨leaf, .unary inside, null⟩ => ⟨leaf, inside, null⟩

theorem HasNull.of_binary {op : BinaryOp} :
    HasNull row (.binary op l r) → HasNull row l ∨ HasNull row r
  | ⟨leaf, .left inside, null⟩ => .inl ⟨leaf, inside, null⟩
  | ⟨leaf, .right inside, null⟩ => .inr ⟨leaf, inside, null⟩

theorem HasNull.of_call {name : String} : HasNull row (.call name [t]) → HasNull row t
  | ⟨leaf, .argument member inside, null⟩ => ⟨leaf, List.mem_singleton.1 member ▸ inside, null⟩

/-- What a term with null at a leaf comes to: null, or the failure of a part that has null at
none. -/
inductive Absorbed (row : Row) (t : Term) : Eval Value → Prop
  | null : Absorbed row t (.ok .null)
  | failure {part : Term} {e : Expression} {fault : EvalError} (inside : Occurs part t)
      (without : ¬ HasNull row part)
      (compiled : part.compile = .ok e) (failed : e row = .error fault) :
        Absorbed row t (.error fault)

theorem Absorbed.bind {f : Value → Eval Value} (inside : Occurs s t) (compiled : s.compile = .ok e)
    (operand : HasNull row s → Absorbed row s (e row))
    (rest : ∀ v, (HasNull row s → v = .null) → Absorbed row t (f v)) :
    Absorbed row t (e row >>= f) := by
  by_cases null : HasNull row s
  · have outcome := operand null
    generalize e row = x at outcome
    cases outcome with
    | null => exact rest .null fun _ => rfl
    | failure within without compiled failed =>
      exact .failure (within.trans inside) without compiled failed
  · cases outcome : e row with
    | ok v => exact rest v fun found => absurd found null
    | error fault => exact .failure inside null compiled outcome

theorem Strict.absorbed (strict : Strict t) :
    ∀ {e}, t.compile = .ok e → HasNull row t → Absorbed row t (e row) := by
  -- every operand of a strict operator is looked at, so each is taken off by `Absorbed.bind` before
  -- the operator is applied
  induction strict with
  | literal l =>
    rintro e ⟨⟩ ⟨leaf, occurs, null⟩
    cases occurs
    cases null
    exact .null
  | column components =>
    rintro e ⟨⟩ ⟨leaf, occurs, null⟩
    cases occurs
    cases null with
    | column null =>
      show Absorbed row _ (row.lookup _)
      rw [Row.lookup_eq_ok.2 null]
      exact .null
  | unary op _ ih =>
    intro e compiled null
    obtain ⟨e, inner, ⟨⟩⟩ := bind_eq_ok.1 compiled
    refine .bind (.unary .here) inner (ih inner) fun v absorbs => ?_
    rw [absorbs null.of_unary, op.apply_null]
    exact .null
  | @binary op strict l r _ _ ihl ihr =>
    intro e compiled null
    obtain ⟨a, left, compiled⟩ := bind_eq_ok.1 compiled
    obtain ⟨b, right, ⟨⟩⟩ := bind_eq_ok.1 compiled
    rw [binaryExpression_of_strict strict]
    refine .bind (.left .here) left (ihl left) fun v absorbsLeft => ?_
    refine .bind (.right .here) right (ihr right) fun w absorbsRight => ?_
    rw [BinaryOp.apply_null strict (null.of_binary.imp absorbsLeft absorbsRight)]
    exact .null
  | @call name unary args _ ih =>
    intro e compiled null
    obtain ⟨f, resolved, compiled⟩ := bind_eq_ok.1 compiled
    obtain ⟨count, one⟩ := Function.resolve_unary unary resolved
    obtain ⟨t, rfl⟩ := List.length_eq_one_iff.1 count
    obtain ⟨es, all, ⟨⟩⟩ := bind_eq_ok.1 compiled
    obtain ⟨e, inner, ⟨⟩⟩ := bind_eq_ok.1 all
    show Absorbed row _ ([e].mapM (fun e => e row) >>= f.apply)
    rw [mapM_singleton_bind]
    simp only [one]
    have member : t ∈ [t] := List.mem_singleton_self t
    refine .bind (.argument member .here) inner (ih t member inner) fun v absorbs => ?_
    rw [absorbs null.of_call, f.ofOne_null]
    exact .null

/-- In a term of strict operators, however deep, one leaf that is null on the row makes the value
null, if there is a value. If there is none then a part that has no such leaf fails, and by the
failure of that part. -/
theorem compile_strict (strict : Strict t) (compiled : t.compile = .ok e) (null : HasNull row t) :
    (∀ v, e row = .ok v → v = .null) ∧
    (∀ fault, e row = .error fault → ∃ part f, Occurs part t ∧ ¬ HasNull row part ∧
      part.compile = .ok f ∧ f row = .error fault) := by
  have outcome := strict.absorbed compiled null
  generalize e row = x at outcome
  cases outcome with
  | null => exact ⟨fun v same => (Except.ok.inj same).symm, nofun⟩
  | @failure part f fault inside without compiled failed =>
    refine ⟨nofun, fun _ same => ⟨part, f, inside, without, compiled, ?_⟩⟩
    rw [failed, same]

end

theorem compile_strict_by_zero :
    let row : Row := NameMap.empty.insert "n" .null
    let byZero (t : Term) : Term := .binary .div t (.literal (.int 0))
    let t : Term := .binary .add (.literal (.text "x")) (.unary .neg (byZero (.column ["n"])))
    let u : Term := .binary .lt (.column ["n"]) (byZero (.literal (.int 1)))
    (∃ e v, t.compile = .ok e ∧ e row = .ok v ∧ v = .null) ∧
    ∃ e fault, u.compile = .ok e ∧ e row = .error fault ∧
      ∃ part f, Occurs part u ∧ ¬ HasNull row part ∧ part.compile = .ok f ∧
        f row = .error fault := by
  intro row byZero t u
  have missing : NullLeaf row (.column ["n"]) := .column rfl
  have division {t : Term} (inner : Strict t) : Strict (byZero t) :=
    .binary (by decide) inner (.literal _)
  have strict : Strict t := .binary (by decide) (.literal _) (.unary _ (division (.column _)))
  have strict' : Strict u := .binary (by decide) (.column _) (division (.literal _))
  obtain ⟨absorbs, -⟩ := compile_strict strict rfl ⟨_, .right (.unary (.left .here)), missing⟩
  obtain ⟨-, fails⟩ := compile_strict strict' rfl ⟨_, .left .here, missing⟩
  exact ⟨⟨_, _, rfl, rfl, absorbs _ rfl⟩, _, _, rfl, rfl, fails _ rfl⟩

end Term

end RowQuery
