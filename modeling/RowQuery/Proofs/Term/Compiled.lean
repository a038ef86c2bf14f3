import Mathlib.Data.Int.Notation
import RowQuery.Proofs.Outcome
import RowQuery.Proofs.Term.Logic

/-!
What holds of compiled terms because it holds of their parts. The columns that a compiled term asks
a row for are the first instance: it fails for want of a column only if the term names the column
and the row lacks it.
-/

namespace RowQuery

variable {α β : Type}

namespace Term

/-- A property that a compiled term has if its parts have it. -/
structure Compositional (P : Term → Expression → Prop) : Prop where
  column (components : List String) :
    P (.column components) fun row => row.lookup (columnName components)
  literal (l : Literal) : P (.literal l) fun _ => .ok l.value
  unary (op : UnaryOp) {t : Term} {e : Expression} (h : P t e) :
    P (.unary op t) fun row => do op.apply (← e row)
  binary (op : BinaryOp) {l r : Term} {a b : Expression} (left : P l a) (right : P r b) :
    P (.binary op l r) (binaryExpression op a b)
  isNull (negated : Bool) {t : Term} {e : Expression} (h : P t e) :
    P (.isNull t negated) fun row => return .bool ((← e row).isNull != negated)
  call {name : String} {args : List Term} {f : Function} {es : List Expression}
    (resolved : Function.resolve name args.length = .ok f) (parts : List.Forall₂ P args es) :
    P (.call name args) fun row => do f.apply (← es.mapM fun e => e row)

section

variable {P : Term → Expression → Prop}

mutual

theorem Compositional.of_compile (h : Compositional P) :
    ∀ {t : Term} {e : Expression}, t.compile = .ok e → P t e
  | .column components, _, rfl => h.column components
  | .literal l, _, rfl => h.literal l
  | .unary op t, _, compiled => by
    obtain ⟨e, inner, ⟨⟩⟩ := bind_eq_ok.1 compiled
    exact h.unary op (h.of_compile inner)
  | .binary op l r, _, compiled => by
    obtain ⟨a, left, rest⟩ := bind_eq_ok.1 compiled
    obtain ⟨b, right, ⟨⟩⟩ := bind_eq_ok.1 rest
    exact h.binary op (h.of_compile left) (h.of_compile right)
  | .isNull t negated, _, compiled => by
    obtain ⟨e, inner, ⟨⟩⟩ := bind_eq_ok.1 compiled
    exact h.isNull negated (h.of_compile inner)
  | .call name args, _, compiled => by
    obtain ⟨f, resolved, rest⟩ := bind_eq_ok.1 compiled
    obtain ⟨es, parts, ⟨⟩⟩ := bind_eq_ok.1 rest
    exact h.call resolved (h.of_compileAll parts)

theorem Compositional.of_compileAll (h : Compositional P) :
    ∀ {ts : List Term} {es : List Expression}, compileAll ts = .ok es → List.Forall₂ P ts es
  | [], _, rfl => .nil
  | t :: ts, _, compiled => by
    obtain ⟨e, first, rest⟩ := bind_eq_ok.1 compiled
    obtain ⟨es, others, ⟨⟩⟩ := bind_eq_ok.1 rest
    exact .cons (h.of_compile first) (h.of_compileAll others)

end

end

end Term

/-- A computation fails for want of a column only if the column is one of these. -/
def Wants (columns : String → Prop) (x : Eval α) : Prop :=
  ∀ name, x = .error (.columnNotFound name) → columns name

section

variable {columns columns' : String → Prop} {x : Eval α} {f : α → Eval β}

theorem wants_ok (a : α) : Wants columns (.ok a) := nofun

theorem wants_type (fault : TypeFault) : Wants (α := α) columns (.error (.type fault)) := nofun

theorem Wants.mono (h : Wants columns x) (sub : ∀ name, columns name → columns' name) :
    Wants columns' x :=
  fun name failed => sub name (h name failed)

theorem Wants.bind (h : Wants columns x) (hf : ∀ a, Wants columns (f a)) :
    Wants columns (x >>= f) := by
  cases x with
  | ok a => exact hf a
  | error fault =>
    intro name failed
    cases failed
    exact h name rfl

theorem Wants.map {g : α → β} (h : Wants columns x) : Wants columns (g <$> x) := by
  rw [map_eq_pure_bind]
  exact h.bind fun a => wants_ok (g a)

theorem wants_lookup (row : Row) (name : String) (h : row.get? name = none → columns name) :
    Wants columns (row.lookup name) := by
  rw [Row.lookup]
  split
  · exact wants_ok _
  · next missing =>
    intro _ failed
    cases failed
    exact h missing

theorem wants_inRange (i : ℤ) (fault : TypeFault) : Wants columns (inRange i fault) := by
  rw [inRange]
  split
  · exact wants_ok _
  · exact wants_type fault

theorem wants_truth (v : Value) : Wants columns v.truth := by
  fun_cases Value.truth v with
  | case3 => exact wants_type _
  | _ => exact wants_ok _

theorem UnaryOp.wants_apply (op : UnaryOp) (v : Value) : Wants columns (op.apply v) := by
  fun_cases UnaryOp.apply op v with
  | case1 => exact wants_ok _
  | case2 v => exact (wants_truth v).bind fun _ => wants_ok _
  | case3 i => exact wants_inRange _ _
  | case4 x => exact wants_ok _
  | case5 v => exact wants_type _

theorem BinaryOp.wants_onInts (op : BinaryOp) (a b : ℤ) : Wants columns (op.onInts a b) := by
  cases op with
  | add | sub | mul => exact wants_inRange _ _
  | div =>
    rw [onInts]
    split
    · exact wants_type _
    · exact wants_inRange _ _
  | mod =>
    rw [onInts]
    split
    · exact wants_type _
    · split
      · exact wants_type _
      · exact wants_inRange _ _
  | _ => exact wants_type _

theorem BinaryOp.wants_arithmetic (op : BinaryOp) (v w : Value) :
    Wants columns (op.arithmetic v w) := by
  fun_cases BinaryOp.arithmetic op v w with
  | case1 a b => exact op.wants_onInts _ _
  | case2 => exact wants_ok _
  | case3 => exact wants_type _

theorem BinaryOp.wants_apply (op : BinaryOp) (v w : Value) : Wants columns (op.apply v w) := by
  fun_cases BinaryOp.apply op v w with
  | case1 | case2 => exact (wants_truth v).bind fun _ => (wants_truth w).bind fun _ => wants_ok _
  | case4 => exact op.wants_arithmetic v w
  | _ => exact wants_ok _

theorem Function.wants_ofOne (f : Function) (v : Value) : Wants columns (f.ofOne v) := by
  fun_cases Function.ofOne f v with
  | case6 i => exact wants_inRange _ _
  | case8 => exact wants_type _
  | _ => exact wants_ok _

theorem Function.wants_apply (f : Function) (args : List Value) : Wants columns (f.apply args) := by
  cases f with
  | concat | coalesce => exact wants_ok _
  | _ => exact Function.wants_ofOne _ _

end

namespace Term

def Missing (row : Row) (names : List String) (name : String) : Prop :=
  name ∈ names ∧ row.get? name = none

theorem Missing.of_subset {row : Row} {names names' : List String} (inside : names ⊆ names')
    (name : String) (h : Missing row names name) : Missing row names' name :=
  ⟨inside h.1, h.2⟩

section

variable {columns : String → Prop} {l r : Expression} {row : Row} (left : Wants columns (l row))
  (right : Wants columns (r row))
include left

theorem wants_truthOf : Wants columns (truthOf l row) :=
  left.bind fun v => wants_truth v

include right

theorem wants_strict (op : BinaryOp) : Wants columns (strict op l r row) :=
  left.bind fun v => right.bind fun w => op.wants_apply v w

theorem wants_connective (c : Connective) : Wants columns (binaryExpression c.op l r row) := by
  rw [binaryExpression_eq]
  refine Wants.map ((wants_truthOf left).bind fun a => ?_)
  split
  · exact wants_ok a
  · exact (wants_truthOf right).bind fun b => wants_ok _

theorem wants_binaryExpression (op : BinaryOp) : Wants columns (binaryExpression op l r row) := by
  fun_cases binaryExpression op with
  | case1 => exact wants_connective left right .and
  | case2 => exact wants_connective left right .or
  | case3 => exact wants_strict left right op

end

theorem wants_all {args : List Term} {es : List Expression} {row : Row}
    (parts : List.Forall₂ (fun t e => ∀ row, Wants (Missing row t.columns) (e row)) args es) :
    Wants (Missing row (columnsAll args)) (es.mapM fun e => e row) := by
  induction parts with
  | nil => exact wants_ok []
  | cons first _ ih =>
    rw [List.mapM_cons]
    exact ((first row).mono (Missing.of_subset (List.subset_append_left ..))).bind fun _ =>
      (ih.mono (Missing.of_subset (List.subset_append_right ..))).bind fun _ => wants_ok _

theorem compositional_wants :
    Compositional fun t e => ∀ row, Wants (Missing row t.columns) (e row) where
  column _ row := wants_lookup row _ fun missing => ⟨List.mem_singleton_self _, missing⟩
  literal _ _ := wants_ok _
  unary op _ _ h row := (h row).bind fun v => op.wants_apply v
  binary op _ _ _ _ left right row :=
    wants_binaryExpression ((left row).mono (Missing.of_subset (List.subset_append_left ..)))
      ((right row).mono (Missing.of_subset (List.subset_append_right ..))) op
  isNull _ _ _ h row := (h row).bind fun _ => wants_ok _
  call _ parts _ := (wants_all parts).bind fun _ => Function.wants_apply _ _

end Term

end RowQuery
