import RowQuery.Proofs.Outcome
import RowQuery.Proofs.Value.Tagged

/-!
Terms of integers. They have the exact values of arithmetic without bounds, or else they fail:
nothing is carried over the end of the range, and nothing becomes a double.
-/

namespace RowQuery

def IsInt64 (i : ℤ) : Prop := -2 ^ 63 ≤ i ∧ i < 2 ^ 63

instance (i : ℤ) : Decidable (IsInt64 i) := inferInstanceAs (Decidable (_ ∧ _))

theorem isInt64_toInt (n : Int64) : IsInt64 n.toInt := ⟨n.le_toInt, n.toInt_lt⟩

theorem isInt64_iff {i : ℤ} : IsInt64 i ↔ ∃ n : Int64, n.toInt = i := by
  constructor
  · rintro ⟨least, most⟩
    exact ⟨.ofInt i, Int64.toInt_ofInt_of_le least most⟩
  · rintro ⟨n, rfl⟩
    exact isInt64_toInt n

theorem inRange_toInt (n : Int64) (fault : TypeFault) : inRange n.toInt fault = .ok (.int n) := by
  rw [inRange, Value.int64?_toInt]

theorem int64?_eq_none {i : ℤ} : int64? i = none ↔ ¬ IsInt64 i := by
  rw [int64?, IsInt64]
  split <;> simp_all

theorem inRange_outside {i : ℤ} (outside : ¬ IsInt64 i) (fault : TypeFault) :
    inRange i fault = .error (.type fault) := by
  rw [inRange, int64?_eq_none.2 outside]

inductive RingOp
  | add | sub | mul

namespace RingOp

def op : RingOp → BinaryOp
  | add => .add
  | sub => .sub
  | mul => .mul

def exact : RingOp → ℤ → ℤ → ℤ
  | add => (· + ·)
  | sub => (· - ·)
  | mul => (· * ·)

theorem apply_op (o : RingOp) (a b : Int64) :
    o.op.apply (.int a) (.int b) = inRange (o.exact a.toInt b.toInt) (.overflow o.op) := by
  cases o <;> rfl

end RingOp

/-- Terms of integer literals and columns, with the operators that do not lead out of the integers.
The name of the call is in any ASCII case. -/
inductive IntegerTerm
  | literal : Int64 → IntegerTerm
  | column : List String → IntegerTerm
  | binary : RingOp → IntegerTerm → IntegerTerm → IntegerTerm
  | neg : IntegerTerm → IntegerTerm
  | abs (name : String) (named : name.toLower = "abs") : IntegerTerm → IntegerTerm

namespace IntegerTerm

def term : IntegerTerm → Term
  | literal i => .literal (.int i)
  | column components => .column components
  | binary o l r => .binary o.op l.term r.term
  | neg t => .unary .neg t.term
  | abs name _ t => .call name [t.term]

def exact (values : String → Int64) : IntegerTerm → ℤ
  | literal i => i.toInt
  | column components => (values (columnName components)).toInt
  | binary o l r => o.exact (l.exact values) (r.exact values)
  | neg t => -t.exact values
  | abs _ _ t => (t.exact values).natAbs

/-- The terms inside a term and the term itself, in the order in which they get their values. -/
def parts : IntegerTerm → List IntegerTerm
  | literal i => [literal i]
  | column components => [column components]
  | binary o l r => l.parts ++ r.parts ++ [binary o l r]
  | neg t => t.parts ++ [neg t]
  | abs name named t => t.parts ++ [abs name named t]

inductive Overflows : IntegerTerm → TypeFault → Prop
  | binary (o : RingOp) (l r : IntegerTerm) : Overflows (binary o l r) (.overflow o.op)
  | neg (t : IntegerTerm) : Overflows (neg t) .negationOverflow
  | abs (name : String) (named : name.toLower = "abs") (t : IntegerTerm) :
      Overflows (abs name named t) .absOverflow

/-- The exact value, or the report of the first part that has its value out of range. -/
inductive Settles (values : String → Int64) (t : IntegerTerm) : Eval Value → Prop
  | value {n : Int64} (exact : n.toInt = t.exact values)
      (inside : ∀ s ∈ t.parts, IsInt64 (s.exact values)) :
      Settles values t (.ok (.int n))
  | fault {before after : List IntegerTerm} {s : IntegerTerm} {fault : TypeFault}
      (first : t.parts = before ++ s :: after)
      (inside : ∀ p ∈ before, IsInt64 (p.exact values)) (outside : ¬ IsInt64 (s.exact values))
      (reported : s.Overflows fault) :
      Settles values t (.error (.type fault))

variable {values : String → Int64} {t u : IntegerTerm} {x : Eval Value}

theorem settles_inRange {earlier : List IntegerTerm} {fault : TypeFault}
    (last : t.parts = earlier ++ [t]) (inside : ∀ s ∈ earlier, IsInt64 (s.exact values))
    (reported : t.Overflows fault) : Settles values t (inRange (t.exact values) fault) := by
  rcases Decidable.em (IsInt64 (t.exact values)) with own | outside
  · obtain ⟨n, exact⟩ := isInt64_iff.1 own
    rw [← exact, inRange_toInt]
    refine .value exact fun s member => ?_
    rw [last, List.mem_append, List.mem_singleton] at member
    rcases member with member | rfl
    · exact inside s member
    · exact own
  · rw [inRange_outside outside]
    exact .fault last inside outside reported

theorem settles_bind (earlier later : List IntegerTerm) {f : Value → Eval Value}
    (split : t.parts = earlier ++ u.parts ++ later)
    (inside : ∀ s ∈ earlier, IsInt64 (s.exact values)) (part : Settles values u x)
    (rest : ∀ n : Int64, n.toInt = u.exact values →
      (∀ s ∈ earlier ++ u.parts, IsInt64 (s.exact values)) → Settles values t (f (.int n))) :
    Settles values t (x >>= f) := by
  have both {before : List IntegerTerm} (h : ∀ s ∈ before, IsInt64 (s.exact values))
    (s : IntegerTerm)
      (member : s ∈ earlier ++ before) : IsInt64 (s.exact values) := by
    rcases List.mem_append.1 member with member | member
    · exact inside s member
    · exact h s member
  cases part with
  | value exact own => exact rest _ exact (both own)
  | @fault before after s fault first own outside reported =>
    have first : t.parts = earlier ++ before ++ s :: (after ++ later) := by
      rw [split, first]
      simp
    exact .fault first (both own) outside reported

def Holds (values : String → Int64) (row : Row) (t : IntegerTerm) : Prop :=
  ∀ name ∈ t.term.columns, row.get? name = some (.int (values name))

theorem settles_leaf {n : Int64} (exact : n.toInt = t.exact values) (alone : t.parts = [t]) :
    Settles values t (.ok (.int n)) := by
  refine .value exact fun s member => ?_
  rw [alone, List.mem_singleton] at member
  rw [member, ← exact]
  exact isInt64_toInt n

theorem compile_binary (o : RingOp) {l r : IntegerTerm} {a b : Expression}
    (left : l.term.compile = .ok a) (right : r.term.compile = .ok b) :
    (binary o l r).term.compile = .ok (Term.strict o.op a b) := by
  have strictly : Term.binaryExpression o.op a b = Term.strict o.op a b :=
    Term.binaryExpression_of_strict (by cases o <;> decide) a b
  rw [term, Term.compile, left, right, ← strictly]
  rfl

theorem compile_neg {e : Expression} (inner : t.term.compile = .ok e) :
    (neg t).term.compile = .ok fun row => e row >>= UnaryOp.neg.apply := by
  rw [term, Term.compile, inner]
  rfl

theorem compile_abs (name : String) (named : name.toLower = "abs") {e : Expression}
    (inner : t.term.compile = .ok e) :
    (abs name named t).term.compile = .ok fun row => e row >>= Function.abs.ofOne := by
  have resolved : Function.resolve name 1 = .ok .abs := by
    rw [Function.resolve, named]
    rfl
  have called : (fun row => e row >>= Function.abs.ofOne)
      = fun row => [e].mapM (fun e => e row) >>= Function.abs.apply := by
    funext row
    rw [mapM_singleton_bind]
    rfl
  rw [term, Term.compile, List.length_singleton, resolved, Term.compileAll, inner, called]
  rfl

theorem settles (t : IntegerTerm) : ∃ e, t.term.compile = .ok e ∧
    ∀ (row : Row) (values : String → Int64), t.Holds values row → t.Settles values (e row) := by
  -- an operator is what follows its operands in a bind, and its operands are the parts before it
  induction t with
  | literal i => exact ⟨_, rfl, fun row values _ => settles_leaf rfl rfl⟩
  | column components =>
    refine ⟨_, rfl, fun row values holds => ?_⟩
    have found : row.lookup (columnName components)
        = .ok (.int (values (columnName components))) := by
      rw [Row.lookup, holds _ (List.mem_singleton_self _)]
    rw [found]
    exact settles_leaf rfl rfl
  | binary o l r ihl ihr =>
    obtain ⟨a, compiledLeft, left⟩ := ihl
    obtain ⟨b, compiledRight, right⟩ := ihr
    refine ⟨_, compile_binary o compiledLeft compiledRight, fun row values holds => ?_⟩
    have holdsLeft : l.Holds values row :=
      fun name member => holds name (List.mem_append_left _ member)
    have holdsRight : r.Holds values row :=
      fun name member => holds name (List.mem_append_right _ member)
    refine settles_bind [] (r.parts ++ [binary o l r]) (by simp [parts]) (List.forall_mem_nil _)
      (left row values holdsLeft) fun m exactLeft insideLeft => ?_
    refine settles_bind l.parts [binary o l r] rfl insideLeft (right row values holdsRight)
      fun n exactRight inside => ?_
    rw [o.apply_op, exactLeft, exactRight]
    exact settles_inRange rfl inside (.binary o l r)
  | neg t ih =>
    obtain ⟨e, compiled, inner⟩ := ih
    refine ⟨_, compile_neg compiled, fun row values holds => ?_⟩
    refine settles_bind [] [neg t] rfl (List.forall_mem_nil _) (inner row values holds)
      fun n exact inside => ?_
    rw [UnaryOp.apply, exact]
    exact settles_inRange rfl inside (.neg t)
  | abs name named t ih =>
    obtain ⟨e, compiled, inner⟩ := ih
    refine ⟨_, compile_abs name named compiled, fun row values holds => ?_⟩
    have holdsInner : t.Holds values row :=
      fun name' member => holds name' (List.mem_append_left _ member)
    refine settles_bind [] [abs name named t] rfl (List.forall_mem_nil _)
      (inner row values holdsInner)
      fun n exact inside => ?_
    rw [Function.ofOne, exact]
    exact settles_inRange rfl inside (.abs name named t)

/-- On a row that has integers in its columns a term of integers has its exact value, if that of no
part is out of range; or else it fails, with the report of the first part in the order of evaluation
whose exact value is. -/
theorem compile_exact (t : IntegerTerm) : ∃ e, t.term.compile = .ok e ∧
    ∀ (row : Row) (values : String → Int64),
      (∀ name ∈ t.term.columns, row.get? name = some (.int (values name))) →
      ((∀ s ∈ t.parts, IsInt64 (s.exact values)) →
        ∃ n : Int64, e row = .ok (.int n) ∧ n.toInt = t.exact values) ∧
      ((∃ s ∈ t.parts, ¬ IsInt64 (s.exact values)) →
        ∃ before s after fault, t.parts = before ++ s :: after ∧
        (∀ p ∈ before, IsInt64 (p.exact values)) ∧ ¬ IsInt64 (s.exact values) ∧ s.Overflows fault ∧
        e row = .error (.type fault)) := by
  obtain ⟨e, compiled, settled⟩ := t.settles
  refine ⟨e, compiled, fun row values holds => ?_⟩
  have outcome := settled row values holds
  generalize e row = x at outcome
  cases outcome with
  | @value n exact inside =>
    refine ⟨fun _ => ⟨n, rfl, exact⟩, ?_⟩
    rintro ⟨s, member, outside⟩
    exact absurd (inside s member) outside
  | @fault before after s fault first inside outside reported =>
    refine ⟨fun all => ?_,
      fun _ => ⟨before, s, after, fault, first, inside, outside, reported, rfl⟩⟩
    have member : s ∈ t.parts := first ▸ List.mem_append_right _ List.mem_cons_self
    exact absurd (all s member) outside

theorem compile_exact_double :
    let t : IntegerTerm :=
      .abs "Abs" (by decide +kernel) (.neg (.binary .mul (.column ["a"]) (.literal 2)))
    let row (a : Int64) : Row := NameMap.empty.insert "a" (.int a)
    ∃ e, t.term.compile = .ok e ∧ (∃ n : Int64, e (row 21) = .ok (.int n) ∧ n.toInt = 42) ∧
      ∃ fault, e (row (-4611686018427387904)) = .error (.type fault) := by
  intro t row
  obtain ⟨e, compiled, settled⟩ := compile_exact t
  have held (a : Int64) (name : String) (member : name ∈ t.term.columns) :
      (row a).get? name = some (.int a) := by
    obtain rfl := List.mem_singleton.1 member
    rfl
  refine ⟨e, compiled, (settled _ _ (held 21)).1 (by decide +kernel), ?_⟩
  obtain ⟨_, _, _, fault, -, -, -, -, failed⟩ :=
    (settled _ _ (held (-4611686018427387904))).2 (by decide +kernel)
  exact ⟨fault, failed⟩

end IntegerTerm

end RowQuery
