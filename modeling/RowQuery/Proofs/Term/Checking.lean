import RowQuery.Proofs.Term.Compiled

/-!
Terms are checked before any row is read. What a term compiles to fails for no other reason than its
calls, the first one that is refused; and what comes of it fails on a row for no other reason than
the kinds and sizes of values and the columns that the row lacks.
-/

namespace RowQuery

variable {ε α β : Type}

def fault? : Except ε α → Option ε
  | .ok _ => none
  | .error e => some e

theorem fault?_eq_some {x : Except ε α} {e : ε} : fault? x = some e ↔ x = .error e := by
  cases x <;> simp [fault?]

theorem fault?_eq_none {x : Except ε α} : fault? x = none ↔ ∀ e, x ≠ .error e := by
  cases x <;> simp [fault?]

theorem fault?_bind_ok {x : Except ε α} {f : α → β} :
    fault? (x >>= fun a => pure (f a)) = fault? x := by
  cases x <;> rfl

theorem fault?_bind {x : Except ε α} {f : α → Except ε β} {z : Option ε}
    (h : ∀ a, fault? (f a) = z) : fault? (x >>= f) = (fault? x).or z := by
  cases x with
  | error e => rfl
  | ok a => exact h a

namespace Function

/-- The calls that are refused, given by their name and the number of their arguments: the name, in
any ASCII case, is none of the six, or the function does not take so many. -/
inductive Refused : String × ℕ → TermFault → Prop
  | unknown {name : String} {arity : ℕ}
      (other : name.toLower ∉ ["upper", "lower", "length", "abs", "concat", "coalesce"]) :
      Refused (name, arity) (.unknownFunction name.toLower)
  | notOne {name : String} {arity : ℕ} (unary : name.toLower ∈ ["upper", "lower", "length", "abs"])
      (count : arity ≠ 1) :
      Refused (name, arity) (.wrongArity name arity)
  | noArgument {name : String} (coalesce : name.toLower = "coalesce") :
      Refused (name, 0) (.wrongArity name 0)

theorem ofName?_eq_none {s : String} :
    ofName? s = none ↔ s ∉ ["upper", "lower", "length", "abs", "concat", "coalesce"] := by
  fun_cases ofName? s with
  | case7 => simp_all
  | _ => simp

theorem takes_eq_false {s : String} {f : Function} {arity : ℕ} (named : ofName? s = some f) :
    f.takes arity = false ↔
      (s ∈ ["upper", "lower", "length", "abs"] ∧ arity ≠ 1) ∨ (s = "coalesce" ∧ arity = 0) := by
  revert named
  fun_cases ofName? s with
  | case7 => rintro ⟨⟩
  | _ =>
    rintro ⟨⟩
    simp [takes]

theorem resolve_eq_error {name : String} {arity : ℕ} {fault : TermFault} :
    resolve name arity = .error fault ↔ Refused (name, arity) fault := by
  rw [resolve]
  constructor
  · intro failed
    split at failed
    · next other =>
      cases failed
      exact .unknown (ofName?_eq_none.1 other)
    · next f named =>
      split at failed
      · cases failed
      · next refused =>
        cases failed
        rcases (takes_eq_false named).1 (Bool.eq_false_iff.2 refused)
          with ⟨unary, count⟩ | ⟨coalesce, rfl⟩
        · exact .notOne unary count
        · exact .noArgument coalesce
  · intro refused
    cases refused with
    | unknown other => rw [ofName?_eq_none.2 other]
    | notOne unary count =>
      simp only [List.mem_cons, List.not_mem_nil, or_false] at unary
      rcases unary with named | named | named | named <;> simp [named, ofName?, takes, count]
    | noArgument coalesce => simp [coalesce, ofName?, takes]

end Function

namespace Term

mutual

/-- The calls in a term with the number of their arguments, each one before those in its arguments,
from left to right. -/
def calls : Term → List (String × ℕ)
  | column _ => []
  | literal _ => []
  | unary _ t => t.calls
  | binary _ l r => l.calls ++ r.calls
  | isNull t _ => t.calls
  | call name args => (name, args.length) :: callsAll args

def callsAll : List Term → List (String × ℕ)
  | [] => []
  | t :: rest => t.calls ++ callsAll rest

end

def refusal? (call : String × ℕ) : Option TermFault := fault? (Function.resolve call.1 call.2)

theorem refusal?_eq_some {call : String × ℕ} {fault : TermFault} :
    refusal? call = some fault ↔ Function.Refused call fault :=
  fault?_eq_some.trans Function.resolve_eq_error

-- the right part is compiled only after the left one, as the search in an append goes on only where
-- the first list ends
mutual

theorem fault?_compile : ∀ t : Term, fault? t.compile = t.calls.findSome? refusal?
  | column _ => rfl
  | literal _ => rfl
  | unary op t => by
    rw [compile, calls, fault?_bind_ok, fault?_compile t]
  | binary op l r => by
    rw [compile, calls, List.findSome?_append, ← fault?_compile l, ← fault?_compile r]
    exact fault?_bind fun _ => fault?_bind_ok
  | isNull t negated => by
    rw [compile, calls, fault?_bind_ok, fault?_compile t]
  | call name args => by
    rw [calls, List.findSome?_cons, ← fault?_compileAll args]
    have all : fault? (compile (.call name args)) = (refusal? (name, args.length)).or
        (fault? (compileAll args)) := by
      rw [compile]
      exact fault?_bind fun _ => fault?_bind_ok
    rw [all]
    cases refusal? (name, args.length) <;> rfl

theorem fault?_compileAll :
    ∀ ts : List Term, fault? (compileAll ts) = (callsAll ts).findSome? refusal?
  | [] => rfl
  | t :: rest => by
    rw [compileAll, callsAll, List.findSome?_append, ← fault?_compile t, ← fault?_compileAll rest]
    exact fault?_bind fun _ => fault?_bind_ok

end

/-- What is wrong with a term is found before there is a row: it does not compile exactly when one
of its calls, at any depth, is refused, and the first such call in the order in which they are
written is the one that is reported. What a term compiles to has a value on a row, or fails because
of the kinds or sizes of values, or because a column that the term names is not in the row. -/
theorem compile_checks_calls (t : Term) :
    ((∃ fault, compile t = .error fault) ↔ ∃ call ∈ t.calls, ∃ fault, Function.Refused call fault) ∧
    (∀ fault, compile t = .error fault ↔ ∃ before call after, t.calls = before ++ call :: after ∧
      Function.Refused call fault ∧
      ∀ earlier ∈ before, ∀ fault', ¬ Function.Refused earlier fault') ∧
    (∀ e, compile t = .ok e → ∀ row : Row, (∃ v, e row = .ok v) ∨
      (∃ fault, e row = .error (.type fault)) ∨
      ∃ name ∈ t.columns, row.get? name = none ∧ e row = .error (.columnNotFound name)) := by
  have sound (call : String × ℕ) :
      refusal? call = none ↔ ∀ fault, ¬ Function.Refused call fault := by
    rw [Option.eq_none_iff_forall_ne_some]
    exact forall_congr' fun fault => not_congr refusal?_eq_some
  have first (fault : TermFault) :
      compile t = .error fault ↔ ∃ before call after, t.calls = before ++ call :: after ∧
      Function.Refused call fault ∧
      ∀ earlier ∈ before, ∀ fault', ¬ Function.Refused earlier fault' := by
    rw [← fault?_eq_some, fault?_compile, List.findSome?_eq_some_iff]
    simp only [refusal?_eq_some, sound]
  refine ⟨?_, first, fun e compiled row => ?_⟩
  · have fails : (∃ fault, compile t = .error fault) ↔ ¬ fault? (compile t) = none := by
      simp [fault?_eq_none]
    rw [fails, fault?_compile, List.findSome?_eq_none_iff]
    simp only [sound, not_forall, not_not, exists_prop]
  · cases outcome : e row with
    | ok v => exact .inl ⟨v, rfl⟩
    | error fault =>
      cases fault with
      | type fault => exact .inr (.inl ⟨fault, rfl⟩)
      | columnNotFound name =>
        obtain ⟨named, missing⟩ := compositional_wants.of_compile compiled row name outcome
        exact .inr (.inr ⟨name, named, missing, rfl⟩)

theorem compile_checks_calls_nested :
    let row : Row := NameMap.empty
    let t : Term := .binary .or (.literal (.bool true)) (.call "Nope" [.call "abs" []])
    let abs : Term := .call "ABS" [.column ["a", "b"]]
    compile t = .error (.unknownFunction "nope") ∧
    ∃ e, compile abs = .ok e ∧
      ∃ name ∈ ["a.b"], row.get? name = none ∧ e row = .error (.columnNotFound name) := by
  intro row t abs
  constructor
  · obtain ⟨-, first, -⟩ := compile_checks_calls t
    have lower : "Nope".toLower = "nope" := by decide +kernel
    refine (first _).2 ⟨[], ("Nope", 1), [("abs", 0)], rfl, ?_, by simp⟩
    rw [← lower]
    exact .unknown (by decide +kernel)
  · obtain ⟨-, -, evaluates⟩ := compile_checks_calls abs
    have lower : "ABS".toLower = "abs" := by decide +kernel
    have resolved : Function.resolve "ABS" [column ["a", "b"]].length = .ok .abs := by
      rw [Function.resolve, lower]
      rfl
    have compiled : compile abs = .ok fun row =>
        [fun row => Row.lookup row "a.b"].mapM (fun e => e row) >>= Function.abs.apply := by
      rw [compile, resolved]
      rfl
    refine ⟨_, compiled, ?_⟩
    rcases evaluates _ compiled row with ⟨v, valued⟩ | ⟨fault, typed⟩ | lacking
    · cases valued
    · cases typed
    · exact lacking

end Term

end RowQuery
