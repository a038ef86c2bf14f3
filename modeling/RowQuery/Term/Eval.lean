import RowQuery.Row
import RowQuery.Term.Basic
import RowQuery.Term.Function
import RowQuery.Number.Arithmetic
import RowQuery.Text.Case

/-!
The meaning of terms. `Term.compile` checks every call before any row is read and gives the function
from rows to values. Operators are strict in null, except that `and` and `or` follow three-valued
logic and do not look at their second operand when the first one decides.
-/

namespace RowQuery

inductive TypeFault
  | expectedBoolean (got : Kind)
  | negationOverflow
  | cannotNegate (got : Kind)
  | divisionByZero
  | overflow (op : BinaryOp)
  | cannotApply (op : BinaryOp) (left right : Kind)
  | absOverflow
  | undefinedFor (f : Function) (got : Kind)
  deriving DecidableEq

inductive EvalError
  | columnNotFound (name : String)
  | type (fault : TypeFault)
  deriving DecidableEq

def TypeFault.message : TypeFault → String
  | expectedBoolean got => s!"expected a boolean, got {got.name}"
  | negationOverflow => "integer overflow in negation"
  | cannotNegate got => s!"cannot negate {got.name}"
  | divisionByZero => "division by zero"
  | overflow op => s!"integer overflow in {op.title}"
  | cannotApply op left right => s!"cannot apply {op.title} to {left.name} and {right.name}"
  | absOverflow => "integer overflow in abs"
  | undefinedFor f got => s!"{f.title} is not defined for {got.name}"

def EvalError.message : EvalError → String
  | columnNotFound name => s!"column '{name}' not found in row"
  | type fault => s!"type mismatch: {fault.message}"

abbrev Eval (α : Type) := Except EvalError α

def Row.lookup (row : Row) (name : String) : Eval Value :=
  match row.get? name with
  | some v => .ok v
  | none => .error (.columnNotFound name)

theorem Row.lookup_eq_ok {row : Row} {name : String} {v : Value} :
    row.lookup name = .ok v ↔ row.get? name = some v := by
  rw [lookup]
  cases row.get? name <;> simp

theorem Row.lookup_eq_error {row : Row} {name : String} {fault : EvalError} :
    row.lookup name = .error fault ↔ row.get? name = none ∧ fault = .columnNotFound name := by
  rw [lookup]
  cases row.get? name <;> simp [eq_comm]

def inRange (i : Int) (fault : TypeFault) : Eval Value :=
  match int64? i with
  | some n => .ok (.int n)
  | none => .error (.type fault)

def Value.truth : Value → Eval (Option Bool)
  | .bool b => .ok (some b)
  | .null => .ok none
  | v => .error (.type (.expectedBoolean v.kind))

def Value.ofTruth : Option Bool → Value
  | some b => .bool b
  | none => .null

namespace Truth

def not : Option Bool → Option Bool
  | some b => some !b
  | none => none

def and : Option Bool → Option Bool → Option Bool
  | some false, _ => some false
  | _, some false => some false
  | some true, some true => some true
  | _, _ => none

def or : Option Bool → Option Bool → Option Bool
  | some true, _ => some true
  | _, some true => some true
  | some false, some false => some false
  | _, _ => none

end Truth

def UnaryOp.apply : UnaryOp → Value → Eval Value
  | _, .null => .ok .null
  | .not, v => return .ofTruth (Truth.not (← v.truth))
  | .neg, .int i => inRange (-i.toInt) .negationOverflow
  | .neg, .float x => .ok (.float x.neg)
  | .neg, v => .error (.type (.cannotNegate v.kind))

namespace BinaryOp

def isArithmetic : BinaryOp → Bool
  | add | sub | mul | div | mod => true
  | _ => false

/-- Division truncates and the remainder has the sign of the dividend. The remainder by minus one is
refused where the quotient is out of range. -/
def onInts (op : BinaryOp) (a b : Int) : Eval Value :=
  match op with
  | add => inRange (a + b) (.overflow op)
  | sub => inRange (a - b) (.overflow op)
  | mul => inRange (a * b) (.overflow op)
  | div => if b = 0 then .error (.type .divisionByZero) else inRange (a.tdiv b) (.overflow op)
  | mod =>
    if b = 0 then .error (.type .divisionByZero)
    else if (int64? (a.tdiv b)).isNone then .error (.type (.overflow op))
    else inRange (a.tmod b) (.overflow op)
  | _ => .error (.type (.overflow op))

def onFloats (op : BinaryOp) (a b : Binary64) : Binary64 :=
  match op with
  | add => a.add b
  | sub => a.sub b
  | mul => a.mul b
  | div => a.div b
  | _ => a.rem b

def arithmetic (op : BinaryOp) (l r : Value) : Eval Value :=
  match l, r with
  | .int a, .int b => op.onInts a.toInt b.toInt
  | l, r =>
    match l.toBinary64?, r.toBinary64? with
    | some a, some b => .ok (.float (op.onFloats a b))
    | _, _ => .error (.type (.cannotApply op l.kind r.kind))

def holds (op : BinaryOp) (o : Ordering) : Bool :=
  match op with
  | eq => o == .eq
  | notEq => o != .eq
  | lt => o == .lt
  | ltEq => o != .gt
  | gt => o == .gt
  | _ => o != .lt

/-- The operator on two values, both of which are looked at. -/
def apply (op : BinaryOp) (l r : Value) : Eval Value :=
  match op with
  | and => do
    let a ← l.truth
    let b ← r.truth
    return .ofTruth (Truth.and a b)
  | or => do
    let a ← l.truth
    let b ← r.truth
    return .ofTruth (Truth.or a b)
  | op =>
    if l.isNull || r.isNull then .ok .null
    else if op.isArithmetic then op.arithmetic l r
    else match l.compare? r with
      | some o => .ok (.bool (op.holds o))
      | none => .ok .null

end BinaryOp

namespace Function

def ofOne (f : Function) (v : Value) : Eval Value :=
  match f, v with
  | _, .null => .ok .null
  | upper, .text s => .ok (.text (Text.upper s))
  | lower, .text s => .ok (.text (Text.lower s))
  | length, .text s => .ok (.int (.ofNat s.length))
  | length, .bytes b => .ok (.int (.ofNat b.length))
  | abs, .int i => inRange i.toInt.natAbs .absOverflow
  | abs, .float x => .ok (.float x.abs)
  | f, v => .error (.type (.undefinedFor f v.kind))

def apply (f : Function) (args : List Value) : Eval Value :=
  match f with
  | concat => .ok (.text (String.join ((args.filter fun v => !v.isNull).map Value.display)))
  | coalesce => .ok ((args.find? fun v => !v.isNull).getD .null)
  | f => f.ofOne (args.getLastD .null)

end Function

abbrev Expression := Row → Eval Value

namespace Term

def andThen (l r : Expression) : Expression := fun row => do
  match ← (← l row).truth with
  | some false => return .bool false
  | a => return .ofTruth (Truth.and a (← (← r row).truth))

def orElse (l r : Expression) : Expression := fun row => do
  match ← (← l row).truth with
  | some true => return .bool true
  | a => return .ofTruth (Truth.or a (← (← r row).truth))

def strict (op : BinaryOp) (l r : Expression) : Expression := fun row => do
  let a ← l row
  let b ← r row
  op.apply a b

def binaryExpression : BinaryOp → Expression → Expression → Expression
  | .and => andThen
  | .or => orElse
  | op => strict op

theorem binaryExpression_of_strict {op : BinaryOp} (other : op ∉ [.and, .or]) (l r : Expression) :
    binaryExpression op l r = strict op l r := by
  fun_cases binaryExpression op with
  | case1 | case2 => simp at other
  | case3 => rfl

mutual

def compile : Term → Except TermFault Expression
  | column components => .ok fun row => row.lookup (columnName components)
  | literal l => .ok fun _ => .ok l.value
  | unary op t => do
    let e ← t.compile
    return fun row => do op.apply (← e row)
  | binary op l r => do
    let a ← l.compile
    let b ← r.compile
    return binaryExpression op a b
  | isNull t negated => do
    let e ← t.compile
    return fun row => return .bool ((← e row).isNull != negated)
  | call name args => do
    let f ← Function.resolve name args.length
    let es ← compileAll args
    return fun row => do f.apply (← es.mapM fun e => e row)

def compileAll : List Term → Except TermFault (List Expression)
  | [] => .ok []
  | t :: rest => do
    let e ← t.compile
    let es ← compileAll rest
    return e :: es

end

end Term

/-- How terms are given a meaning; `Term.compile` is the usual way. -/
abbrev Compiler := Term → Except TermFault Expression

end RowQuery
