/-!
The scalar functions and how a call is resolved: by the name in any ASCII case and the number of
arguments.
-/

namespace RowQuery

inductive Function
  | upper | lower | length | abs | concat | coalesce
  deriving DecidableEq

inductive TermFault
  | unknownFunction (name : String)
  | wrongArity (name : String) (arity : Nat)
  deriving DecidableEq

def TermFault.message : TermFault → String
  | unknownFunction name => s!"unknown function '{name}'"
  | wrongArity name arity => s!"function '{name}' does not take {arity} argument(s)"

namespace Function

def title : Function → String
  | upper => "Upper"
  | lower => "Lower"
  | length => "Length"
  | abs => "Abs"
  | concat => "Concat"
  | coalesce => "Coalesce"

def ofName? : String → Option Function
  | "upper" => some upper
  | "lower" => some lower
  | "length" => some length
  | "abs" => some abs
  | "concat" => some concat
  | "coalesce" => some coalesce
  | _ => none

def takes (arity : Nat) : Function → Bool
  | upper | lower | length | abs => arity = 1
  | concat => true
  | coalesce => 1 ≤ arity

/-- An unknown name is reported in lower case, a wrong count of arguments under the name as
written. -/
def resolve (name : String) (arity : Nat) : Except TermFault Function :=
  match ofName? name.toLower with
  | none => .error (.unknownFunction name.toLower)
  | some f => if f.takes arity then .ok f else .error (.wrongArity name arity)

end Function

end RowQuery
