import RowQuery.Query.Basic
import RowQuery.Sorting
import RowQuery.Term.Eval

/-!
Stages of a pipeline. A narrow stage treats rows one part at a time; a wide one needs all of them
together.
-/

namespace RowQuery

inductive StageError
  | plan (reason : String)
  | exec (reason : String)
  | row (fault : EvalError)
  deriving DecidableEq

def StageError.message : StageError → String
  | plan reason => s!"planning error: {reason}"
  | exec reason => s!"execution error: {reason}"
  | row fault => fault.message

/-- A stage that panics has no reason to tell. -/
inductive StageFault
  | error (reason : StageError)
  | panicked
  deriving DecidableEq

inductive Scope
  | narrow | wide
  deriving DecidableEq

inductive Stage
  | filter : (Row → Eval Bool) → Stage
  | map : (Row → Eval Row) → Stage
  | distinct : Stage
  | take : Nat → Stage
  | sort : List SortKey → Stage
  | custom (name : String) (scope : Scope) (eval : List Row → Except StageError (List Row)) : Stage

def onRows {α : Type} (result : Eval α) : Except StageFault α :=
  result.mapError fun e => .error (.row e)

def filterRows (keeps : Row → Eval Bool) : List Row → Eval (List Row)
  | [] => .ok []
  | row :: rest => do
    let kept ← keeps row
    let rows ← filterRows keeps rest
    return if kept then row :: rows else rows

/-- The first of each set of equal rows, given the rows that came before. -/
def distinctAfter (seen : List Row) : List Row → List Row
  | [] => []
  | row :: rest =>
    if seen.any row.same then distinctAfter seen rest else row :: distinctAfter (row :: seen) rest

def distinctRows (rows : List Row) : List Row := distinctAfter [] rows

namespace SortKey

def compare (key : SortKey) (a b : Value) : Ordering :=
  match key.direction with
  | .ascending => a.sortOrder b
  | .descending => b.sortOrder a

def values (keys : List SortKey) (row : Row) : Eval (List Value) :=
  keys.mapM fun key => row.lookup key.column

def compareAll : List SortKey → List Value → List Value → Ordering
  | key :: keys, a :: as, b :: bs => (key.compare a b).then (compareAll keys as bs)
  | _, _, _ => .eq

end SortKey

/-- A sort makes room for eight million bytes in any case; a row with its looked-up values takes
48. -/
def sortCapacity : Nat := 8000000 / 48

/-- The values of all rows are looked up before any are compared. -/
def sortRows (keys : List SortKey) (rows : List Row) : Except StageFault (List Row) :=
  if keys.isEmpty then .ok rows
  else do
    let keyed ← onRows (rows.mapM fun row => do return (← SortKey.values keys row, row))
    match Sorting.sort? (fun a b => SortKey.compareAll keys a.1 b.1 == .lt) sortCapacity keyed with
    | some sorted => .ok (sorted.map (·.2))
    | none => .error .panicked

namespace Stage

def name : Stage → String
  | filter _ => "filter"
  | map _ => "map"
  | distinct => "distinct"
  | take _ => "take"
  | sort _ => "sort"
  | custom name _ _ => name

def scope : Stage → Scope
  | filter _ | map _ => .narrow
  | distinct | take _ | sort _ => .wide
  | custom _ scope _ => scope

def eval : Stage → List Row → Except StageFault (List Row)
  | filter keeps, rows => onRows (filterRows keeps rows)
  | map f, rows => onRows (rows.mapM f)
  | distinct, rows => .ok (distinctRows rows)
  | take count, rows => .ok (rows.take count)
  | sort keys, rows => sortRows keys rows
  | custom _ _ f, rows => (f rows).mapError .error

end Stage

end RowQuery
