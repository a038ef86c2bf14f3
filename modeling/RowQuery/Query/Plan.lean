import RowQuery.Pipeline.Basic
import RowQuery.Query.QueryError

/-!
The stages of a query: those of its filter, its sort keys and its projection, in this order.
-/

namespace RowQuery

inductive ProjectionStep
  | star : ProjectionStep
  | column (name output : String) : ProjectionStep
  | computed (value : Expression) (label : Option String) : ProjectionStep

namespace ProjectionStep

/-- A computed value without a label is put under its own text. -/
def apply (row made : Row) : ProjectionStep → Eval Row
  | star => .ok (made.merged row)
  | column name output => do return made.insert output (← row.lookup name)
  | computed value label => do
    let v ← value row
    return made.insert (label.getD v.display) v

end ProjectionStep

def projectOnto (row made : Row) : List ProjectionStep → Eval Row
  | [] => .ok made
  | step :: rest => do
    let made ← step.apply row made
    projectOnto row made rest

/-- The row that the items make of a row; a later item writes over an earlier one. -/
def projectRow (steps : List ProjectionStep) (row : Row) : Eval Row := projectOnto row .empty steps

def compileTerm (compile : Compiler) (t : Term) : Except QueryError Expression :=
  match compile t with
  | .ok e => .ok e
  | .error fault => .error (.expression fault)

def Projection.step (compile : Compiler) : Projection → Except QueryError ProjectionStep
  | item (.column components) label =>
    let name := columnName components
    if name = wildcard then .ok .star else .ok (.column name (label.getD name))
  | item t label => do return .computed (← compileTerm compile t) label
  | distinct _ => .error (.unsupported .wrapperAmongItems)
  | top _ _ => .error (.unsupported .wrapperAmongItems)

/-- A wrapper stands alone in its list and works on whole source rows, the outermost one first. -/
def projectionStages (compile : Compiler) : List Projection → Except QueryError (List Stage)
  | [.distinct inner] => do return .distinct :: (← projectionStages compile inner)
  | [.top count inner] => do return .take count :: (← projectionStages compile inner)
  | items => do return [.map (projectRow (← items.mapM (Projection.step compile)))]
termination_by items => sizeOf items

def filterStage (e : Expression) : Stage :=
  .filter fun row => do return (← e row).same (.bool true)

def filterStages (compile : Compiler) : Option Term → Except QueryError (List Stage)
  | none => .ok []
  | some t => do return [filterStage (← compileTerm compile t)]

def sortStages (keys : List SortKey) : List Stage := if keys.isEmpty then [] else [.sort keys]

def Query.stages (compile : Compiler) (q : Query) : Except QueryError (List Stage) := do
  let filters ← filterStages compile q.filter
  let projections ← projectionStages compile q.projection
  return filters ++ sortStages q.orderBy ++ projections

end RowQuery
