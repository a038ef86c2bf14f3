import RowQuery.Engine.Jobs
import RowQuery.Pipeline.Basic

/-!
Running a pipeline. Narrow stages wait until a wide stage or the end, and are then run unit by unit;
a wide stage sees all rows at once, and its result is split again.
-/

namespace RowQuery

def runStages : List Stage → List Row → Except RunError (List Row)
  | [], rows => .ok rows
  | stage :: rest, rows => do
    let rows ← onStage (stage.eval rows)
    runStages rest rows

def SourceUnit.evaluate (store : Store) (waiting : List Stage) (unit : SourceUnit) :
    Except RunError (List Row) := do
  let rows ← unit.load store
  runStages waiting rows

def runNarrow (store : Store) (units : List SourceUnit) (waiting : List Stage) :
    Except RunError (List (List Row)) :=
  Jobs.gather (units.map fun unit => unit.evaluate store waiting)

/-- Runs the stages up to the last wide one: the units that then hold the rows, and the narrow
stages that still wait. -/
def prepareFrom (store : Store) (parallelism : Nat) (units : List SourceUnit)
    (waiting : List Stage) :
    List Stage → Except RunError (List SourceUnit × List Stage)
  | [] => .ok (units, waiting)
  | stage :: rest =>
    match stage.scope with
    | .narrow => prepareFrom store parallelism units (waiting ++ [stage]) rest
    | .wide => do
      let parts ← runNarrow store units waiting
      let rows ← onStage (stage.eval parts.flatten)
      prepareFrom store parallelism ((splitRows parallelism rows).map .rows) [] rest

namespace Pipeline

def prepare (store : Store) (p : Pipeline) : Except RunError (List SourceUnit × List Stage) :=
  prepareFrom store p.parallelism p.source.units [] p.stages

def partitions (store : Store) (p : Pipeline) : Except RunError (List (List Row)) := do
  let (units, waiting) ← p.prepare store
  runNarrow store units waiting

def rows (store : Store) (p : Pipeline) : Except RunError (List Row) := do
  return (← p.partitions store).flatten

end Pipeline

end RowQuery
