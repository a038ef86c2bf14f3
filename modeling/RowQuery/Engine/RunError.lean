import RowQuery.DataError
import RowQuery.Pipeline.Stage

/-!
What can go wrong while a pipeline runs.
-/

namespace RowQuery

inductive InvalidPlan
  | otherEntries (collection : String)
  | refused (reason : String)
  deriving DecidableEq

def InvalidPlan.message : InvalidPlan → String
  | otherEntries collection => s!"result-set collection '{collection}' holds a different value type"
  | refused reason => reason

inductive RunError
  | cancelled
  | stage (fault : StageError)
  | data (fault : DataError)
  | unreadableSegment
  | corrupt (path : String)
  | stopped
  | invalid (plan : InvalidPlan)
  deriving DecidableEq

def RunError.message : RunError → String
  | cancelled => "operation was cancelled"
  | stage fault => s!"operator exec: {fault.message}"
  | data fault => fault.message
  | unreadableSegment => "serialization: the text is not a segment"
  | corrupt path => s!"persisted segment '{path}' failed checksum verification"
  | stopped => "worker join: the job stopped"
  | invalid plan => s!"invalid plan: {plan.message}"

def onData {α : Type} (result : Except DataError α) : Except RunError α :=
  match result with
  | .ok a => .ok a
  | .error e => .error (.data e)

/-- The result of a stage, as part of a run. A worker on which a stage panics has stopped. -/
def onStage {α : Type} (result : Except StageFault α) : Except RunError α :=
  match result with
  | .ok a => .ok a
  | .error (.error e) => .error (.stage e)
  | .error .panicked => .error .stopped

end RowQuery
