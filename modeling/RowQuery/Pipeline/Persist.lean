import RowQuery.Engine.Workspace
import RowQuery.Pipeline.Run

/-!
Computing the rows of a pipeline once and keeping them, in memory or as one segment for each part.
-/

namespace RowQuery

namespace Segment

def paddedNumber (n : Nat) : String :=
  let digits := Nat.toDigits 10 n
  String.ofList (List.replicate (5 - digits.length) '0' ++ digits)

def name (n : Nat) : String := "segment-" ++ paddedNumber n ++ ".json"

def writeAll (folder : String) (n : Nat) : List (List Row) → List (Action RunError Segment)
  | [] => []
  | part :: rest =>
    Workspace.onStore (write (Path.combine folder (name n)) part) :: writeAll folder (n + 1) rest

end Segment

def Pipeline.persist (persistDir : String) (tier : Tier) (p : Pipeline) :
    Action RunError Persisted := do
  let parts ← ExceptT.mk (return p.partitions (← get).store)
  match tier with
  | .memory => return .memory parts p.parallelism
  | .disk =>
    let id ← Workspace.drawId
    let folder := Path.combine persistDir id
    Workspace.onStore (Store.createContainer folder)
    let segments ← Jobs.runAll (Segment.writeAll folder 0 parts)
    return .disk segments p.parallelism

end RowQuery
