import RowQuery.Codec.Catalog
import RowQuery.Engine.Config
import RowQuery.Pipeline.Segment

/-!
Pipelines: a source of rows in units, and the stages that the rows pass. Building one reads nothing.
The degree of parallelism is the number of parts into which the result of a wide stage is split.
-/

namespace RowQuery

-- sums start from the numeral, whatever else is imported
attribute [local instance (high)] Zero.ofOfNat0

inductive Persisted
  | memory (parts : List (List Row)) (parallelism : Nat) : Persisted
  | disk (segments : List Segment) (parallelism : Nat) : Persisted

namespace Persisted

def tier : Persisted → Tier
  | memory _ _ => .memory
  | disk _ _ => .disk

def parallelism : Persisted → Nat
  | memory _ parallelism => parallelism
  | disk _ parallelism => parallelism

def rowCount : Persisted → Nat
  | memory parts _ => (parts.map List.length).sum
  | disk segments _ => (segments.map Segment.rows).sum

def describe : Persisted → String
  | memory parts _ => s!"Memory \x7b partitions: {parts.length} \x7d"
  | disk segments _ => s!"Disk \x7b segments: {segments.length} \x7d"

end Persisted

inductive SourceUnit
  | object : String → Decoder → SourceUnit
  | segment : Segment → SourceUnit
  | rows : List Row → SourceUnit

def SourceUnit.load (store : Store) : SourceUnit → Except RunError (List Row)
  | object path decoder => onData do decoder.decode (← store.read path)
  | segment s => s.load store
  | rows part => .ok part

inductive Source
  | objects : List String → Decoder → Source
  | persisted : Persisted → Source
  | memory : List (List Row) → Source

namespace Source

def units : Source → List SourceUnit
  | objects paths decoder => paths.map fun path => .object path decoder
  | persisted (.memory parts _) => parts.map .rows
  | persisted (.disk segments _) => segments.map .segment
  | memory parts => parts.map .rows

def impliedParallelism? : Source → Option Nat
  | objects paths _ => if 1 < paths.length then some paths.length else none
  | persisted p => some p.parallelism
  | memory parts => if parts.isEmpty then none else some parts.length

end Source

def chunks {α : Type} (length : Nat) (l : List α) : List (List α) :=
  if l.isEmpty then [] else l.take (max length 1) :: chunks length (l.drop (max length 1))
termination_by l.length
decreasing_by
  rename_i h
  rw [List.isEmpty_iff_length_eq_zero] at h
  rw [List.length_drop]
  omega

/-- At most the given number of parts, all but the last of one length, and none of them empty. -/
def splitRows {α : Type} (parts : Nat) (rows : List α) : List (List α) :=
  chunks ((rows.length + (max parts 1 - 1)) / max parts 1) rows

theorem flatten_chunks {α : Type} (length : Nat) (l : List α) : (chunks length l).flatten = l := by
  fun_induction chunks length l with
  | case1 l h => simpa using h
  | case2 l _ ih => simp [ih]

theorem ne_nil_of_mem_chunks {α : Type} {length : Nat} {l part : List α}
    (h : part ∈ chunks length l) : part ≠ [] := by
  fun_induction chunks length l with
  | case1 => simp at h
  | case2 l hl ih =>
    rcases List.mem_cons.1 h with rfl | h
    · simp_all
    · exact ih h

@[simp] theorem flatten_splitRows {α : Type} (parts : Nat) (rows : List α) :
    (splitRows parts rows).flatten = rows := flatten_chunks _ rows

structure Pipeline where
  source : Source
  stages : List Stage := []
  parallelism : Nat
  parallelism_pos : 0 < parallelism

namespace Pipeline

def new (source : Source) (parallelism : Nat) : Pipeline :=
  { source, parallelism := max parallelism 1, parallelism_pos := by omega }

def ofSource (source : Source) (fallback : Nat) : Pipeline :=
  new source (source.impliedParallelism?.getD fallback)

def ofRows (rows : List Row) (parallelism : Nat) : Pipeline :=
  new (.memory (splitRows parallelism rows)) parallelism

def andThen (p : Pipeline) (stage : Stage) : Pipeline := { p with stages := p.stages ++ [stage] }

def stageNames (p : Pipeline) : List String := p.stages.map Stage.name

def describe (p : Pipeline) : String :=
  let names := ", ".intercalate (p.stageNames.map fun name => s!"\"{name}\"")
  s!"RowPipeline \x7b stages: [{names}], parallelism: {p.parallelism} \x7d"

end Pipeline

def Persisted.pipeline (p : Persisted) : Pipeline := .new (.persisted p) p.parallelism

end RowQuery
