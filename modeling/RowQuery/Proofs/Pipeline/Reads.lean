import RowQuery.Pipeline.Run

/-!
What a pipeline reads of a store: the objects of its units, and nothing else.
-/

namespace RowQuery

variable {store store' : Store}

namespace SourceUnit

def path? : SourceUnit → Option String
  | object path _ => some path
  | segment s => some s.path
  | rows _ => none

theorem load_congr {unit : SourceUnit}
    (same : ∀ path ∈ unit.path?, store'.read path = store.read path) :
    unit.load store' = unit.load store := by
  cases unit with
  | object path decoder => rw [load, load, same path rfl]
  | segment s => rw [load, load, Segment.load, Segment.load, same s.path rfl]
  | rows part => rfl

theorem evaluate_congr {unit : SourceUnit}
    (same : ∀ path ∈ unit.path?, store'.read path = store.read path) (waiting : List Stage) :
    unit.evaluate store' waiting = unit.evaluate store waiting := by
  rw [evaluate, evaluate, load_congr same]

end SourceUnit

section Same

variable (same : ∀ path, store'.read path = store.read path)
include same

theorem runNarrow_congr (units : List SourceUnit) (waiting : List Stage) :
    runNarrow store' units waiting = runNarrow store units waiting := by
  simp only [runNarrow, SourceUnit.evaluate_congr fun path _ => same path]

theorem prepareFrom_congr (parallelism : Nat) (units : List SourceUnit)
    (waiting stages : List Stage) :
    prepareFrom store' parallelism units waiting stages
      = prepareFrom store parallelism units waiting stages := by
  induction stages generalizing units waiting with
  | nil => rfl
  | cons stage stages ih => simp only [prepareFrom, runNarrow_congr same, ih]

theorem Pipeline.prepare_congr (p : Pipeline) : p.prepare store' = p.prepare store :=
  prepareFrom_congr same _ _ _ _

theorem Pipeline.partitions_congr (p : Pipeline) : p.partitions store' = p.partitions store := by
  simp only [partitions, p.prepare_congr same, runNarrow_congr same]

end Same

theorem mem_prepareFrom {parallelism : Nat} {units left : List SourceUnit}
    {waiting stages still : List Stage}
    (prepared : prepareFrom store parallelism units waiting stages = .ok (left, still))
    {unit : SourceUnit} (h : unit ∈ left) : unit ∈ units ∨ unit.path? = none := by
  induction stages generalizing units waiting with
  | nil =>
    cases prepared
    exact .inl h
  | cons stage stages ih =>
    rw [prepareFrom] at prepared
    cases hs : stage.scope with
    | narrow =>
      rw [hs] at prepared
      exact ih prepared
    | wide =>
      rw [hs] at prepared
      cases hn : runNarrow store units waiting with
      | error e => simp [hn, bind, Except.bind] at prepared
      | ok parts =>
        cases hr : onStage (stage.eval parts.flatten) with
        | error e => simp [hn, hr, bind, Except.bind] at prepared
        | ok rows =>
          simp only [hn, hr, bind, Except.bind] at prepared
          refine .inr ((ih prepared).elim (fun split => ?_) id)
          obtain ⟨part, -, rfl⟩ := List.mem_map.1 split
          rfl

end RowQuery
