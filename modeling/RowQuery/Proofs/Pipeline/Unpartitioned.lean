import RowQuery.Proofs.Engine.OwnCells
import RowQuery.Proofs.Pipeline.PartWise

/-!
Partitions are invisible. A pipeline is run unit by unit, its wide stages gather and split the rows
again, and its workers take turns as they like; what comes out is what its stages make, one after
another, of all rows of the source as one list.
-/

namespace RowQuery

def Source.rows (store : Store) (source : Source) : Except RunError (List Row) := do
  return (← source.units.mapM (SourceUnit.load store)).flatten

def Pipeline.unpartitioned (store : Store) (p : Pipeline) : Except RunError (List Row) := do
  runStages p.stages (← p.source.rows store)

def gathered (store : Store) (units : List SourceUnit) : Option (List Row) :=
  (units.mapM fun unit : SourceUnit => (unit.load store).toOption).map List.flatten

@[simp] theorem gathered_rows (store : Store) (parts : List (List Row)) :
    gathered store (parts.map .rows) = some parts.flatten := by
  have loaded : (parts.map SourceUnit.rows).mapM
      (fun unit : SourceUnit => (unit.load store).toOption) = some parts := by
    induction parts with
    | nil => rfl
    | cons part parts ih =>
      rw [List.map_cons, List.mapM_cons, ih]
      rfl
  rw [gathered, loaded]
  rfl

theorem toOption_source_rows (store : Store) (source : Source) :
    (source.rows store).toOption = gathered store source.units := by
  simp only [Source.rows, toOption_bind, toOption_mapM, toOption_pure, gathered]
  cases source.units.mapM fun unit : SourceUnit => (unit.load store).toOption <;> rfl

theorem flatten_runNarrow (store : Store) (units : List SourceUnit) {waiting : List Stage}
    (h : ∀ stage ∈ waiting, PartWise fun rows => (stage.eval rows).toOption) :
    (runNarrow store units waiting).toOption.map List.flatten
      = (gathered store units).bind fun rows => (runStages waiting rows).toOption := by
  have each (unit : SourceUnit) : (unit.evaluate store waiting).toOption
      = (unit.load store).toOption.bind fun rows => (runStages waiting rows).toOption := by
    rw [SourceUnit.evaluate, toOption_bind]
  rw [runNarrow, toOption_gather, List.mapM_map]
  simp only [Function.comp_def, each]
  exact (partWise_runStages h).flatten_mapM_bind _ units

/-- The loop over the stages keeps this: what is still to be done on the units, after the waiting
stages, is what those stages and the remaining ones make of the gathered rows. -/
theorem flatten_prepareFrom (store : Store) (parallelism : Nat) {stages : List Stage}
    (standard : ∀ stage ∈ stages, stage.IsStandard) (units : List SourceUnit) (waiting : List Stage)
    (h : ∀ stage ∈ waiting, PartWise fun rows => (stage.eval rows).toOption) :
    ((prepareFrom store parallelism units waiting stages).toOption.bind fun (units, waiting) =>
        (runNarrow store units waiting).toOption.map List.flatten)
      = (gathered store units).bind fun rows => (runStages (waiting ++ stages) rows).toOption := by
  induction stages generalizing units waiting with
  | nil =>
    rw [List.append_nil]
    exact flatten_runNarrow store units h
  | cons stage stages ih =>
    obtain ⟨head, tail⟩ := List.forall_mem_cons.1 standard
    rw [prepareFrom]
    cases hs : stage.scope with
    | narrow =>
      have both : ∀ s ∈ waiting ++ [stage], PartWise fun rows => (s.eval rows).toOption := by
        intro s hmem
        rcases List.mem_append.1 hmem with hmem | hmem
        · exact h s hmem
        · rw [List.mem_singleton.1 hmem]
          exact head.partWise hs
      rw [ih tail units _ both, List.append_assoc]
      rfl
    | wide =>
      -- the waiting stages are done here, so none waits for the parts of the new split
      have rest (rows : List Row) :
          ((prepareFrom store parallelism ((splitRows parallelism rows).map .rows) []
            stages).toOption.bind
              fun (units, waiting) => (runNarrow store units waiting).toOption.map List.flatten)
          = (runStages stages rows).toOption := by
        rw [ih tail _ [] (by simp), gathered_rows, flatten_splitRows]
        rfl
      have stages_eq (rows : List Row) : (runStages (waiting ++ stage :: stages) rows).toOption
          = (runStages waiting rows).toOption.bind
              fun rows => (stage.eval rows).toOption.bind fun rows =>
              (runStages stages rows).toOption := by
        simp [runStages_append, runStages]
      simp only [stages_eq, ← Option.bind_assoc]
      rw [← flatten_runNarrow store units h]
      simp only [toOption_bind, toOption_onStage, Option.bind_assoc, rest]
      cases (runNarrow store units waiting).toOption <;> rfl

theorem toOption_rows {p : Pipeline} (standard : ∀ stage ∈ p.stages, stage.IsStandard)
    (store : Store) : (p.rows store).toOption = (p.unpartitioned store).toOption := by
  have loop := flatten_prepareFrom store p.parallelism standard p.source.units [] (by simp)
  rw [Pipeline.unpartitioned, toOption_bind, toOption_source_rows]
  rw [List.nil_append] at loop
  rw [← loop, Pipeline.rows, Pipeline.partitions, Pipeline.prepare]
  cases prepareFrom store p.parallelism p.source.units [] p.stages with
  | error e => rfl
  | ok prepared =>
    obtain ⟨units, waiting⟩ := prepared
    cases h : runNarrow store units waiting <;> simp [h, bind, Except.bind, pure, Except.pure]

end RowQuery
