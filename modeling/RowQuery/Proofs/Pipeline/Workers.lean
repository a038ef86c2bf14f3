import RowQuery.Engine.Config
import RowQuery.Proofs.Pipeline.Unpartitioned

/-!
Pipelines on a pool of workers. Each pass over the units is a run of the pool, in which the workers
take turns in any order; whatever the order and however many workers there are, the result is the
one of `Pipeline.rows`.
-/

namespace RowQuery

def EngineConfig.workers (config : EngineConfig) : Nat := max config.maxParallelTasks 1

def SourceUnit.job (waiting : List Stage) (unit : SourceUnit) : Job Store RunError (List Row) :=
  .step fun store => (.done (unit.evaluate store waiting), store)

inductive Passes (bound : Nat) (store : Store) (units : List SourceUnit) (waiting : List Stage) :
    Except RunError (List (List Row)) → Store → Prop
  | mk {results store'} :
      Pool.Runs bound (units.map (SourceUnit.job waiting)) store results store' →
      Passes bound store units waiting (Jobs.gather results) store'

inductive Prepares (bound parallelism : Nat) : Store → List SourceUnit → List Stage → List Stage →
    Except RunError (List SourceUnit × List Stage) → Store → Prop
  | nil {store units waiting} :
      Prepares bound parallelism store units waiting [] (.ok (units, waiting)) store
  | narrow {store units waiting stage stages result store'} : stage.scope = .narrow →
      Prepares bound parallelism store units (waiting ++ [stage]) stages result store' →
      Prepares bound parallelism store units waiting (stage :: stages) result store'
  | stopped {store units waiting stage stages e store'} : stage.scope = .wide →
      Passes bound store units waiting (.error e) store' →
      Prepares bound parallelism store units waiting (stage :: stages) (.error e) store'
  | refused {store units waiting stage stages parts e store'} : stage.scope = .wide →
      Passes bound store units waiting (.ok parts) store' →
      onStage (stage.eval parts.flatten) = .error e →
      Prepares bound parallelism store units waiting (stage :: stages) (.error e) store'
  | wide {store units waiting stage stages parts rows result store' store''} : stage.scope = .wide →
      Passes bound store units waiting (.ok parts) store' →
      onStage (stage.eval parts.flatten) = .ok rows →
      Prepares bound parallelism store' ((splitRows parallelism rows).map .rows)
        [] stages result store'' →
      Prepares bound parallelism store units waiting (stage :: stages) result store''

/-- The rows of a pipeline, computed by a pool with the given bound. -/
inductive Pipeline.Computes (bound : Nat) (p : Pipeline) (store : Store) :
    Except RunError (List Row) → Store → Prop
  | stopped {e store'} :
      Prepares bound p.parallelism store p.source.units [] p.stages (.error e) store' →
      Computes bound p store (.error e) store'
  | passed {units waiting result store' store''} :
      Prepares bound p.parallelism store p.source.units [] p.stages (.ok (units, waiting)) store' →
      Passes bound store' units waiting result store'' →
      Computes bound p store (List.flatten <$> result) store''

variable {bound : Nat} {store store' : Store}

theorem passes_iff (hb : 0 < bound) {units : List SourceUnit} {waiting : List Stage}
    {result : Except RunError (List (List Row))} :
    Passes bound store units waiting result store' ↔ result = runNarrow store units waiting ∧
    store' = store := by
  have fills : ∀ (n : Nat) (unit : SourceUnit), units[n]? = some unit →
      (unit.job waiting).Fills (fun _ : List Unit => store) n () (unit.evaluate store waiting) () :=
    fun _ _ _ => .stay (fun _ _ => rfl) .done
  constructor
  · intro h
    cases h with
    | mk runs =>
      obtain ⟨rfl, rfl⟩ := (Pool.runs_iff fills hb _ _).1 runs
      exact ⟨rfl, rfl⟩
  · rintro ⟨rfl, rfl⟩
    exact .mk ((Pool.runs_iff fills hb _ _).2 ⟨rfl, rfl⟩)

theorem prepares_prepareFrom (hb : 0 < bound) (store : Store) (parallelism : Nat)
    (units : List SourceUnit) (waiting stages : List Stage) :
    Prepares bound parallelism store units waiting stages
      (prepareFrom store parallelism units waiting stages) store := by
  induction stages generalizing units waiting with
  | nil => exact .nil
  | cons stage stages ih =>
    rw [prepareFrom]
    cases hs : stage.scope with
    | narrow => exact .narrow hs (ih _ _)
    | wide =>
      have pass : Passes bound store units waiting (runNarrow store units waiting) store :=
        (passes_iff hb).2 ⟨rfl, rfl⟩
      cases hp : runNarrow store units waiting with
      | error e => exact .stopped hs (hp ▸ pass)
      | ok parts =>
        rw [hp] at pass
        cases hr : onStage (stage.eval parts.flatten) with
        | error e =>
          simp only [bind, Except.bind, hr]
          exact .refused hs pass hr
        | ok rows =>
          simp only [bind, Except.bind, hr]
          exact .wide hs pass hr (ih _ _)

theorem Prepares.eq_prepareFrom (hb : 0 < bound) {parallelism : Nat} {units : List SourceUnit}
    {waiting stages : List Stage} {result : Except RunError (List SourceUnit × List Stage)}
    (h : Prepares bound parallelism store units waiting stages result store') :
    result = prepareFrom store parallelism units waiting stages ∧ store' = store := by
  induction h with
  | nil => exact ⟨rfl, rfl⟩
  | narrow hs _ ih =>
    rw [prepareFrom, hs]
    exact ih
  | stopped hs pass =>
    obtain ⟨found, rfl⟩ := (passes_iff hb).1 pass
    rw [prepareFrom, hs, ← found]
    exact ⟨rfl, rfl⟩
  | refused hs pass hr =>
    obtain ⟨found, rfl⟩ := (passes_iff hb).1 pass
    simp [prepareFrom, hs, ← found, hr, bind, Except.bind]
  | wide hs pass hr _ ih =>
    obtain ⟨found, rfl⟩ := (passes_iff hb).1 pass
    simpa [prepareFrom, hs, ← found, hr, bind, Except.bind] using ih

theorem Pipeline.computes_iff (hb : 0 < bound) (p : Pipeline)
    (result : Except RunError (List Row)) :
    p.Computes bound store result store' ↔ result = p.rows store ∧ store' = store := by
  constructor
  · intro h
    cases h with
    | stopped prepares =>
      obtain ⟨found, rfl⟩ := prepares.eq_prepareFrom hb
      rw [rows, partitions, prepare, ← found]
      exact ⟨rfl, rfl⟩
    | passed prepares pass =>
      obtain ⟨found, rfl⟩ := prepares.eq_prepareFrom hb
      obtain ⟨rfl, rfl⟩ := (passes_iff hb).1 pass
      rw [rows, partitions, prepare, ← found, ← bind_pure_comp]
      exact ⟨rfl, rfl⟩
  · rintro ⟨rfl, rfl⟩
    have prepares := prepares_prepareFrom hb store' p.parallelism p.source.units [] p.stages
    cases hp : prepareFrom store' p.parallelism p.source.units [] p.stages with
    | error e =>
      rw [hp] at prepares
      rw [rows, partitions, prepare, hp]
      exact .stopped prepares
    | ok prepared =>
      rw [hp] at prepares
      have whole : p.rows store' = List.flatten <$> runNarrow store' prepared.1 prepared.2 := by
        rw [rows, partitions, prepare, hp, ← bind_pure_comp]
        rfl
      rw [whole]
      exact .passed prepares ((passes_iff hb).2 ⟨rfl, rfl⟩)

/-- A pipeline succeeds when its stages succeed on the rows of its source as one list, and gives the
same rows. How many workers there are, how the rows are cut and into how many parts they are split
makes no difference. -/
theorem rows_iff_unpartitioned (config : EngineConfig) (p : Pipeline) (store : Store)
    (standard : ∀ stage ∈ p.stages, stage.IsStandard) :
    (∀ rows, p.rows store = .ok rows ↔ p.unpartitioned store = .ok rows) ∧
    (∀ result store', p.Computes config.workers store result store' ↔
      result = p.rows store ∧ store' = store) ∧
    ∀ q : Pipeline, q.stages = p.stages →
      (∀ rows, q.source.rows store = .ok rows ↔ p.source.rows store = .ok rows) →
      ∀ rows, q.rows store = .ok rows ↔ p.rows store = .ok rows := by
  refine ⟨toOption_eq_iff.1 (toOption_rows standard store), fun result store' => ?_,
    fun q stages sources => ?_⟩
  · have positive : 0 < config.workers := Nat.lt_of_lt_of_le Nat.one_pos (Nat.le_max_right _ _)
    exact p.computes_iff positive result
  · rw [← toOption_eq_iff] at sources ⊢
    rw [toOption_rows standard, toOption_rows (stages ▸ standard), Pipeline.unpartitioned,
      Pipeline.unpartitioned, toOption_bind, toOption_bind, sources, stages]

theorem rows_iff_unpartitioned_three_parts :
    let row (i : Int64) : Row := NameMap.empty.insert "n" (.int i)
    let p : Pipeline :=
      { source := .memory [[row 2, row 1], [], [row 2]]
        stages := [.filter fun r => do return !(← r.lookup "n").isNull, .distinct, .take 5]
        parallelism := 2
        parallelism_pos := by decide }
    (∀ stage ∈ p.stages, stage.IsStandard) ∧ p.rows (.memory {}) = .ok [row 2, row 1] ∧
      p.Computes (EngineConfig.workers { maxParallelTasks := 0 }) (.memory {}) (.ok [row 2, row 1])
        (.memory {}) := by
  intro row p
  have standard : ∀ stage ∈ p.stages, stage.IsStandard := by simp [p, Stage.IsStandard]
  obtain ⟨plain, computes, _⟩ :=
    rows_iff_unpartitioned { maxParallelTasks := 0 } p (.memory {}) standard
  have found : p.rows (.memory {}) = .ok [row 2, row 1] := (plain _).2 (by cbv)
  exact ⟨standard, found, (computes _ _).2 ⟨found.symm, rfl⟩⟩

end RowQuery
