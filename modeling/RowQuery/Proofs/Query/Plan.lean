import RowQuery.Proofs.Pipeline.PartWise
import RowQuery.Query.Plan

/-!
The stages of a query as steps on one list of rows: the rows on which the filter is true, their
order, the set operations around the projection from the outside in, and the projection of each row.
-/

namespace RowQuery

inductive Wrapper
  | distinct : Wrapper
  | top : Nat → Wrapper

namespace Wrapper

def apply : Wrapper → List Row → List Row
  | distinct, rows => distinctRows rows
  | top count, rows => rows.take count

def stage : Wrapper → Stage
  | distinct => .distinct
  | top count => .take count

end Wrapper

/-- The wrappers of a projection, the outermost first, and the list inside them. -/
def Projection.unwrap : List Projection → List Wrapper × List Projection
  | [.distinct inner] => (.distinct :: (unwrap inner).1, (unwrap inner).2)
  | [.top count inner] => (.top count :: (unwrap inner).1, (unwrap inner).2)
  | items => ([], items)
termination_by items => sizeOf items

namespace Projection

end Projection

def keepTrue? (e : Expression) (rows : List Row) : Option (List Row) :=
  if ∀ row ∈ rows, (e row).toOption.isSome then
    some (rows.filter fun row => (e row).toOption = some (.bool true))
  else none

namespace Query

def compiled? (compile : Compiler) (q : Query) :
    Option (Option Expression × List ProjectionStep) := do
  let condition ← q.filter.mapM fun t => (compile t).toOption
  let steps ← ((Projection.unwrap q.projection).2.mapM (Projection.step compile)).toOption
  return (condition, steps)

/-- What the compiled query makes of its source rows, taken as one list. -/
def compute? (q : Query) (condition : Option Expression) (steps : List ProjectionStep)
    (source : List Row) :
    Option (List Row) := do
  let kept ← condition.elim (some source) fun e => keepTrue? e source
  let ordered ← (sortRows q.orderBy kept).toOption
  let chosen := (Projection.unwrap q.projection).1.foldl
    (fun rows wrapper => wrapper.apply rows) ordered
  chosen.mapM fun row => (projectRow steps row).toOption

def answer? (compile : Compiler) (q : Query) (source : List Row) : Option (List Row) := do
  let (condition, steps) ← q.compiled? compile
  q.compute? condition steps source

end Query

namespace Projection

end Projection

theorem Value.same_true (v : Value) : v.same (.bool true) = decide (v = .bool true) := by
  cases v with
  | bool b => cases b <;> decide
  | null => rfl
  | int i => simp [same, order, kind, Kind.rank]
  | float x => simp [same, order, kind, Kind.rank]
  | text s => simp [same, order, kind, Kind.rank]
  | bytes b => simp [same, order, kind, Kind.rank]

theorem toOption_filterStage (e : Expression) (rows : List Row) :
    (runStages [filterStage e] rows).toOption = keepTrue? e rows := by
  simp only [runStages, filterStage, Stage.eval, toOption_bind, toOption_onStage, toOption_onRows,
    toOption_ok]
  rw [Option.bind_fun_some, toOption_filterRows, keepTrue?]
  have told (row : Row) : (do return (← e row).same (.bool true) : Eval Bool).toOption
      = (e row).toOption.map fun v => decide (v = .bool true) := by
    simp only [toOption_bind, toOption_pure, Value.same_true, Option.map_eq_bind]
    rfl
  simp only [told, Option.isSome_map]
  simp

theorem toOption_sortStages (keys : List SortKey) (rows : List Row) :
    (runStages (sortStages keys) rows).toOption = (sortRows keys rows).toOption := by
  cases keys with
  | nil => rfl
  | cons key keys =>
    simp [sortStages, runStages, Stage.eval]

theorem runStages_wrappers (wrappers : List Wrapper) (rows : List Row) :
    runStages (wrappers.map Wrapper.stage) rows
      = .ok (wrappers.foldl (fun rows wrapper => wrapper.apply rows) rows) := by
  induction wrappers generalizing rows with
  | nil => rfl
  | cons wrapper wrappers ih =>
    rw [List.map_cons, runStages, List.foldl_cons, ← ih]
    cases wrapper <;> rfl

theorem toOption_projectionStages (compile : Compiler) (items : List Projection) :
    (projectionStages compile items).toOption
      = ((Projection.unwrap items).2.mapM (Projection.step compile)).toOption.map fun steps =>
          (Projection.unwrap items).1.map Wrapper.stage ++ [.map (projectRow steps)] := by
  fun_induction Projection.unwrap items with
  | case1 inner ih =>
    rw [projectionStages, toOption_bind, ih]
    cases ((Projection.unwrap inner).2.mapM (Projection.step compile)).toOption <;> rfl
  | case2 count inner ih =>
    rw [projectionStages, toOption_bind, ih]
    cases ((Projection.unwrap inner).2.mapM (Projection.step compile)).toOption <;> rfl
  | case3 items noDistinct noTop =>
    rw [projectionStages.eq_3 _ _ noDistinct noTop, toOption_bind, Option.map_eq_bind]
    rfl

theorem toOption_filterStages (compile : Compiler) (filter : Option Term) :
    (filterStages compile filter).toOption = (filter.mapM fun t => (compile t).toOption).map
        fun condition =>
      condition.elim [] fun e => [filterStage e] := by
  cases filter with
  | none => rfl
  | some t =>
    rw [filterStages, toOption_bind, compileTerm, Option.mapM_some]
    cases compile t <;> rfl

theorem toOption_projected (wrappers : List Wrapper) (steps : List ProjectionStep)
    (rows : List Row) :
    (runStages (wrappers.map Wrapper.stage ++ [.map (projectRow steps)]) rows).toOption
      = (wrappers.foldl (fun rows wrapper => wrapper.apply rows) rows).mapM
        fun row => (projectRow steps row).toOption := by
  rw [runStages_append, runStages_wrappers]
  simp only [runStages, Stage.eval, toOption_bind, toOption_ok, toOption_onStage, toOption_onRows,
    toOption_mapM, Option.bind_some, Option.bind_fun_some]

/-- The stages of a query, one after another, make of a list of rows what the query makes of it. -/
theorem toOption_runStages_stages (compile : Compiler) (q : Query) (source : List Row) :
    ((q.stages compile).toOption.bind fun stages => (runStages stages source).toOption)
      = q.answer? compile source := by
  rw [Query.stages, Query.answer?, Query.compiled?]
  simp only [toOption_bind, toOption_filterStages, toOption_projectionStages, toOption_pure,
    Option.bind_map, Function.comp_def, Option.bind_assoc, Option.bind_some, Option.bind_eq_bind,
    Option.pure_def]
  congr 1
  funext condition
  congr 1
  funext steps
  rw [runStages_append, runStages_append]
  simp only [toOption_bind, toOption_sortStages, toOption_projected, Option.bind_assoc]
  cases condition with
  | none => rfl
  | some e =>
    rw [Option.elim_some, toOption_filterStage]
    rfl

theorem standard_sortStages (keys : List SortKey) :
    ∀ stage ∈ sortStages keys, stage.IsStandard := by
  intro stage h
  cases keys with
  | nil => cases h
  | cons key keys =>
    rw [List.mem_singleton.1 h]
    trivial

theorem standard_projectionStages (compile : Compiler) {items : List Projection}
    {stages : List Stage} (h : projectionStages compile items = .ok stages) :
    ∀ stage ∈ stages, stage.IsStandard := by
  have planned := toOption_projectionStages compile items
  rw [h] at planned
  obtain ⟨steps, _, rfl⟩ := Option.map_eq_some_iff.1 planned.symm
  intro stage hmem
  rcases List.mem_append.1 hmem with hmem | hmem
  · obtain ⟨wrapper, _, rfl⟩ := List.mem_map.1 hmem
    cases wrapper <;> trivial
  · rw [List.mem_singleton.1 hmem]
    trivial

theorem standard_filterStages (compile : Compiler) {filter : Option Term} {stages : List Stage}
    (h : filterStages compile filter = .ok stages) : ∀ stage ∈ stages, stage.IsStandard := by
  have planned := toOption_filterStages compile filter
  rw [h] at planned
  obtain ⟨condition, _, rfl⟩ := Option.map_eq_some_iff.1 planned.symm
  intro stage hmem
  cases condition with
  | none => cases hmem
  | some e =>
    rw [List.mem_singleton.1 hmem]
    trivial

theorem Query.standard_stages (compile : Compiler) (q : Query) {stages : List Stage}
    (h : q.stages compile = .ok stages) : ∀ stage ∈ stages, stage.IsStandard := by
  rw [Query.stages] at h
  cases hf : filterStages compile q.filter with
  | error e => simp [hf, bind, Except.bind] at h
  | ok filters =>
    cases hp : projectionStages compile q.projection with
    | error e => simp [hf, hp, bind, Except.bind] at h
    | ok projections =>
      simp only [hf, hp, bind, Except.bind, pure, Except.pure, Except.ok.injEq] at h
      subst h
      simp only [List.forall_mem_append]
      exact ⟨⟨standard_filterStages compile hf, standard_sortStages q.orderBy⟩,
        standard_projectionStages compile hp⟩

end RowQuery
