import RowQuery.Proofs.Query.Origin
import RowQuery.Proofs.Query.Plan
import RowQuery.Proofs.Store.Listing

/-!
What a query without a destination answers, computed from the rows of its origin as one list.
-/

namespace RowQuery

namespace Query

variable (context : QueryContext) {q : Query} (w : Workspace)

def pipeline (context : QueryContext) (q : Query) : Action QueryError Pipeline :=
  match q.refusal? with
  | some refusal => throw (.unsupported refusal)
  | none => do
    match ← q.source.origin.pipeline? context with
    | none => throw (.sourceNotFound q.source.origin.describe)
    | some p =>
      let stages ← checked (q.stages context.compile)
      return { p with stages := p.stages ++ stages }

def deliver (context : QueryContext) (p : Pipeline) :
    Option Destination → Action QueryError QueryOutput
  | some destination => destination.route context p
  | none => do return .array (← onRun (ExceptT.mk do return p.rows (← get).store))

theorem deliver_none (p : Pipeline) :
    deliver context p none w = match p.rows w.store with
      | .ok rows => (.ok (.array rows), w)
      | .error e => (.error (.run e), w) := by
  have reads : (ExceptT.mk do return p.rows (← get).store : Action RunError (List Row)) w
    = (p.rows w.store, w) := rfl
  rw [deliver, run_bind, onRun, reads]
  cases p.rows w.store <;> rfl

theorem execute_eq (q : Query) :
    q.execute context w = match q.pipeline context w with
      | (.ok p, w') => deliver context p q.destination w'
      | (.error e, w') => (.error e, w') := by
  rw [execute, pipeline]
  cases q.refusal? with
  | some refusal => rfl
  | none =>
    dsimp only
    cases hp : q.source.origin.pipeline? context w with
    | mk result w' =>
      cases result with
      | error e => rw [run_bind_error hp, run_bind_error hp]
      | ok found =>
        rw [run_bind_ok hp, run_bind_ok hp]
        cases found with
        | none => rfl
        | some p =>
          dsimp only
          cases q.stages context.compile with
          | error e => rfl
          | ok stages =>
            cases q.destination with
            | some destination => rfl
            | none => rfl

theorem toOption_rows_pipeline (plain : q.refusal? = none) :
    (q.pipeline context w).2.store = w.store ∧
    ((q.pipeline context w).1.toOption.bind fun p => (p.rows w.store).toOption)
      = (q.source.origin.rows? context w).bind fun source => q.answer? context.compile source := by
  rw [pipeline, plain]
  dsimp only
  cases hs : q.stages context.compile with
  | error e =>
    have noAnswer (source : List Row) : q.answer? context.compile source = none := by
      rw [← toOption_runStages_stages, hs]
      rfl
    have none : ∀ stage ∈ ([] : List Stage), stage.IsStandard := by simp
    obtain ⟨store, _⟩ := q.source.origin.toOption_rows_pipeline? context w none
    simp only [noAnswer, Option.bind_fun_none]
    cases hp : q.source.origin.pipeline? context w with
    | mk result w' =>
      rw [hp] at store
      cases result with
      | error e => rw [run_bind_error hp]; exact ⟨store, rfl⟩
      | ok found => rw [run_bind_ok hp]; cases found <;> exact ⟨store, rfl⟩
  | ok stages =>
    have answer (source : List Row) :
        q.answer? context.compile source = (runStages stages source).toOption := by
      rw [← toOption_runStages_stages, hs]
      rfl
    obtain ⟨store, run⟩ :=
      q.source.origin.toOption_rows_pipeline? context w (q.standard_stages _ hs)
    simp only [answer]
    rw [← run]
    cases hp : q.source.origin.pipeline? context w with
    | mk result w' =>
      rw [hp] at store
      cases result with
      | error e => rw [run_bind_error hp]; exact ⟨store, rfl⟩
      | ok found => rw [run_bind_ok hp]; cases found <;> exact ⟨store, rfl⟩

theorem toOption_execute (plain : q.refusal? = none) (noDestination : q.destination = none) :
    (q.execute context w).1.toOption
      = ((q.source.origin.rows? context w).bind
        fun source => q.answer? context.compile source).map .array := by
  obtain ⟨store, run⟩ := toOption_rows_pipeline context w plain
  rw [execute_eq, noDestination, ← run]
  cases hp : q.pipeline context w with
  | mk result w' =>
    rw [hp] at store
    change w'.store = w.store at store
    cases result with
    | error e => rfl
    | ok p =>
      change (deliver context p none w').1.toOption = _
      rw [deliver_none, store]
      cases hr : p.rows w.store <;> simp [hr]

theorem refusal?_of_plain (noJoins : q.joins = []) (noGroupBy : q.groupBy = []) :
    q.refusal? = none := by
  simp [refusal?, noJoins, noGroupBy]

end Query

end RowQuery
