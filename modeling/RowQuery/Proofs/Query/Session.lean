import RowQuery.Proofs.Query.Answer
import RowQuery.Proofs.Query.Destination

/-!
Sessions: statements one after another in one workspace, whose store may be replaced between them.
What a query reads from a result set is what the last successful query into it computed when it ran.
-/

namespace RowQuery

namespace Query

variable {context : QueryContext} {q : Query} {w : Workspace}

def asArray (q : Query) : Query := { q with destination := none }

theorem keeps_pipeline (context : QueryContext) (q : Query) :
    Keeps Workspace.view (q.pipeline context) := by
  rw [pipeline]
  cases q.refusal? with
  | some refusal => exact fun _ => rfl
  | none =>
    apply Keeps.bind (keeps_pipeline? context _)
    intro found
    cases found with
    | none => exact fun _ => rfl
    | some p => exact .bind (fun _ => rfl) fun _ => .pure _

theorem keeps_deliver (context : QueryContext) (p : Pipeline) {destination : Option Destination}
    (other : ∀ name, destination ≠ some (.resultSet name)) :
    Keeps Workspace.view (deliver context p destination) := by
  cases destination with
  | none => exact .bind (keeps_onRun fun _ => rfl) fun _ => .pure _
  | some destination =>
    cases destination with
    | resultSet name => exact absurd rfl (other name)
    | folder path codec => exact (keeps_route_folder context p path codec).comp ResultSets.view

theorem keeps_execute (context : QueryContext) (q : Query)
    (other : ∀ name, q.destination ≠ some (.resultSet name)) :
    Keeps Workspace.view (q.execute context) := by
  intro w
  rw [execute_eq, ← keeps_pipeline context q w]
  cases q.pipeline context w with
  | mk result w' =>
    cases result with
    | error e => rfl
    | ok p => exact keeps_deliver context p other w'

/-- A query into a result set keeps there what it would answer, or fails as it would fail to answer
and keeps nothing. -/
theorem execute_into (memory : context.tier = .memory) {name : String}
    (into : q.destination = some (.resultSet name)) (opens : w.results.opens) :
    (∃ parts parallelism, (q.asArray.execute context w).1 = .ok (.array parts.flatten) ∧
      (q.execute context w).1 = .ok .memory ∧ (q.execute context w).2.results.opens ∧
      ∀ other, (q.execute context w).2.results.persisted? other
        = if other = name then some (.memory parts parallelism) else w.results.persisted? other) ∨
    ∃ e, (q.asArray.execute context w).1 = .error e ∧ (q.execute context w).1 = .error e ∧
      (q.execute context w).2.view = w.view := by
  have view := keeps_pipeline context q w
  have same : q.asArray.pipeline context w = q.pipeline context w := rfl
  rw [execute_eq, execute_eq, same]
  cases hp : q.pipeline context w with
  | mk result w' =>
    rw [hp] at view
    change w'.results.view = w.results.view at view
    cases result with
    | error e => exact .inr ⟨e, rfl, rfl, view⟩
    | ok p =>
      rw [into]
      rcases route_resultSet memory p name ((ResultSets.opens_of_view view).2 opens) with
        ⟨parts, computed, ok, opens', kept⟩ | ⟨e, failed, error, view'⟩
      · have answered : (deliver context p none w').1 = .ok (.array parts.flatten) := by
          rw [deliver_none, Pipeline.rows, computed]
          rfl
        refine .inl ⟨parts, p.parallelism, answered, ok, opens', fun other => ?_⟩
        rw [← ResultSets.persisted?_of_view view other]
        exact kept other
      · have answered : (deliver context p none w').1 = .error (.run e) := by
          rw [deliver_none, Pipeline.rows, failed]
          rfl
        exact .inr ⟨.run e, answered, error, view'.trans view⟩

end Query

namespace Session

inductive Step
  | execute : Statement → Step
  | replace : Store → Step

variable (context : QueryContext)

def Step.apply (w : Workspace) : Step → Workspace
  | execute statement => (statement.execute context w).2
  | replace store => { w with store }

def run (w : Workspace) : List Step → Workspace
  | [] => w
  | step :: rest => run (step.apply context w) rest

def Step.into? (name : String) (w : Workspace) : Step → Option (Query × Workspace)
  | execute (.query q) =>
    match q.destination with
    | some (.resultSet target) =>
      if target = name ∧ (q.execute context w).1.toOption.isSome then some (q, w) else none
    | _ => none
  | _ => none

def lastInto? (name : String) (w : Workspace) : List Step → Option (Query × Workspace)
  | [] => none
  | step :: rest => (lastInto? name (step.apply context w) rest).or (step.into? context name w)

/-- What is kept under each name is what the query that is remembered for it would have answered. -/
structure Remembers (last : String → Option (Query × Workspace)) (w : Workspace) : Prop where
  opens : w.results.opens
  nothing : ∀ name, last name = none → w.results.persisted? name = none
  rows : ∀ name q before, last name = some (q, before) → ∃ parts parallelism,
    (q.asArray.execute context before).1 = .ok (.array parts.flatten) ∧
    w.results.persisted? name = some (.memory parts parallelism)

variable {context} {last : String → Option (Query × Workspace)} {w w' : Workspace}

theorem Remembers.of_view (h : Remembers context last w) (view : w'.view = w.view) :
    Remembers context last w' where
  opens := (ResultSets.opens_of_view view).2 h.opens
  nothing name hlast := (ResultSets.persisted?_of_view view name).trans (h.nothing name hlast)
  rows name q before hlast := by
    obtain ⟨parts, parallelism, answered, kept⟩ := h.rows name q before hlast
    exact ⟨parts, parallelism, answered, (ResultSets.persisted?_of_view view name).trans kept⟩

theorem Remembers.start (empty : w.results = {}) : Remembers context (fun _ => none) w where
  opens := by rw [empty]; exact ResultSets.opens_empty
  nothing name _ := by rw [empty]; rfl
  rows name q before hlast := by cases hlast

theorem into?_of_resultSet {q : Query} {target : String}
    (into : q.destination = some (.resultSet target)) (name : String) :
    (Step.execute (.query q)).into? context name w
      = if target = name ∧ (q.execute context w).1.toOption.isSome then some (q, w) else none := by
  rw [Step.into?, into]

theorem into?_of_other {q : Query} (other : ∀ name, q.destination ≠ some (.resultSet name))
    (name : String) : (Step.execute (.query q)).into? context name w = none := by
  rw [Step.into?]
  cases hd : q.destination with
  | none => rfl
  | some destination =>
    cases destination with
    | resultSet target => exact absurd hd (other target)
    | folder path codec => rfl

theorem Remembers.query (memory : context.tier = .memory)
    (h : Remembers context last w) (q : Query) :
    Remembers context (fun name => ((Step.execute (.query q)).into? context name w).or (last name))
      (q.execute context w).2 := by
  by_cases into : ∃ target, q.destination = some (.resultSet target)
  · obtain ⟨target, into⟩ := into
    simp only [into?_of_resultSet into]
    rcases q.execute_into memory into h.opens
      with ⟨parts, parallelism, answered, ok, opens, kept⟩ | ⟨e, _, error, view⟩
    · simp only [ok, toOption_ok, Option.isSome_some, and_true]
      refine ⟨opens, fun name hlast => ?_, fun name q' before hlast => ?_⟩
      · by_cases same : target = name
        · simp [same] at hlast
        · rw [kept, if_neg (Ne.symm same)]
          exact h.nothing name (by simpa [same] using hlast)
      · by_cases same : target = name
        · simp only [same, if_true, Option.some_or, Option.some.injEq, Prod.mk.injEq] at hlast
          obtain ⟨rfl, rfl⟩ := hlast
          exact ⟨parts, parallelism, answered, by rw [kept, if_pos same.symm]⟩
        · rw [kept, if_neg (Ne.symm same)]
          exact h.rows name q' before (by simpa [same] using hlast)
    · simp only [error, toOption_error, Option.isSome_none, Bool.false_eq_true, and_false, if_false,
        Option.none_or]
      exact h.of_view view
  · simp only [into?_of_other (not_exists.1 into), Option.none_or]
    exact h.of_view (q.keeps_execute context (not_exists.1 into) w)

theorem Remembers.step (memory : context.tier = .memory) (h : Remembers context last w)
    (step : Step) :
    Remembers context (fun name => (step.into? context name w).or (last name))
      (step.apply context w) := by
  cases step with
  | replace store => exact h.of_view rfl
  | execute statement =>
    cases statement with
    | query q => exact h.query memory q
    | insert target => exact h.of_view rfl
    | delete target => exact h.of_view rfl

theorem Remembers.run (memory : context.tier = .memory) (h : Remembers context last w)
    (steps : List Step) :
    Remembers context (fun name => (lastInto? context name w steps).or (last name))
      (run context w steps) := by
  induction steps generalizing last w with
  | nil => exact h
  | cons step steps ih =>
    simp only [lastInto?, Option.or_assoc]
    exact ih (h.step memory step)

theorem persisted?_execute (memory : context.tier = .memory) (opens : w.results.opens)
    (statement : Statement) (name : String)
    (untouched : (∃ e, (statement.execute context w).1 = .error e) ∨
      ∀ q, statement = .query q → q.destination ≠ some (.resultSet name)) :
    (statement.execute context w).2.results.persisted? name = w.results.persisted? name := by
  cases statement with
  | insert target => rfl
  | delete target => rfl
  | query q =>
    by_cases into : ∃ target, q.destination = some (.resultSet target)
    · obtain ⟨target, into⟩ := into
      rcases q.execute_into memory into opens
        with ⟨parts, parallelism, _, ok, _, kept⟩ | ⟨e, _, _, view⟩
      · rcases untouched with ⟨e, error⟩ | elsewhere
        · exact nomatch ok.symm.trans error
        · have different : name ≠ target := fun same => elsewhere q rfl (same ▸ into)
          exact (kept name).trans (if_neg different)
      · exact ResultSets.persisted?_of_view view name
    · exact ResultSets.persisted?_of_view (q.keeps_execute context (not_exists.1 into) w) name

/-- What a result set holds after a session that starts without any: nothing if no query into it has
succeeded, so that a query from it is refused, else the rows that the last successful query into it
would have answered when it ran, whatever has become of the store and of the other result sets. -/
theorem reads_last_written (context : QueryContext) (w : Workspace)
    (memory : context.tier = .memory) (empty : w.results = {}) (steps : List Step) :
    (∀ name, lastInto? context name w steps = none → ∀ q : Query,
      q.source.origin = .resultSet name →
      q.joins = [] → q.groupBy = [] →
      (q.execute context (run context w steps)).1 = .error (.sourceNotFound name)) ∧
    (∀ name writer before, lastInto? context name w steps = some (writer, before) →
      ∃ rows, (writer.asArray.execute context before).1 = .ok (.array rows) ∧
        (∃ p : Pipeline, (Origin.pipeline? context (.resultSet name) (run context w steps)).1
          = .ok (some p) ∧
          ∀ store, p.rows store = .ok rows) ∧
        ∀ q : Query, q.source.origin = .resultSet name → q.joins = [] → q.groupBy = [] →
          (q.asArray.execute context (run context w steps)).1.toOption
            = (q.answer? context.compile rows).map .array) ∧
    (∀ (statement : Statement) e,
      (statement.execute context (run context w steps)).1 = .error e → ∀ name,
      (statement.execute context (run context w steps)).2.results.persisted? name
        = (run context w steps).results.persisted? name) ∧
    ∀ (q : Query) other, q.destination ≠ some (.resultSet other) →
      (q.execute context (run context w steps)).2.results.persisted? other
        = (run context w steps).results.persisted? other := by
  have remembers := (Remembers.start empty).run memory steps
  simp only [Option.or_none] at remembers
  have found (name : String) := Origin.pipeline?_of_opens context remembers.opens name
  refine ⟨fun name never q origin noJoins noGroupBy => ?_,
    fun name writer before last => ?_, ?_, ?_⟩
  · have missing := found name
    rw [remembers.nothing name never, ← origin] at missing
    rw [Query.execute_eq, Query.pipeline, Query.refusal?_of_plain noJoins noGroupBy]
    dsimp only
    cases hp : q.source.origin.pipeline? context (run context w steps) with
    | mk result w' =>
      rw [hp] at missing
      change result = .ok none at missing
      rw [missing] at hp
      rw [run_bind_ok hp, origin]
      rfl
  · obtain ⟨parts, parallelism, answered, kept⟩ := remembers.rows name writer before last
    have read := found name
    rw [kept] at read
    refine ⟨parts.flatten, answered,
      ⟨_, read, fun store => Persisted.rows_memory store parallelism parts⟩, ?_⟩
    intro q origin noJoins noGroupBy
    have rows : q.source.origin.rows? context (run context w steps) = some parts.flatten := by
      rw [origin, Origin.rows?, kept]
      rfl
    have plain : q.asArray.refusal? = none := Query.refusal?_of_plain noJoins noGroupBy
    rw [Query.toOption_execute _ _ plain rfl]
    change ((q.source.origin.rows? context _).bind
      fun source => q.answer? context.compile source).map _ = _
    rw [rows]
    rfl
  · exact fun statement e error name => persisted?_execute memory remembers.opens statement name
      (.inl ⟨e, error⟩)
  · intro q other elsewhere
    refine persisted?_execute memory remembers.opens (.query q) other (.inr ?_)
    intro _ same
    cases same
    exact elsewhere

theorem reads_last_written_into_itself :
    let row (i : Int64) : Row := NameMap.empty.insert "n" (.int i)
    let context : QueryContext := { config := {}, tier := .memory, token := 0 }
    let w : Workspace :=
      { store := .memory { objects := .ofList [("d", Bytes.ofText "n\n1\n2\n3\n")] } }
    let load : Query :=
      { source := { origin := .data "d" { name := "csv" } }, destination := some (.resultSet "r") }
    let shorten : Query := { source := { origin := .resultSet "r" }, projection := [.top 2 [.star]]
                             destination := some (.resultSet "r") }
    let start := [.execute (.query load), .replace (.memory {})]
    let steps := start ++ [.execute (.query shorten), .execute (.insert "r")]
    context.tier = .memory ∧ w.results = {} ∧
      lastInto? context "r" w steps = some (shorten, run context w start) ∧
      (shorten.asArray.execute context (run context w start)).1 = .ok (.array [row 1, row 2]) ∧
      ({ source := { origin := .resultSet "r" } : Query }.execute context (run context w steps)).1
        = .ok (.array [row 1, row 2]) := by
  intro row context w load shorten start steps
  obtain ⟨_, reads, _⟩ := reads_last_written context w rfl rfl steps
  have shortened : (shorten.execute context (run context w start)).1.toOption.isSome := by
    decide +kernel
  have into : (Step.execute (.query shorten)).into? context "r" (run context w start)
      = some (shorten, run context w start) := if_pos ⟨rfl, shortened⟩
  have last : lastInto? context "r" w steps = some (shorten, run context w start) := by
    change (((Step.execute (.query shorten)).into? context "r" (run context w start)).or none).or _
      = _
    rw [into]
    rfl
  have answered : (shorten.asArray.execute context (run context w start)).1
    = .ok (.array [row 1, row 2]) := by decide +kernel
  obtain ⟨rows, found, _, answers⟩ := reads "r" shorten _ last
  cases answered.symm.trans found
  refine ⟨rfl, rfl, last, answered, ?_⟩
  rw [← toOption_eq_some]
  exact (answers { source := { origin := .resultSet "r" } } rfl rfl rfl).trans (by decide +kernel)

end Session

end RowQuery
