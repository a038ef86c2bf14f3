import RowQuery.Proofs.Query.Plan
import RowQuery.Proofs.Splits
import RowQuery.Proofs.Term.Columns

/-!
What a list of items makes of a row. Every item writes something of its own into the row that is
made: the star all columns of the source row, any other item one value. They write one after
another, so of the items that write a column the last one is read in the end, and the first item
that has no value ends the work. Without the star nothing is read but the columns that the items
name.
-/

namespace RowQuery

namespace Projection

def IsStar : Projection → Prop
  | item (.column components) _ => columnName components = wildcard
  | _ => False

variable (compile : Compiler) (row : Row)

def Writes : Projection → String → Value → Prop
  | item (.column components) label, name, v =>
    if columnName components = wildcard then row.get? name = some v
    else name = label.getD (columnName components) ∧ row.get? (columnName components) = some v
  | item t label, name, v => name = label.getD v.display ∧ ∃ e, compile t = .ok e ∧ e row = .ok v
  | _, _, _ => False

def Fails : Projection → EvalError → Prop
  | item (.column components) _, fault =>
    columnName components ≠ wildcard ∧ row.get? (columnName components) = none ∧
      fault = .columnNotFound (columnName components)
  | item t _, fault => ∃ e, compile t = .ok e ∧ e row = .error fault
  | _, _ => False

inductive Planned : Projection → ProjectionStep → Prop
  | star {components : List String} {label : Option String}
      (isStar : columnName components = wildcard) :
      Planned (.item (.column components) label) .star
  | column {components : List String} {label : Option String}
      (named : columnName components ≠ wildcard) :
      Planned (.item (.column components) label)
        (.column (columnName components) (label.getD (columnName components)))
  | computed {t : Term} {label : Option String} (other : ∀ components, t ≠ .column components)
      {e : Expression}
      (compiled : compile t = .ok e) :
      Planned (.item t label) (.computed e label)

variable {compile row}

theorem writes_computed {t : Term} (other : ∀ components, t ≠ .column components)
    {label : Option String} {name : String} {v : Value} : (item t label).Writes compile row name v ↔
      name = label.getD v.display ∧ ∃ e, compile t = .ok e ∧ e row = .ok v := by
  cases t with
  | column components => exact absurd rfl (other components)
  | _ => rfl

theorem fails_computed {t : Term} (other : ∀ components, t ≠ .column components)
    {label : Option String} {fault : EvalError} :
    (item t label).Fails compile row fault ↔ ∃ e, compile t = .ok e ∧ e row = .error fault := by
  cases t with
  | column components => exact absurd rfl (other components)
  | _ => rfl

theorem planned_of_step {item : Projection} {step : ProjectionStep}
    (h : Projection.step compile item = .ok step) :
    Planned compile item step := by
  revert h
  fun_cases Projection.step compile item with
  | case1 components label name isStar =>
    rintro ⟨⟩
    exact .star isStar
  | case2 components label name named =>
    rintro ⟨⟩
    exact .column named
  | case3 t label other =>
    intro h
    obtain ⟨e, compiled, ⟨⟩⟩ := bind_eq_ok.1 h
    rw [compileTerm] at compiled
    split at compiled
    · next result =>
      cases compiled
      exact .computed other result
    · cases compiled
  | case4 | case5 => rintro ⟨⟩

theorem planned_of_steps {items : List Projection} {steps : List ProjectionStep}
    (h : items.mapM (Projection.step compile) = .ok steps) :
    List.Forall₂ (Planned compile) items steps :=
  (mapM_eq_ok.1 h).imp fun _ _ => planned_of_step

end Projection

namespace ProjectionStep

open Projection (Planned Writes Fails)

def written (row : Row) : ProjectionStep → Eval Row
  | star => .ok row
  | column name output => do return NameMap.empty.insert output (← row.lookup name)
  | computed value label => do
    let v ← value row
    return NameMap.empty.insert (label.getD v.display) v

theorem apply_eq (row made : Row) (step : ProjectionStep) :
    step.apply row made = do return made.merged (← step.written row) := by
  cases step with
  | star => rfl
  | column name output =>
    rw [apply, written]
    cases row.lookup name <;> rfl
  | computed value label =>
    rw [apply, written]
    cases value row <;> rfl

variable {compile : Compiler} {row : Row} {item : Projection} {step : ProjectionStep}

theorem get?_written (planned : Planned compile item step) {part : Row}
    (h : step.written row = .ok part) {name : String} {v : Value} :
    part.get? name = some v ↔ item.Writes compile row name v := by
  cases planned with
  | star isStar =>
    cases h
    rw [Writes, if_pos isStar]
  | column named =>
    obtain ⟨w, found, ⟨⟩⟩ := bind_eq_ok.1 h
    rw [Writes, if_neg named, NameMap.get?_insert_empty, Row.lookup_eq_ok.1 found,
      Option.some.injEq]
  | computed other compiled =>
    obtain ⟨w, value, ⟨⟩⟩ := bind_eq_ok.1 h
    rw [Projection.writes_computed other, NameMap.get?_insert_empty]
    simp only [compiled, Except.ok.injEq, exists_eq_left', value]
    constructor
    · rintro ⟨rfl, rfl⟩
      exact ⟨rfl, rfl⟩
    · rintro ⟨rfl, rfl⟩
      exact ⟨rfl, rfl⟩

theorem written_eq_error (planned : Planned compile item step) {fault : EvalError} :
    step.written row = .error fault ↔ item.Fails compile row fault := by
  cases planned with
  | star isStar => simp [written, Fails, isStar]
  | column named =>
    rw [written, bind_pure_eq_error, Row.lookup_eq_error, Fails, and_iff_right named]
  | computed other compiled =>
    rw [written, bind_pure_eq_error, Projection.fails_computed other]
    simp [compiled]

theorem written_eq_none (planned : Planned compile item step) {part : Row}
    (h : step.written row = .ok part) {name : String} :
    part.get? name = none ↔ ∀ v, ¬ item.Writes compile row name v := by
  simp only [Option.eq_none_iff_forall_ne_some, ne_eq, get?_written planned h]

theorem written_congr (planned : Planned Term.compile item step)
    (narrow : ¬ item.IsStar) {row' : Row}
    (agree : ∀ t label, item = .item t label → Row.AgreeOn t.columns row row') :
    step.written row = step.written row' := by
  cases planned with
  | star isStar => exact absurd isStar narrow
  | column named => rw [written, written, (agree _ _ rfl).lookup (List.mem_singleton_self _)]
  | computed other compiled =>
    rw [written, written, Term.compositional_reads.of_compile compiled row row' (agree _ _ rfl)]

theorem contains_written (planned : Planned compile item step)
    (labelled : ∀ t, item = .item t none → ∃ components, t = .column components) {row' : Row}
    (same : ∀ name, row.contains name = row'.contains name) {part part' : Row}
    (h : step.written row = .ok part) (h' : step.written row' = .ok part') (name : String) :
    part.contains name = part'.contains name := by
  cases planned with
  | star isStar =>
    cases h
    cases h'
    exact same name
  | column named =>
    obtain ⟨v, -, ⟨⟩⟩ := bind_eq_ok.1 h
    obtain ⟨v', -, ⟨⟩⟩ := bind_eq_ok.1 h'
    rw [NameMap.contains_insert, NameMap.contains_insert]
  | @computed t label other e compiled =>
    obtain ⟨v, -, ⟨⟩⟩ := bind_eq_ok.1 h
    obtain ⟨v', -, ⟨⟩⟩ := bind_eq_ok.1 h'
    cases label with
    | none =>
      obtain ⟨components, column⟩ := labelled t rfl
      exact absurd column (other components)
    | some output =>
      rw [Option.getD_some, Option.getD_some, NameMap.contains_insert, NameMap.contains_insert]

end ProjectionStep

open Projection (Planned)

theorem projectOnto_cons (row made : Row) (step : ProjectionStep) (steps : List ProjectionStep) :
    projectOnto row made (step :: steps) = step.written row
      >>= fun part => projectOnto row (made.merged part) steps := by
  rw [projectOnto, ProjectionStep.apply_eq]
  cases step.written row <;> rfl

section

variable {compile : Compiler} {items : List Projection} {steps : List ProjectionStep}
  (planned : List.Forall₂ (Planned compile) items steps)
include planned

theorem projectOnto_eq_error {row made : Row} {fault : EvalError} :
    projectOnto row made steps = .error fault ↔
    ∃ before item after, items = before ++ item :: after ∧ item.Fails compile row fault ∧
      ∀ earlier ∈ before, ∀ other, ¬ earlier.Fails compile row other := by
  induction planned generalizing made with
  | nil => simp [projectOnto]
  | cons first _ ih =>
    rw [projectOnto_cons, exists_first_cons]
    simp only [← ProjectionStep.written_eq_error first]
    cases ProjectionStep.written row _ with
    | error other => simp [bind, Except.bind]
    | ok part => simp [bind, Except.bind, ih]

/-- What is in a column in the end is what the last item that writes it has written, or what was
there before. -/
theorem get?_projectOnto {row made out : Row} (h : projectOnto row made steps = .ok out)
    {name : String} {v : Value} :
    out.get? name = some v ↔
      (∃ before item after, items = before ++ item :: after ∧ item.Writes compile row name v ∧
        ∀ later ∈ after, ∀ w, ¬ later.Writes compile row name w) ∨
      (∀ item ∈ items, ∀ w, ¬ item.Writes compile row name w) ∧ made.get? name = some v := by
  -- what this item writes stands where no later one writes, before what the row had
  induction planned generalizing made with
  | nil =>
    cases h
    simp
  | cons first _ ih =>
    rw [projectOnto_cons] at h
    obtain ⟨part, written, h⟩ := bind_eq_ok.1 h
    rw [ih h, exists_last_cons, NameMap.get?_merged, Option.or_eq_some_iff,
      ProjectionStep.get?_written first written, ProjectionStep.written_eq_none first written,
      List.forall_mem_cons]
    constructor
    · rintro (last | ⟨rest, own | ⟨none, kept⟩⟩)
      · exact .inl (.inr last)
      · exact .inl (.inl ⟨own, rest⟩)
      · exact .inr ⟨⟨none, rest⟩, kept⟩
    · rintro ((⟨own, rest⟩ | last) | ⟨⟨none, rest⟩, kept⟩)
      · exact .inr ⟨rest, .inl own⟩
      · exact .inl last
      · exact .inr ⟨rest, .inr ⟨none, kept⟩⟩

variable {row row' made made' : Row}

theorem projectRow_eq_error_iff : (∃ fault, projectRow steps row = .error fault) ↔
    ∃ item ∈ items, ∃ fault, item.Fails compile row fault := by
  simp only [projectRow, projectOnto_eq_error planned]
  constructor
  · rintro ⟨fault, before, item, after, rfl, fails, -⟩
    exact ⟨item, List.mem_append_right _ List.mem_cons_self, fault, fails⟩
  · intro some
    obtain ⟨before, item, after, split, ⟨fault, fails⟩, earlier⟩ := exists_first some
    exact ⟨fault, before, item, after, split, fails,
      fun e he other wrong => earlier e he ⟨other, wrong⟩⟩

theorem get?_projectRow (h : projectRow steps row = .ok made) {name : String} {v : Value} :
    made.get? name = some v ↔
    ∃ before item after, items = before ++ item :: after ∧ item.Writes compile row name v ∧
      ∀ later ∈ after, ∀ w, ¬ later.Writes compile row name w := by
  rw [get?_projectOnto planned h]
  simp

theorem get?_projectRow_eq_none (h : projectRow steps row = .ok made) {name : String} :
    made.get? name = none ↔
    ∀ item ∈ items, ∀ v, ¬ item.Writes compile row name v := by
  simp only [Option.eq_none_iff_forall_ne_some, ne_eq, get?_projectRow planned h]
  constructor
  · intro unwritten item member v writes
    have some : ∃ item ∈ items, ∃ v, item.Writes compile row name v := ⟨item, member, v, writes⟩
    obtain ⟨before, last, after, split, ⟨w, written⟩, later⟩ := exists_last some
    exact unwritten w ⟨before, last, after, split, written,
      fun l hl w wrong => later l hl ⟨w, wrong⟩⟩
  · rintro unwritten v ⟨before, item, after, rfl, writes, -⟩
    exact unwritten item (List.mem_append_right _ List.mem_cons_self) v writes

theorem contains_projectOnto
    (labelled : ∀ t, .item t none ∈ items → ∃ components, t = .column components)
    (same : ∀ name, row.contains name = row'.contains name) {out out' : Row}
    (start : ∀ name, made.contains name = made'.contains name)
    (h : projectOnto row made steps = .ok out) (h' : projectOnto row' made' steps = .ok out')
    (name : String) : out.contains name = out'.contains name := by
  induction planned generalizing made made' with
  | nil =>
    cases h
    cases h'
    exact start name
  | cons first _ ih =>
    rw [projectOnto_cons] at h h'
    obtain ⟨part, written, h⟩ := bind_eq_ok.1 h
    obtain ⟨part', written', h'⟩ := bind_eq_ok.1 h'
    have own (t : Term) (unlabelled : _ = Projection.item t none) :
        ∃ components, t = .column components :=
      labelled t (unlabelled ▸ List.mem_cons_self)
    refine ih (fun t member => labelled t (List.mem_cons_of_mem _ member)) (fun name => ?_) h h'
    rw [NameMap.contains_merged, NameMap.contains_merged, start,
      ProjectionStep.contains_written first own same written written']

end

theorem projectOnto_congr {items : List Projection} {steps : List ProjectionStep}
    (planned : List.Forall₂ (Planned Term.compile) items steps)
    (narrow : ∀ item ∈ items, ¬ item.IsStar) {row row' : Row}
    (agree : ∀ t label, .item t label ∈ items → Row.AgreeOn t.columns row row') (made : Row) :
    projectOnto row made steps = projectOnto row' made steps := by
  induction planned generalizing made with
  | nil => rfl
  | @cons item step items steps first _ ih =>
    obtain ⟨own, others⟩ := List.forall_mem_cons.1 narrow
    have part : step.written row = step.written row' :=
      ProjectionStep.written_congr first own
        fun t label same => agree t label (same ▸ List.mem_cons_self)
    rw [projectOnto_cons, projectOnto_cons, part]
    congr 1
    funext part
    exact ih others (fun t label member => agree t label (List.mem_cons_of_mem _ member)) _

/-- A compiled term cannot tell two rows apart that have the same in the columns that it names, be
it a value or nothing: it has the same value on both, or the same failure. Nor can a list of items
without the star: it makes the same row of both, also where a value becomes the name of a column, or
has the same failure. -/
theorem terms_and_items_read_what_they_name :
    (∀ (t : Term) (e : Expression), t.compile = .ok e →
      ∀ row row' : Row, Row.AgreeOn t.columns row row' → e row = e row') ∧
    (∀ (items : List Projection) (steps : List ProjectionStep),
      items.mapM (Projection.step Term.compile) = .ok steps →
      (∀ item ∈ items, ¬ item.IsStar) → ∀ row row' : Row,
      (∀ t label, .item t label ∈ items → Row.AgreeOn t.columns row row') →
      projectRow steps row = projectRow steps row') := by
  constructor
  · intro t e compiled
    exact Term.compositional_reads.of_compile compiled
  · intro items steps h narrow row row' agree
    exact projectOnto_congr (Projection.planned_of_steps h) narrow agree .empty

theorem terms_and_items_read_what_they_name_apart :
    let shared : Row := (NameMap.empty.insert "b" (.text "x")).insert "f" (.bool false)
    let row := shared.insert "p" (.int 1)
    let row' := shared.insert "q" .null
    let t : Term := .binary .and (.column ["f"]) (.column ["m"])
    let items : List Projection := [.item t none, .item (.column ["b"]) (some "c")]
    row ≠ row' ∧ ∃ e steps, t.compile = .ok e ∧
      items.mapM (Projection.step Term.compile) = .ok steps ∧
      e row = .ok (.bool false) ∧ e row' = e row ∧
      projectRow steps row
        = .ok ((NameMap.empty.insert "c" (.text "x")).insert "false" (.bool false)) ∧
      projectRow steps row' = projectRow steps row := by
  intro shared row row' t items
  have named : Row.AgreeOn ["f", "m", "b"] row' row := by
    unfold Row.AgreeOn
    decide
  obtain ⟨terms, lists⟩ := terms_and_items_read_what_they_name
  have inTerm : t.columns ⊆ ["f", "m", "b"] := by decide
  have inItem : (Term.column ["b"]).columns ⊆ ["f", "m", "b"] := by decide
  refine ⟨by decide, _, _, rfl, rfl, by rfl,
    terms t _ rfl row' row (named.of_subset inTerm), by rfl,
    lists items _ rfl ?_ row' row ?_⟩
  · simp [items, t, Projection.IsStar, columnName, joinPoints, Projection.wildcard]
  · intro s label member
    rcases List.mem_cons.1 member with same | member
    · cases same
      exact named.of_subset inTerm
    · cases List.mem_singleton.1 member
      exact named.of_subset inItem

/-- What a list of items makes of a row. It fails as soon as the value of an item is not to be had,
and as the first such item does. Else every column has what the last item that writes it has
written, and a column that no item writes is not there. A column reference has the value that the
compiled reference has. Where every computed item has a label, rows with the same columns are made
into rows with the same columns. -/
theorem projectRow_last_written {compile : Compiler} {items : List Projection}
    {steps : List ProjectionStep} (h : items.mapM (Projection.step compile) = .ok steps) :
    (∀ row : Row, (∃ fault, projectRow steps row = .error fault) ↔
      ∃ item ∈ items, ∃ fault, item.Fails compile row fault) ∧
    (∀ (row : Row) (fault : EvalError), projectRow steps row = .error fault ↔ ∃ before item after,
      items = before ++ item :: after ∧ item.Fails compile row fault ∧
      ∀ earlier ∈ before, ∀ other, ¬ earlier.Fails compile row other) ∧
    (∀ row made : Row, projectRow steps row = .ok made → ∀ name : String,
      (∀ v, made.get? name = some v ↔ ∃ before item after,
        items = before ++ item :: after ∧ item.Writes compile row name v ∧
        ∀ later ∈ after, ∀ w, ¬ later.Writes compile row name w) ∧
      (made.get? name = none ↔ ∀ item ∈ items, ∀ v, ¬ item.Writes compile row name v)) ∧
    (∀ (components : List String) (label : Option String),
      columnName components ≠ Projection.wildcard →
      ∃ step e, Projection.step compile (.item (.column components) label) = .ok step ∧
        Term.compile (.column components) = .ok e ∧
        ∀ row made, step.apply row made
          = do return made.insert (label.getD (columnName components)) (← e row)) ∧
    ((∀ t, .item t none ∈ items → ∃ components, t = .column components) →
      ∀ row row' made made' : Row,
      (∀ name, row.contains name = row'.contains name) → projectRow steps row = .ok made →
      projectRow steps row' = .ok made' → ∀ name, made.contains name = made'.contains name) := by
  have planned := Projection.planned_of_steps h
  refine ⟨fun row => projectRow_eq_error_iff planned, fun row fault => projectOnto_eq_error planned,
    fun row made ok name =>
      ⟨fun v => get?_projectRow planned ok, get?_projectRow_eq_none planned ok⟩,
    fun components label named => ⟨_, _, if_neg named, rfl, fun row made => rfl⟩,
    fun labelled row row' made made' same ok ok' => ?_⟩
  exact contains_projectOnto planned labelled same (fun name => rfl) ok ok'

theorem projectRow_last_written_over :
    let row : Row := (NameMap.empty.insert "a" (.int 1)).insert "b" (.text "x")
    let items : List Projection :=
      [.item (.column ["*"]) none, .item (.literal (.text "z")) (some "b"),
        .item (.column ["a"]) (some "c")]
    ∃ steps made, items.mapM (Projection.step Term.compile) = .ok steps ∧
      projectRow steps row = .ok made ∧
      made.get? "b" = some (.text "z") ∧ made.get? "d" = none ∧
      projectRow steps .empty = .error (.columnNotFound "a") := by
  intro row items
  let made : Row := ((NameMap.empty.insert "a" (.int 1)).insert "b" (.text "z")).insert "c" (.int 1)
  have planned : items.mapM (Projection.step Term.compile) = .ok
      [.star, .computed (fun _ => .ok (.text "z")) (some "b"), .column "a" "c"] := by
    rfl
  obtain ⟨-, failing, writing, -⟩ := projectRow_last_written planned
  obtain ⟨inB, -⟩ := writing row made (by rfl) "b"
  obtain ⟨-, inD⟩ := writing row made (by rfl) "d"
  refine ⟨_, made, planned, by rfl, (inB _).2 ?_, inD.2 ?_, (failing _ _).2 ?_⟩
  · refine ⟨[.item (.column ["*"]) none], _, [.item (.column ["a"]) (some "c")], rfl,
      ⟨rfl, _, rfl, rfl⟩, ?_⟩
    simp [Projection.Writes, columnName, joinPoints, Projection.wildcard]
  · have absent : row.get? "d" = none := by rfl
    simp [items, Projection.Writes, columnName, joinPoints, Projection.wildcard, absent]
  · refine ⟨items.take 2, _, [], rfl, ⟨by decide, rfl, rfl⟩, ?_⟩
    simp [items, Projection.Fails, columnName, joinPoints, Projection.wildcard, Term.compile]

end RowQuery
