import RowQuery.Proofs.Term.Written

/-!
The forms of a statement: the fields of each object in any order, and those with their usual value
there or not. Every form is read as the statement.
-/

namespace RowQuery

open Document (required withDefault optional required_of_holds withDefault_of_holds
  optional_of_holds text_of_holds
  label_of_holds items?_of_isArray shows_of_isObject variant?_of_isObject tagged?_of_isObject)
open Json (IsObject IsArray)

theorem Direction.read?_name (nested : Bool) (d : Direction) :
    Direction.read? nested (.str d.name) = some d := by
  cases d <;> rfl

namespace SortKey

def Written (key : SortKey) : Json → Prop :=
  IsObject [.needed "column" (· = .str key.column),
    ⟨"direction", key.direction = .ascending, (· = .str key.direction.name)⟩]

theorem written_toJson (key : SortKey) : key.Written key.toJson := ⟨_, rfl, by simp, rfl, rfl⟩

theorem ofDocument?_written {key : SortKey} {j : Json} (written : key.Written j) :
    ofDocument? (.ofJson j) = some key := by
  obtain ⟨values, shows, holdsColumn, holdsDirection⟩ := shows_of_isObject written
  have readColumn : required Document.text? ((values "column").map .ofJson) = some key.column :=
    text_of_holds holdsColumn
  have readDirection :
      withDefault .ascending (Direction.read? true) ((values "direction").map .ofJson)
      = some key.direction :=
    withDefault_of_holds holdsDirection fun _ _ same => same ▸ key.direction.read?_name true
  simp [ofDocument?, read?, shows.fields, readColumn, readDirection]

end SortKey

namespace CodecRef

def Written (codec : CodecRef) : Json → Prop :=
  IsObject [.needed "name" (· = .str codec.name), ⟨"config", codec.options = .empty,
    (· = .obj (codec.options.entries.map fun (name, value) => (name, .str value)))⟩]

theorem written_toJson (codec : CodecRef) : codec.Written codec.toJson :=
  ⟨_, rfl, by simp, rfl, rfl⟩

theorem texts?_options (options : NameMap String) :
    Document.texts? (.ofJson (.obj (options.entries.map fun (name, value) => (name, .str value))))
      = some options := by
  have entries (l : List (String × String)) :
      (Document.ofJsonMembers (l.map fun e => (e.1, .str e.2))).mapM
          (fun e => do return (← e.1.text?, ← e.2.text?)) = some l := by
    induction l with
    | nil => rfl
    | cons e l ih =>
      rw [List.map_cons, Document.ofJsonMembers, List.mapM_cons, ih]
      rfl
  change ((Document.ofJsonMembers (options.entries.map fun e => (e.1, .str e.2))).mapM
      (fun e => do return (← e.1.text?, ← e.2.text?))
    >>= fun pairs => some (NameMap.ofList pairs)) = _
  rw [entries]
  exact congrArg some options.ofList_entries

theorem ofDocument?_written {codec : CodecRef} {j : Json} (written : codec.Written j) :
    ofDocument? (.ofJson j) = some codec := by
  obtain ⟨values, shows, holdsName, holdsConfig⟩ := shows_of_isObject written
  have readName : required Document.text? ((values "name").map .ofJson) = some codec.name :=
    text_of_holds holdsName
  have readConfig : withDefault .empty Document.texts? ((values "config").map .ofJson)
      = some codec.options :=
    withDefault_of_holds holdsConfig fun _ _ same => same ▸ texts?_options codec.options
  simp [ofDocument?, shows.fields, readName, readConfig]

end CodecRef

namespace Origin

def Written : Origin → Json → Prop
  | resultSet name => IsObject [.tag "kind" "result_set", .needed "name" (· = .str name)]
  | data path codec =>
    IsObject [.tag "kind" "data_source", .needed "path" (· = .str path),
      .needed "extractor" codec.Written]

theorem written_toJson (origin : Origin) : origin.Written origin.toJson := by
  cases origin with
  | resultSet name => exact ⟨_, rfl, by simp, rfl, rfl⟩
  | data path codec => exact ⟨_, rfl, by simp, rfl, rfl, codec.written_toJson⟩

theorem ofDocument?_written {origin : Origin} {j : Json} (written : origin.Written j) :
    ofDocument? (.ofJson j) = some origin := by
  cases origin with
  | resultSet name =>
    obtain ⟨d, values, variant, shows, holds⟩ := variant?_of_isObject written (by simp)
      (show ["result_set", "data_source"].idxOf "result_set" = 0 from rfl) (by decide)
    have readName : required Document.text? ((values "name").map .ofJson) = some name :=
      text_of_holds holds
    simp [ofDocument?, variant, shows.fields, readName]
  | data path codec =>
    obtain ⟨d, values, variant, shows, holdsPath, holdsCodec⟩ :=
      variant?_of_isObject written (by simp)
      (show ["result_set", "data_source"].idxOf "data_source" = 1 from rfl) (by decide)
    have readPath : required Document.text? ((values "path").map .ofJson) = some path :=
      text_of_holds holdsPath
    have readCodec : required CodecRef.ofDocument? ((values "extractor").map .ofJson)
        = some codec :=
      required_of_holds holdsCodec fun _ _ => CodecRef.ofDocument?_written
    simp [ofDocument?, variant, shows.fields, readPath, readCodec]

end Origin

theorem FieldForm.holds_optionJson {α : Type} (name : String) {form : α → Json → Prop}
    {write : α → Json} {value : Option α} (h : ∀ a ∈ value, form a (write a)) :
    (FieldForm.optional name form value).Holds (some (optionJson write value)) := by
  cases value with
  | none => rfl
  | some a => exact h a rfl

namespace QuerySource

def Written (source : QuerySource) : Json → Prop :=
  IsObject [.needed "origin" source.origin.Written,
    .optional "alias" (fun s j => j = .str s) source.label]

theorem written_toJson (source : QuerySource) : source.Written source.toJson :=
  ⟨_, rfl, by simp, source.origin.written_toJson, FieldForm.holds_optionJson _ fun _ _ => rfl⟩

theorem ofDocument?_written {source : QuerySource} {j : Json} (written : source.Written j) :
    ofDocument? (.ofJson j) = some source := by
  obtain ⟨values, shows, holdsOrigin, holdsLabel⟩ := shows_of_isObject written
  have readOrigin : required Origin.ofDocument? ((values "origin").map .ofJson)
      = some source.origin :=
    required_of_holds holdsOrigin fun _ _ => Origin.ofDocument?_written
  have readLabel : optional Document.text? ((values "alias").map .ofJson) = some source.label :=
    label_of_holds holdsLabel
  simp [ofDocument?, shows.fields, readOrigin, readLabel]

end QuerySource

namespace Join

def Written (join : Join) : Json → Prop :=
  IsObject [.needed "from" join.source.Written, .needed "on" join.condition.Written]

theorem written_toJson (join : Join) : join.Written join.toJson :=
  ⟨_, rfl, by simp, join.source.written_toJson, join.condition.written_toJson⟩

theorem ofDocument?_written {join : Join} {j : Json}
    (finite : ∀ x, .float x ∈ join.condition.literals → x.isFinite) (written : join.Written j) :
    ofDocument? (.ofJson j) = some join := by
  obtain ⟨values, shows, holdsSource, holdsCondition⟩ := shows_of_isObject written
  have readSource : required QuerySource.ofDocument? ((values "from").map .ofJson)
      = some join.source :=
    required_of_holds holdsSource fun _ _ => QuerySource.ofDocument?_written
  have readCondition :
      required Term.ofDocument? ((values "on").map .ofJson) = some join.condition :=
    required_of_holds holdsCondition fun _ _ => Term.ofDocument?_written finite
  simp [ofDocument?, shows.fields, readSource, readCondition]

end Join

namespace Projection

mutual

def terms : Projection → List Term
  | item term _ => [term]
  | distinct inner => termsAll inner
  | top _ inner => termsAll inner

def termsAll : List Projection → List Term
  | [] => []
  | p :: rest => p.terms ++ termsAll rest

end

mutual

def counts : Projection → List ℕ
  | item _ _ => []
  | distinct inner => countsAll inner
  | top count inner => count :: countsAll inner

def countsAll : List Projection → List ℕ
  | [] => []
  | p :: rest => p.counts ++ countsAll rest

end

mutual

def Written : Projection → Json → Prop
  | item term label => IsObject [.tag "kind" "projection", .needed "term" term.Written,
      .optional "alias" (fun s j => j = .str s) label]
  | distinct inner => IsObject [.tag "kind" "distinct", .needed "inner" (IsArray (forms inner))]
  | top count inner => IsObject [.tag "kind" "top", .needed "count" (· = .int count),
      .needed "inner" (IsArray (forms inner))]

def forms : List Projection → List (Json → Prop)
  | [] => []
  | p :: rest => p.Written :: forms rest

end

theorem forms_eq_map (ps : List Projection) : forms ps = ps.map Written := by
  induction ps with
  | nil => rfl
  | cons p ps ih => rw [forms, ih, List.map_cons]

theorem mem_termsAll {t : Term} {ps : List Projection} :
    t ∈ termsAll ps ↔ ∃ p ∈ ps, t ∈ p.terms := by
  induction ps with
  | nil => simp [termsAll]
  | cons p ps ih => simp [termsAll, ih]

theorem mem_countsAll {n : ℕ} {ps : List Projection} :
    n ∈ countsAll ps ↔ ∃ p ∈ ps, n ∈ p.counts := by
  induction ps with
  | nil => simp [countsAll]
  | cons p ps ih => simp [countsAll, ih]

mutual

theorem written_toJson : ∀ p : Projection, p.Written p.toJson
  | item term label => by
    rw [Written, toJson]
    exact ⟨_, rfl, by simp, rfl, term.written_toJson, FieldForm.holds_optionJson _ fun _ _ => rfl⟩
  | distinct inner => by
    rw [Written, toJson]
    exact ⟨_, rfl, by simp, rfl, _, rfl, forms_toJsonAll inner⟩
  | top count inner => by
    rw [Written, toJson]
    exact ⟨_, rfl, by simp, rfl, rfl, _, rfl, forms_toJsonAll inner⟩

theorem forms_toJsonAll :
    ∀ ps : List Projection, List.Forall₂ (fun form item => form item) (forms ps) (toJsonAll ps)
  | [] => .nil
  | p :: ps => .cons p.written_toJson (forms_toJsonAll ps)

end

theorem ofDocumentWithin?_written {n : ℕ} {p : Projection} {j : Json}
    (finite : ∀ t ∈ p.terms, ∀ x, .float x ∈ t.literals → x.isFinite)
    (small : ∀ n ∈ p.counts, n < 2 ^ 64) (written : p.Written j)
    (low : (Document.ofJson j).height ≤ n) : ofDocumentWithin? n (.ofJson j) = some p := by
  induction n generalizing p j with
  | zero => exact absurd low (Nat.not_le.2 (Document.height_pos _))
  | succ n ih =>
    have parts (inner : List Projection) (terms : termsAll inner ⊆ p.terms)
      (counts : countsAll inner ⊆ p.counts)
        (j' : Json) (lower : (Document.ofJson j').height < (Document.ofJson j).height)
          (written : IsArray (inner.map Written) j') :
        Document.items? (ofDocumentWithin? n) (.ofJson j') = some inner :=
      items?_of_isArray written fun p' mem item lower' form => ih
        (fun t h => finite t (terms (mem_termsAll.2 ⟨p', mem, h⟩)))
        (fun c h => small c (counts (mem_countsAll.2 ⟨p', mem, h⟩))) form
          (Nat.le_of_lt_succ (Nat.lt_of_lt_of_le (Nat.lt_trans lower' lower) low))
    rw [ofDocumentWithin?]
    cases p with
    | item term label =>
      rw [Written] at written
      obtain ⟨d, values, variant, shows, holdsTerm, holdsLabel⟩ :=
        variant?_of_isObject written (by simp)
        (show ["projection", "distinct", "top"].idxOf "projection" = 0 from rfl) (by decide)
      have readTerm : required Term.ofDocument? ((values "term").map .ofJson) = some term :=
        required_of_holds holdsTerm
          fun _ _ => Term.ofDocument?_written (finite term (List.mem_singleton_self term))
      have readLabel : optional Document.text? ((values "alias").map .ofJson) = some label :=
        label_of_holds holdsLabel
      simp [variant, shows.fields, readTerm, readLabel]
    | distinct inner =>
      rw [Written, forms_eq_map] at written
      obtain ⟨d, values, variant, shows, holds⟩ := variant?_of_isObject written (by simp)
        (show ["projection", "distinct", "top"].idxOf "distinct" = 1 from rfl) (by decide)
      have readInner : required (Document.items? (ofDocumentWithin? n))
          ((values "inner").map .ofJson) = some inner :=
        required_of_holds holds fun j' found =>
          parts inner (List.Subset.refl _) (List.Subset.refl _) j' (shows.lower _ _ found)
      simp [variant, shows.fields, readInner]
    | top count inner =>
      rw [Written, forms_eq_map] at written
      obtain ⟨d, values, variant, shows, holdsCount, holdsInner⟩ :=
        variant?_of_isObject written (by simp)
        (show ["projection", "distinct", "top"].idxOf "top" = 2 from rfl) (by decide)
      have readCount : required Document.count? ((values "count").map .ofJson) = some count :=
        required_of_holds holdsCount fun _ _ same => by
          have bound := small count List.mem_cons_self
          rw [same, Document.ofJson, Document.count?, if_pos (by omega), Int.toNat_natCast]
      have readInner : required (Document.items? (ofDocumentWithin? n))
          ((values "inner").map .ofJson) = some inner :=
        required_of_holds holdsInner fun j' found =>
          parts inner (List.Subset.refl _) (List.subset_cons_self _ _) j' (shows.lower _ _ found)
      simp [variant, shows.fields, readCount, readInner]

theorem ofDocument?_written {p : Projection} {j : Json}
    (finite : ∀ t ∈ p.terms, ∀ x, .float x ∈ t.literals → x.isFinite)
    (small : ∀ n ∈ p.counts, n < 2 ^ 64) (written : p.Written j) :
    ofDocument? (.ofJson j) = some p :=
  ofDocumentWithin?_written finite small written (Nat.le_refl _)

end Projection

namespace Destination

def Written : Destination → Json → Prop
  | resultSet name => IsObject [.tag "kind" "result_set", .needed "name" (· = .str name)]
  | folder path codec =>
    IsObject [.tag "kind" "folder", .needed "path" (· = .str path), .needed "writer" codec.Written]

theorem written_toJson (destination : Destination) : destination.Written destination.toJson := by
  cases destination with
  | resultSet name => exact ⟨_, rfl, by simp, rfl, rfl⟩
  | folder path codec => exact ⟨_, rfl, by simp, rfl, rfl, codec.written_toJson⟩

theorem ofDocument?_written {destination : Destination} {j : Json}
    (written : destination.Written j) : ofDocument? (.ofJson j) = some destination := by
  cases destination with
  | resultSet name =>
    obtain ⟨d, values, variant, shows, holds⟩ := variant?_of_isObject written (by simp)
      (show ["result_set", "folder"].idxOf "result_set" = 0 from rfl) (by decide)
    have readName : required Document.text? ((values "name").map .ofJson) = some name :=
      text_of_holds holds
    simp [ofDocument?, variant, shows.fields, readName]
  | folder path codec =>
    obtain ⟨d, values, variant, shows, holdsPath, holdsCodec⟩ :=
      variant?_of_isObject written (by simp)
      (show ["result_set", "folder"].idxOf "folder" = 1 from rfl) (by decide)
    have readPath : required Document.text? ((values "path").map .ofJson) = some path :=
      text_of_holds holdsPath
    have readCodec : required CodecRef.ofDocument? ((values "writer").map .ofJson) = some codec :=
      required_of_holds holdsCodec fun _ _ => CodecRef.ofDocument?_written
    simp [ofDocument?, variant, shows.fields, readPath, readCodec]

end Destination

namespace Query

def terms (q : Query) : List Term :=
  q.joins.map (·.condition) ++ q.filter.toList ++ q.groupBy ++ q.projection.flatMap Projection.terms

def counts (q : Query) : List ℕ := q.projection.flatMap Projection.counts

/-- The fields of a query; all but the first may be left out when they have their usual value. -/
def forms (q : Query) : List FieldForm :=
  [.needed "from" q.source.Written, ⟨"joins", q.joins = [], IsArray (q.joins.map Join.Written)⟩,
    .optional "filters" Term.Written q.filter,
      ⟨"group_by", q.groupBy = [], IsArray (q.groupBy.map Term.Written)⟩,
    ⟨"order_by", q.orderBy = [], IsArray (q.orderBy.map SortKey.Written)⟩,
    ⟨"projection", q.projection = [.star], IsArray (q.projection.map Projection.Written)⟩,
    .optional "destination" Destination.Written q.destination]

theorem ofDocument?_forms {q : Query}
    (finite : ∀ t ∈ q.terms, ∀ x, .float x ∈ t.literals → x.isFinite)
    (small : ∀ n ∈ q.counts, n < 2 ^ 64) {values : String → Option Json} {bound : ℕ} {d : Document}
    (shows : Document.Shows values bound d)
    (holds : q.forms.Forall fun f => f.Holds (values f.name)) :
    ofDocument? d = some q := by
  obtain ⟨holdsFrom, holdsJoins, holdsFilter, holdsGroupBy, holdsOrderBy, holdsProjection,
    holdsDestination⟩ := holds
  have readFrom : required QuerySource.ofDocument? ((values "from").map .ofJson) = some q.source :=
    required_of_holds holdsFrom fun _ _ => QuerySource.ofDocument?_written
  have readJoins : withDefault [] (Document.items? Join.ofDocument?) ((values "joins").map .ofJson)
      = some q.joins :=
    withDefault_of_holds holdsJoins fun _ _ form => items?_of_isArray form fun join mem _ _ =>
      Join.ofDocument?_written (finite _ (by simp [terms]; exact .inl ⟨join, mem, rfl⟩))
  have readFilter : optional Term.ofDocument? ((values "filters").map .ofJson) = some q.filter :=
    optional_of_holds holdsFilter rfl
      fun t _ some _ => Term.ofDocument?_written (finite t (by simp [terms, some]))
  have readGroupBy :
      withDefault [] (Document.items? Term.ofDocument?) ((values "group_by").map .ofJson)
      = some q.groupBy :=
    withDefault_of_holds holdsGroupBy fun _ _ form => items?_of_isArray form fun t mem _ _ =>
      Term.ofDocument?_written (finite t (by simp [terms, mem]))
  have readOrderBy :
      withDefault [] (Document.items? SortKey.ofDocument?) ((values "order_by").map .ofJson)
      = some q.orderBy :=
    withDefault_of_holds holdsOrderBy
      fun _ _ form => items?_of_isArray form fun _ _ _ _ => SortKey.ofDocument?_written
  have readProjection :
      withDefault [.star] (Document.items? Projection.ofDocument?)
      ((values "projection").map .ofJson)
      = some q.projection :=
    withDefault_of_holds holdsProjection fun _ _ form => items?_of_isArray form fun p mem _ _ =>
      Projection.ofDocument?_written
        (fun t h => finite t (List.mem_append_right _ (List.mem_flatMap.2 ⟨p, mem, h⟩)))
        fun n h => small n (List.mem_flatMap.2 ⟨p, mem, h⟩)
  have readDestination :
      optional Destination.ofDocument? ((values "destination").map .ofJson) = some q.destination :=
    optional_of_holds holdsDestination rfl fun _ _ _ _ => Destination.ofDocument?_written
  simp [ofDocument?, shows.fields, readFrom, readJoins, readFilter, readGroupBy, readOrderBy,
    readProjection, readDestination]

end Query

namespace Statement

def terms : Statement → List Term
  | query q => q.terms
  | _ => []

def counts : Statement → List ℕ
  | query q => q.counts
  | _ => []

def literals (s : Statement) : List Literal := s.terms.flatMap Term.literals

def Written : Statement → Json → Prop
  | query q => IsObject (.tag "statement" "query" :: q.forms)
  | insert table => IsObject [.tag "statement" "insert", .needed "table" (· = .str table)]
  | delete table => IsObject [.tag "statement" "delete", .needed "table" (· = .str table)]

theorem written_toJson (s : Statement) : s.Written s.toJson := by
  cases s with
  | query q =>
    refine ⟨_, rfl, by simp [Query.members], rfl, q.source.written_toJson, ?_, ?_, ?_, ?_, ?_, ?_⟩
    · exact Json.isArray_map fun join _ => join.written_toJson
    · exact FieldForm.holds_optionJson _ fun t _ => t.written_toJson
    · exact Json.isArray_map fun t _ => t.written_toJson
    · exact Json.isArray_map fun key _ => key.written_toJson
    · exact Json.isArray_map fun p _ => p.written_toJson
    · exact FieldForm.holds_optionJson _ fun destination _ => destination.written_toJson
  | insert table => exact ⟨_, rfl, by simp, rfl, rfl⟩
  | delete table => exact ⟨_, rfl, by simp, rfl, rfl⟩

theorem ofDocument?_written {s : Statement}
    (finite : ∀ t ∈ s.terms, ∀ x, .float x ∈ t.literals → x.isFinite)
    (small : ∀ n ∈ s.counts, n < 2 ^ 64) {j : Json} (written : s.Written j) :
    ofDocument? (.ofJson j) = some s := by
  cases s with
  | query q =>
    obtain ⟨d, values, tagged, shows, holds⟩ := tagged?_of_isObject written (by simp [Query.forms])
    simp [ofDocument?, tagged, Query.ofDocument?_forms finite small shows holds]
  | insert table =>
    obtain ⟨d, values, tagged, shows, holds⟩ := tagged?_of_isObject written (by simp)
    have readTable : required Document.text? ((values "table").map .ofJson) = some table :=
      text_of_holds holds
    simp [ofDocument?, tagged, shows.fields, readTable]
  | delete table =>
    obtain ⟨d, values, tagged, shows, holds⟩ := tagged?_of_isObject written (by simp)
    have readTable : required Document.text? ((values "table").map .ofJson) = some table :=
      text_of_holds holds
    simp [ofDocument?, tagged, shows.fields, readTable]

/-- A statement whose doubles are numbers and whose counts fit in 64 bits is what each of its forms
is read as: that in which every field is written, and those in which fields with their usual value
are left out, in any order of the fields. -/
theorem read_every_form {s : Statement} (finite : ∀ x, .float x ∈ s.literals → x.isFinite)
    (small : ∀ n ∈ s.counts, n < 2 ^ 64) :
    s.Written s.toJson ∧ ofDocument? (.ofJson s.toJson) = some s ∧
      ∀ j, s.Written j → ofDocument? (.ofJson j) = some s := by
  have read (j : Json) (written : s.Written j) : ofDocument? (.ofJson j) = some s :=
    ofDocument?_written (fun t ht x hx => finite x (List.mem_flatMap.2 ⟨t, ht, hx⟩)) small written
  exact ⟨s.written_toJson, read _ s.written_toJson, read⟩

theorem read_every_form_brief :
    let one : Literal := .float ⟨0x3ff0000000000000⟩
    let s : Statement := .query {
      source := ⟨.data "in" ⟨"csv", .empty⟩, none⟩
      filter := some (.isNull (.binary .eq (.literal one) (.literal (.text "1"))) false)
      orderBy := [⟨"n", .ascending⟩] }
    let j : Json := .obj [
      ("order_by", .arr [.obj [("column", .str "n")]]),
      ("filters", .obj [
        ("term",
          .obj [("left", .obj [("value", .float ⟨0x3ff0000000000000⟩), ("kind", .str "literal")]),
          ("right", .obj [("value", .str "1"), ("kind", .str "literal")]), ("op", .str "eq"),
            ("kind", .str "binary")]),
        ("kind", .str "is_null")]),
      ("from", .obj [("origin", .obj [("path", .str "in"), ("kind", .str "data_source"),
        ("extractor", .obj [("name", .str "csv")])])]),
      ("statement", .str "query")]
    s.Written j ∧ ofDocument? (.ofJson j) = some s := by
  intro one s j
  have written : s.Written j := by
    refine ⟨_, rfl, by simp, rfl, ?source, rfl, ?filter, rfl, ?keys, rfl, rfl⟩
    case source => exact ⟨_, rfl, by simp,
      ⟨_, rfl, by simp, rfl, rfl, ⟨_, rfl, by simp, rfl, rfl⟩⟩, rfl⟩
    case filter =>
      exact ⟨_, rfl, by simp, rfl,
        ⟨_, rfl, by simp, rfl, rfl, ⟨_, rfl, by simp, rfl, rfl⟩, ⟨_, rfl, by simp, rfl, rfl⟩⟩, rfl⟩
    case keys => exact ⟨_, rfl, .cons ⟨_, rfl, by simp, rfl, rfl⟩ .nil⟩
  have literals : s.literals = [one, .text "1"] := rfl
  have counts : s.counts = [] := rfl
  refine ⟨written, (read_every_form ?_ ?_).2.2 j written⟩
  · intro x h
    rw [literals] at h
    rcases List.mem_cons.1 h with same | h
    · rw [Literal.float.inj same]
      rfl
    · cases List.mem_singleton.1 h
  · rw [counts]
    exact List.forall_mem_nil _

end Statement

end RowQuery
