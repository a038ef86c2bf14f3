import RowQuery.Document.Shape
import RowQuery.Query.Basic

/-!
The written form of statements. `Statement.toJson` writes every field; `Statement.ofDocument?` also
reads forms in which fields with their usual value are left out. Parts of a statement that stand by
themselves are read by functions of the name `ofRoot?`.
-/

namespace RowQuery

open Document (required withDefault optional)

def UnaryOp.names : List String := ["not", "neg"]

def UnaryOp.name : UnaryOp → String
  | not => "not"
  | neg => "neg"

def UnaryOp.ofDocument? (d : Document) : Option UnaryOp := do
  [not, neg][← d.choice? true UnaryOp.names]?

def BinaryOp.names : List String :=
  ["eq", "not_eq", "lt", "lt_eq", "gt", "gt_eq", "and", "or", "add", "sub", "mul", "div", "mod"]

def BinaryOp.all : List BinaryOp :=
  [eq, notEq, lt, ltEq, gt, gtEq, and, or, add, sub, mul, div, mod]

def BinaryOp.name (op : BinaryOp) : String := BinaryOp.names.getD (BinaryOp.all.idxOf op) ""

def BinaryOp.read? (nested : Bool) (d : Document) : Option BinaryOp := do
  BinaryOp.all[← d.choice? nested BinaryOp.names]?

def BinaryOp.ofDocument? : Document → Option BinaryOp := read? true

def BinaryOp.ofRoot? : Document → Option BinaryOp := read? false

def Literal.toJson : Literal → Json
  | null => .null
  | bool b => .bool b
  | int i => .int i.toInt
  | float x => if x.isFinite then .float x else .null
  | text s => .str s

/-- An integer out of range is read as the nearest double. -/
def Literal.ofDocument? : Document → Option Literal
  | .null => some null
  | .bool b => some (bool b)
  | .int _ i => some ((int64? i).elim (float (.ofInt i)) int)
  | .float x => some (float x)
  | .str s => some (text s)
  | _ => none

def optionJson {α : Type} (write : α → Json) : Option α → Json
  | some a => write a
  | none => .null

namespace Term

mutual

def toJson : Term → Json
  | column components =>
    .obj [("kind", .str "column"), ("components", .arr (components.map Json.str))]
  | literal l => .obj [("kind", .str "literal"), ("value", l.toJson)]
  | unary op t => .obj [("kind", .str "unary"), ("op", .str op.name), ("term", t.toJson)]
  | binary op l r =>
    .obj [("kind", .str "binary"), ("op", .str op.name), ("left", l.toJson), ("right", r.toJson)]
  | isNull t negated =>
    .obj [("kind", .str "is_null"), ("term", t.toJson), ("negated", .bool negated)]
  | call name args =>
    .obj [("kind", .str "call"), ("function", .str name), ("args", .arr (toJsonAll args))]

def toJsonAll : List Term → List Json
  | [] => []
  | t :: rest => t.toJson :: toJsonAll rest

end

def kinds : List String := ["column", "literal", "unary", "binary", "is_null", "call"]

def ofDocumentWithin? : Nat → Document → Option Term
  | 0, _ => none
  | n + 1, d => do
    match ← d.variant? "kind" kinds with
    | (0, d) =>
      let fields ← d.fields? ["components"]
      return column (← required (Document.items? Document.text?) fields[0]?.join)
    | (1, d) =>
      let fields ← d.fields? ["value"]
      return literal (← required Literal.ofDocument? fields[0]?.join)
    | (2, d) =>
      let fields ← d.fields? ["op", "term"]
      return unary (← required UnaryOp.ofDocument? fields[0]?.join)
        (← required (ofDocumentWithin? n) fields[1]?.join)
    | (3, d) =>
      let fields ← d.fields? ["op", "left", "right"]
      return binary (← required BinaryOp.ofDocument? fields[0]?.join)
        (← required (ofDocumentWithin? n) fields[1]?.join)
          (← required (ofDocumentWithin? n) fields[2]?.join)
    | (4, d) =>
      let fields ← d.fields? ["term", "negated"]
      return isNull (← required (ofDocumentWithin? n) fields[0]?.join)
        (← withDefault false Document.bool? fields[1]?.join)
    | (_, d) =>
      let fields ← d.fields? ["function", "args"]
      return call (← required Document.text? fields[0]?.join)
        (← required (Document.items? (ofDocumentWithin? n)) fields[1]?.join)

def ofDocument? (d : Document) : Option Term := ofDocumentWithin? d.height d

/-- The kind of a term that stands by itself is its name, never a number. -/
def ofRoot? (d : Document) : Option Term := if d.namesTag "kind" then ofDocument? d else none

end Term

def Direction.name : Direction → String
  | ascending => "ascending"
  | descending => "descending"

def Direction.read? (nested : Bool) (d : Document) : Option Direction := do
  [ascending, descending][← d.choice? nested ["ascending", "descending"]]?

namespace SortKey

def toJson (key : SortKey) : Json :=
  .obj [("column", .str key.column), ("direction", .str key.direction.name)]

def read? (nested : Bool) (d : Document) : Option SortKey := do
  let fields ← d.fields? ["column", "direction"]
  return ⟨← required Document.text? fields[0]?.join,
    ← withDefault .ascending (Direction.read? nested) fields[1]?.join⟩

def ofDocument? : Document → Option SortKey := read? true

def ofRoot? : Document → Option SortKey := read? false

end SortKey

namespace CodecRef

def toJson (codec : CodecRef) : Json :=
  .obj [("name", .str codec.name),
    ("config", .obj (codec.options.entries.map fun (name, value) => (name, .str value)))]

def ofDocument? (d : Document) : Option CodecRef := do
  let fields ← d.fields? ["name", "config"]
  return ⟨← required Document.text? fields[0]?.join,
    ← withDefault .empty Document.texts? fields[1]?.join⟩

end CodecRef

namespace Origin

def toJson : Origin → Json
  | resultSet name => .obj [("kind", .str "result_set"), ("name", .str name)]
  | data path codec =>
    .obj [("kind", .str "data_source"), ("path", .str path), ("extractor", codec.toJson)]

def ofDocument? (d : Document) : Option Origin := do
  match ← d.variant? "kind" ["result_set", "data_source"] with
  | (0, d) =>
    let fields ← d.fields? ["name"]
    return resultSet (← required Document.text? fields[0]?.join)
  | (_, d) =>
    let fields ← d.fields? ["path", "extractor"]
    return data (← required Document.text? fields[0]?.join)
      (← required CodecRef.ofDocument? fields[1]?.join)

end Origin

namespace QuerySource

def toJson (source : QuerySource) : Json :=
  .obj [("origin", source.origin.toJson), ("alias", optionJson .str source.label)]

def ofDocument? (d : Document) : Option QuerySource := do
  let fields ← d.fields? ["origin", "alias"]
  return ⟨← required Origin.ofDocument? fields[0]?.join, ← optional Document.text? fields[1]?.join⟩

end QuerySource

namespace Join

def toJson (join : Join) : Json :=
  .obj [("from", join.source.toJson), ("on", join.condition.toJson)]

def ofDocument? (d : Document) : Option Join := do
  let fields ← d.fields? ["from", "on"]
  return ⟨← required QuerySource.ofDocument? fields[0]?.join,
    ← required Term.ofDocument? fields[1]?.join⟩

end Join

namespace Projection

mutual

def toJson : Projection → Json
  | item term label =>
    .obj [("kind", .str "projection"), ("term", term.toJson), ("alias", optionJson .str label)]
  | distinct inner => .obj [("kind", .str "distinct"), ("inner", .arr (toJsonAll inner))]
  | top count inner =>
    .obj [("kind", .str "top"), ("count", .int count), ("inner", .arr (toJsonAll inner))]

def toJsonAll : List Projection → List Json
  | [] => []
  | p :: rest => p.toJson :: toJsonAll rest

end

def ofDocumentWithin? : Nat → Document → Option Projection
  | 0, _ => none
  | n + 1, d => do
    match ← d.variant? "kind" ["projection", "distinct", "top"] with
    | (0, d) =>
      let fields ← d.fields? ["term", "alias"]
      return item (← required Term.ofDocument? fields[0]?.join)
        (← optional Document.text? fields[1]?.join)
    | (1, d) =>
      let fields ← d.fields? ["inner"]
      return distinct (← required (Document.items? (ofDocumentWithin? n)) fields[0]?.join)
    | (_, d) =>
      let fields ← d.fields? ["count", "inner"]
      return top (← required Document.count? fields[0]?.join)
        (← required (Document.items? (ofDocumentWithin? n)) fields[1]?.join)

def ofDocument? (d : Document) : Option Projection := ofDocumentWithin? d.height d

def ofRoot? (d : Document) : Option Projection := if d.namesTag "kind" then ofDocument? d else none

end Projection

namespace Destination

def toJson : Destination → Json
  | resultSet name => .obj [("kind", .str "result_set"), ("name", .str name)]
  | folder path codec =>
    .obj [("kind", .str "folder"), ("path", .str path), ("writer", codec.toJson)]

def ofDocument? (d : Document) : Option Destination := do
  match ← d.variant? "kind" ["result_set", "folder"] with
  | (0, d) =>
    let fields ← d.fields? ["name"]
    return resultSet (← required Document.text? fields[0]?.join)
  | (_, d) =>
    let fields ← d.fields? ["path", "writer"]
    return folder (← required Document.text? fields[0]?.join)
      (← required CodecRef.ofDocument? fields[1]?.join)

end Destination

namespace Query

def members (q : Query) : List (String × Json) :=
  [("from", q.source.toJson), ("joins", .arr (q.joins.map Join.toJson)),
    ("filters", optionJson Term.toJson q.filter), ("group_by", .arr (q.groupBy.map Term.toJson)),
    ("order_by", .arr (q.orderBy.map SortKey.toJson)),
    ("projection", .arr (q.projection.map Projection.toJson)),
    ("destination", optionJson Destination.toJson q.destination)]

def ofDocument? (d : Document) : Option Query := do
  let fields ← d.fields?
    ["from", "joins", "filters", "group_by", "order_by", "projection", "destination"]
  return {
    source := ← required QuerySource.ofDocument? fields[0]?.join
    joins := ← withDefault [] (Document.items? Join.ofDocument?) fields[1]?.join
    filter := ← optional Term.ofDocument? fields[2]?.join
    groupBy := ← withDefault [] (Document.items? Term.ofDocument?) fields[3]?.join
    orderBy := ← withDefault [] (Document.items? SortKey.ofDocument?) fields[4]?.join
    projection := ← withDefault [.star] (Document.items? Projection.ofDocument?) fields[5]?.join
    destination := ← optional Destination.ofDocument? fields[6]?.join }

end Query

namespace Statement

def toJson : Statement → Json
  | query q => .obj (("statement", .str "query") :: q.members)
  | insert table => .obj [("statement", .str "insert"), ("table", .str table)]
  | delete table => .obj [("statement", .str "delete"), ("table", .str table)]

def ofDocument? (d : Document) : Option Statement := do
  let (tag, rest) ← d.tagged? "statement"
  match tag with
  | .str "query" => return query (← Query.ofDocument? rest)
  | .str "insert" =>
    let fields ← rest.fields? ["table"]
    return insert (← required Document.text? fields[0]?.join)
  | .str "delete" =>
    let fields ← rest.fields? ["table"]
    return delete (← required Document.text? fields[0]?.join)
  | _ => none

end Statement

end RowQuery
