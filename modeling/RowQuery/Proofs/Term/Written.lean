import RowQuery.Proofs.Document.Fields
import RowQuery.Proofs.Value.Tagged
import RowQuery.Query.Document

/-!
The forms of a term: its fields in any order, and without the negation of a test for null that is
not negated. Every form is read as the term.
-/

namespace RowQuery

open Document (required withDefault required_of_holds withDefault_of_holds text_of_holds
  items?_of_isArray variant?_of_isObject)
open Json (IsObject IsArray)

namespace Term

mutual

def literals : Term → List Literal
  | column _ => []
  | literal l => [l]
  | unary _ t => t.literals
  | binary _ l r => l.literals ++ r.literals
  | isNull t _ => t.literals
  | call _ args => literalsAll args

def literalsAll : List Term → List Literal
  | [] => []
  | t :: rest => t.literals ++ literalsAll rest

end

mutual

def Written : Term → Json → Prop
  | column components =>
    IsObject [.tag "kind" "column",
      .needed "components" (IsArray (components.map fun c j => j = .str c))]
  | literal l => IsObject [.tag "kind" "literal", .needed "value" (· = l.toJson)]
  | unary op t =>
    IsObject [.tag "kind" "unary", .needed "op" (· = .str op.name), .needed "term" t.Written]
  | binary op l r =>
    IsObject [.tag "kind" "binary", .needed "op" (· = .str op.name), .needed "left" l.Written,
      .needed "right" r.Written]
  | isNull t negated =>
    IsObject [.tag "kind" "is_null", .needed "term" t.Written,
      ⟨"negated", negated = false, (· = .bool negated)⟩]
  | call name args =>
    IsObject [.tag "kind" "call", .needed "function" (· = .str name),
      .needed "args" (IsArray (forms args))]

def forms : List Term → List (Json → Prop)
  | [] => []
  | t :: rest => t.Written :: forms rest

end

theorem forms_eq_map (ts : List Term) : forms ts = ts.map Written := by
  induction ts with
  | nil => rfl
  | cons t ts ih => rw [forms, ih, List.map_cons]

theorem mem_literalsAll {l : Literal} {ts : List Term} :
    l ∈ literalsAll ts ↔ ∃ t ∈ ts, l ∈ t.literals := by
  induction ts with
  | nil => simp [literalsAll]
  | cons t ts ih => simp [literalsAll, ih]

mutual

theorem written_toJson : ∀ t : Term, t.Written t.toJson
  | column components => by
    rw [Written, toJson]
    exact ⟨_, rfl, by simp, rfl, Json.isArray_map fun _ _ => rfl⟩
  | literal l => by
    rw [Written, toJson]
    exact ⟨_, rfl, by simp, rfl, rfl⟩
  | unary op t => by
    rw [Written, toJson]
    exact ⟨_, rfl, by simp, rfl, rfl, t.written_toJson⟩
  | binary op l r => by
    rw [Written, toJson]
    exact ⟨_, rfl, by simp, rfl, rfl, l.written_toJson, r.written_toJson⟩
  | isNull t negated => by
    rw [Written, toJson]
    exact ⟨_, rfl, by simp, rfl, t.written_toJson, rfl⟩
  | call name args => by
    rw [Written, toJson]
    exact ⟨_, rfl, by simp, rfl, rfl, _, rfl, forms_toJsonAll args⟩

theorem forms_toJsonAll :
    ∀ ts : List Term, List.Forall₂ (fun form item => form item) (forms ts) (toJsonAll ts)
  | [] => .nil
  | t :: ts => .cons t.written_toJson (forms_toJsonAll ts)

end

end Term

theorem UnaryOp.ofDocument?_name (op : UnaryOp) : UnaryOp.ofDocument? (.str op.name) = some op := by
  cases op <;> decide

theorem BinaryOp.ofDocument?_name (op : BinaryOp) :
    BinaryOp.ofDocument? (.str op.name) = some op := by
  cases op <;> decide

theorem Literal.ofDocument?_toJson {l : Literal} (finite : ∀ x, l = .float x → x.isFinite) :
    Literal.ofDocument? (.ofJson l.toJson) = some l := by
  cases l with
  | float x =>
    rw [toJson, if_pos (finite x rfl)]
    rfl
  | int i =>
    rw [toJson, Document.ofJson, ofDocument?, Value.int64?_toInt]
    rfl
  | _ => rfl

namespace Term

theorem ofDocumentWithin?_written {n : ℕ} {t : Term} {j : Json}
    (finite : ∀ x, .float x ∈ t.literals → x.isFinite) (written : t.Written j)
    (low : (Document.ofJson j).height ≤ n) : ofDocumentWithin? n (.ofJson j) = some t := by
  induction n generalizing t j with
  | zero => exact absurd low (Nat.not_le.2 (Document.height_pos _))
  | succ n ih =>
    have part (t' : Term) (inside : t'.literals ⊆ t.literals) (j' : Json)
        (lower : (Document.ofJson j').height < (Document.ofJson j).height)
          (written : t'.Written j') :
        ofDocumentWithin? n (.ofJson j') = some t' :=
      ih (fun x h => finite x (inside h)) written (Nat.le_of_lt_succ (Nat.lt_of_lt_of_le lower low))
    rw [ofDocumentWithin?]
    cases t with
    | column components =>
      rw [Written] at written
      obtain ⟨d, values, variant, shows, holds⟩ :=
        variant?_of_isObject written (by simp) (show kinds.idxOf "column" = 0 from rfl) (by decide)
      have readComponents :
          required (Document.items? Document.text?) ((values "components").map .ofJson)
          = some components :=
        required_of_holds holds
          fun j' _ form => items?_of_isArray form fun c _ item _ same => same ▸ rfl
      simp [variant, shows.fields, readComponents]
    | literal l =>
      rw [Written] at written
      obtain ⟨d, values, variant, shows, holds⟩ :=
        variant?_of_isObject written (by simp) (show kinds.idxOf "literal" = 1 from rfl) (by decide)
      have readValue : required Literal.ofDocument? ((values "value").map .ofJson) = some l :=
        required_of_holds holds fun j' _ same =>
          same ▸ Literal.ofDocument?_toJson
            fun x float => finite x (float ▸ List.mem_singleton_self l)
      simp [variant, shows.fields, readValue]
    | unary op t =>
      rw [Written] at written
      obtain ⟨d, values, variant, shows, holdsOp, holdsTerm⟩ :=
        variant?_of_isObject written (by simp) (show kinds.idxOf "unary" = 2 from rfl) (by decide)
      have readOp : required UnaryOp.ofDocument? ((values "op").map .ofJson) = some op :=
        required_of_holds holdsOp fun _ _ same => same ▸ op.ofDocument?_name
      have readTerm : required (ofDocumentWithin? n) ((values "term").map .ofJson) = some t :=
        required_of_holds holdsTerm
          fun j' found form => part t (List.Subset.refl _) j' (shows.lower _ _ found) form
      simp [variant, shows.fields, readOp, readTerm]
    | binary op l r =>
      rw [Written] at written
      obtain ⟨d, values, variant, shows, holdsOp, holdsLeft, holdsRight⟩ :=
        variant?_of_isObject written (by simp) (show kinds.idxOf "binary" = 3 from rfl) (by decide)
      have readOp : required BinaryOp.ofDocument? ((values "op").map .ofJson) = some op :=
        required_of_holds holdsOp fun _ _ same => same ▸ op.ofDocument?_name
      have readLeft : required (ofDocumentWithin? n) ((values "left").map .ofJson) = some l :=
        required_of_holds holdsLeft fun j' found form =>
          part l (List.subset_append_left ..) j' (shows.lower _ _ found) form
      have readRight : required (ofDocumentWithin? n) ((values "right").map .ofJson) = some r :=
        required_of_holds holdsRight fun j' found form =>
          part r (List.subset_append_right ..) j' (shows.lower _ _ found) form
      simp [variant, shows.fields, readOp, readLeft, readRight]
    | isNull t negated =>
      rw [Written] at written
      obtain ⟨d, values, variant, shows, holdsTerm, holdsNegated⟩ :=
        variant?_of_isObject written (by simp) (show kinds.idxOf "is_null" = 4 from rfl) (by decide)
      have readTerm : required (ofDocumentWithin? n) ((values "term").map .ofJson) = some t :=
        required_of_holds holdsTerm
          fun j' found form => part t (List.Subset.refl _) j' (shows.lower _ _ found) form
      have readNegated :
          withDefault false Document.bool? ((values "negated").map .ofJson) = some negated :=
        withDefault_of_holds holdsNegated fun _ _ same => same ▸ rfl
      simp [variant, shows.fields, readTerm, readNegated]
    | call name args =>
      rw [Written, forms_eq_map] at written
      obtain ⟨d, values, variant, shows, holdsFunction, holdsArgs⟩ :=
        variant?_of_isObject written (by simp) (show kinds.idxOf "call" = 5 from rfl) (by decide)
      have readFunction : required Document.text? ((values "function").map .ofJson) = some name :=
        text_of_holds holdsFunction
      have readArgs : required (Document.items? (ofDocumentWithin? n)) ((values "args").map .ofJson)
          = some args :=
        required_of_holds holdsArgs
            fun j' found form => items?_of_isArray form fun t mem item lower form =>
          part t (fun l h => mem_literalsAll.2 ⟨t, mem, h⟩) item
            (Nat.lt_trans lower (shows.lower _ _ found)) form
      simp [variant, shows.fields, readFunction, readArgs]

theorem ofDocument?_written {t : Term} {j : Json} (finite : ∀ x, .float x ∈ t.literals → x.isFinite)
    (written : t.Written j) : ofDocument? (.ofJson j) = some t :=
  ofDocumentWithin?_written finite written (Nat.le_refl _)

end Term

end RowQuery
