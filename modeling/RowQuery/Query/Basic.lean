import RowQuery.NameMap
import RowQuery.Term.Basic

/-!
Statements. A query reads rows from an origin, keeps those that pass a filter, orders them, projects
them and sends them to a destination.
-/

namespace RowQuery

inductive Direction
  | ascending | descending
  deriving DecidableEq, Inhabited

structure SortKey where
  column : String
  direction : Direction := .ascending
  deriving DecidableEq, Inhabited

structure CodecRef where
  name : String
  options : NameMap String := .empty

inductive Origin
  | resultSet : String → Origin
  | data : String → CodecRef → Origin

def Origin.describe : Origin → String
  | resultSet name => name
  | data path _ => path

structure QuerySource where
  origin : Origin
  label : Option String := none

structure Join where
  source : QuerySource
  condition : Term

inductive Projection
  | item : Term → Option String → Projection
  | distinct : List Projection → Projection
  | top : Nat → List Projection → Projection
  deriving Inhabited

def Projection.wildcard : String := "*"

def Projection.star : Projection := item (.ofColumnName wildcard) none

inductive Destination
  | resultSet : String → Destination
  | folder : String → CodecRef → Destination

structure Query where
  source : QuerySource
  joins : List Join := []
  filter : Option Term := none
  groupBy : List Term := []
  orderBy : List SortKey := []
  projection : List Projection := [.star]
  destination : Option Destination := none

inductive Statement
  | query : Query → Statement
  | insert : String → Statement
  | delete : String → Statement

def Statement.kind : Statement → String
  | query _ => "query"
  | insert _ => "insert"
  | delete _ => "delete"

end RowQuery
