import RowQuery.Engine.RunError

/-!
Why a statement fails.
-/

namespace RowQuery

inductive UnsupportedQuery
  | statement (kind : String)
  | join
  | groupBy
  | wrapperAmongItems
  deriving DecidableEq

def UnsupportedQuery.message : UnsupportedQuery → String
  | statement kind => s!"{kind} statements cannot be compiled"
  | join => "JOIN is not implemented"
  | groupBy => "GROUP BY is not implemented"
  | wrapperAmongItems => "DISTINCT/TOP must be the only item of a projection list"

inductive QueryError
  | sourceNotFound (origin : String)
  | unsupported (query : UnsupportedQuery)
  | expression (fault : TermFault)
  | unreadable
  | run (fault : RunError)
  | data (fault : DataError)
  deriving DecidableEq

def QueryError.message : QueryError → String
  | sourceNotFound origin => s!"no file or directory was found for origin '{origin}'"
  | unsupported query => s!"unsupported query: {query.message}"
  | expression fault => s!"expression: {fault.message}"
  | unreadable => "yaml: the text is not a statement"
  | run fault => fault.message
  | data fault => fault.message

end RowQuery
