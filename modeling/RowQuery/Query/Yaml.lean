import RowQuery.Query.Document
import RowQuery.Yaml.Resolve

/-!
Statements written in YAML.
-/

namespace RowQuery.Statement

def ofYaml? (text : String) : Option Statement := do
  let written ← Yaml.Written.ofText? text
  ofDocument? (← written.variant? "statement")

end RowQuery.Statement
