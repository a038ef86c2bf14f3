import RowQuery.Engine.Ids
import RowQuery.Engine.ResultSets
import RowQuery.Engine.Tokens

/-!
What statements work on: a store, a source of identifiers, the cancellation tokens and the result
sets. An action keeps its changes when it fails.
-/

namespace RowQuery

structure Workspace where
  store : Store
  ids : Ids := {}
  tokens : Tokens := {}
  results : ResultSets := {}

abbrev Action (ε α : Type) := ExceptT ε (StateM Workspace) α

namespace Workspace

def onStore {α : Type} (action : StoreAction α) : Action RunError α := fun w =>
  let (result, store) := action w.store
  (onData result, { w with store })

def drawId : StateM Workspace String := fun w =>
  let (id, ids) := w.ids.draw
  (id, { w with ids })

def openCollection (kind : EntryKind) (collection : String) :
    Action RunError (NameMap kind.Entry) := fun w =>
  let (result, results) := w.results.openAs kind collection
  (result, { w with results })

end Workspace

end RowQuery
