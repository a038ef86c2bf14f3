import RowQuery.Store.FileTree
import RowQuery.Store.Memory

/-!
Stores of objects under paths, in memory or as files. An operation that fails may still have changed
the store: directories made on the way to a file stay.
-/

namespace RowQuery

inductive Store
  | memory : MemoryStore → Store
  | files : FileTree → Store

abbrev StoreAction (α : Type) := ExceptT DataError (StateM Store) α

inductive StoreWriter
  | memory : MemoryStore.Writer → StoreWriter
  | file : FileTree.Writer → StoreWriter

namespace Store

def objectExists : Store → String → Bool
  | memory s, path => s.objectExists path
  | files t, path => t.objectExists path

def containerExists : Store → String → Bool
  | memory s, path => s.containerExists path
  | files t, path => t.containerExists path

def read : Store → String → Except DataError Bytes
  | memory s, path => s.read path
  | files t, path => t.read path

def list : Store → String → List String
  | memory s, container => s.list container
  | files t, container => t.list container

def createContainer (path : String) : StoreAction Unit := fun s =>
  match s with
  | memory s => (.ok (), memory (s.createContainer path))
  | files t => let (t, result) := t.createContainer path; (result, files t)

def openWriter (path : String) : StoreAction StoreWriter := fun s =>
  match s with
  | memory s => let (s, w) := s.openWriter path; (.ok (.memory w), memory s)
  | files t => let (t, result) := t.openWriter path; (result.map .file, files t)

end Store

namespace StoreWriter

def write (s : Store) (w : StoreWriter) (content : Bytes) : Store × StoreWriter :=
  match s, w with
  | s, memory w => (s, memory (w.write content))
  | .files t, file w => let (t, w) := t.write w content; (.files t, file w)
  | s, w => (s, w)

def flush (s : Store) (w : StoreWriter) : Store × StoreWriter :=
  match s, w with
  | .memory s, memory w => (.memory (s.commit w), memory w)
  | .files t, file w => let (t, w) := t.flush w; (.files t, file w)
  | s, w => (s, w)

/-- A writer that is given up makes visible what it still holds. -/
def close (s : Store) (w : StoreWriter) : Store := (w.flush s).1

end StoreWriter

namespace Store

def put (path : String) (content : Bytes) : StoreAction Unit := do
  let w ← openWriter path
  modify fun s =>
    let (s, w) := w.write s content
    let (s, w) := w.flush s
    w.close s

end Store

end RowQuery
