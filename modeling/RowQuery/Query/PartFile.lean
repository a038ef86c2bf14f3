import RowQuery.Engine.Workspace
import RowQuery.Pipeline.Collect

/-!
Writing rows to the files of a folder, one for each worker that has a row. A file is opened when its
first row arrives, and its name is made of the identifier of the process and a new one.
-/

namespace RowQuery

structure WrittenFile where
  path : String
  rows : Nat
  deriving DecidableEq

structure PartFile where
  path : String
  sink : StoreWriter
  encoder : Encoder
  rows : Nat := 0

structure PartWriter where
  id : String
  file : Option PartFile := none

namespace PartWriter

def path (folder extension process id : String) : String :=
  Path.combine folder s!"Part-{process}-{id}.{extension}"

def openFile (folder : String) (writer : RowWriter) (id : String) : Action RunError PartFile := do
  let path := path folder writer.extension (← get).ids.processText id
  let sink ← Workspace.onStore (Store.openWriter path)
  return { path, sink, encoder := writer.encoder }

def ensureFile (folder : String) (writer : RowWriter) (p : PartWriter) : Action RunError PartFile :=
  match p.file with
  | some file => return file
  | none => openFile folder writer p.id

def push (folder : String) (writer : RowWriter) (p : PartWriter) (row : Row) :
    StateM Workspace (PartWriter × Except RunError Unit) := fun w =>
  match ensureFile folder writer p w with
  | (.error e, w) => ((p, .error e), w)
  | (.ok file, w) =>
    match file.encoder.write row with
    | .error e => (({ p with file := some file }, .error (.data e)), w)
    | .ok (encoder, content) =>
      let (store, sink) := file.sink.write w.store content
      (({ p with file := some { file with sink, encoder, rows := file.rows + 1 } }, .ok ()),
        { w with store })

def close (p : PartWriter) : Action RunError (List WrittenFile) := fun w =>
  match p.file with
  | none => (.ok [], w)
  | some file => (.ok [⟨file.path, file.rows⟩], { w with store := file.sink.close w.store })

def collector (folder : String) (writer : RowWriter) (token : Nat) :
    Collector Workspace PartWriter WrittenFile where
  store w := w.store
  isCancelled w := w.tokens.isCancelled token
  start := do return { id := ← Workspace.drawId }
  push := push folder writer
  close := close

end PartWriter

end RowQuery
