import RowQuery.Proofs.Engine.Ids
import RowQuery.Proofs.Pipeline.Collect
import RowQuery.Proofs.Store.Memory
import RowQuery.Proofs.Store.Occurs
import RowQuery.Query.PartFile

/-!
What a worker leaves in a store in memory when it writes its rows to a file of its own: nothing
without a row, else the bytes of all rows before the first one that the encoder refuses.
-/

namespace RowQuery

/-- The bytes of the rows before the first one that is refused, and whether there is such a row. -/
def Encoder.feed : Encoder → List Row → Bytes × Except DataError Unit
  | _, [] => ([], .ok ())
  | e, row :: rest =>
    match e.write row with
    | .error fault => ([], .error fault)
    | .ok (e, content) => (content ++ (feed e rest).1, (feed e rest).2)

namespace RowWriter

theorem encodeFrom_of_feed {e : Encoder} {rows : List Row} (accepted : (e.feed rows).2 = .ok ()) :
    encodeFrom e rows = (e.feed rows).1 := by
  induction rows generalizing e with
  | nil => rfl
  | cons row rows ih =>
    rw [Encoder.feed] at accepted ⊢
    rw [encodeFrom]
    cases he : e.write row with
    | error fault =>
      rw [he] at accepted
      cases accepted
    | ok written =>
      rw [he] at accepted
      dsimp only at accepted ⊢
      rw [ih accepted]

def content? (writer : RowWriter) (rows : List Row) : Option Bytes :=
  if rows.isEmpty then none else some (writer.encoder.feed rows).1

end RowWriter

namespace PartWriter

def filePath (folder : String) (writer : RowWriter) (ids : Ids) (id : String) : String :=
  path folder writer.extension ids.processText id

def report (path : String) (rows : Nat) (accepted : Except DataError Unit) :
    Except RunError (List WrittenFile) :=
  onData do
    accepted
    return [⟨path, rows⟩]

def outcome (writer : RowWriter) (path : String) (rows : List Row) :
    Except RunError (List WrittenFile) :=
  if rows.isEmpty then .ok [] else report path rows.length (writer.encoder.feed rows).2

variable {folder : String} {writer : RowWriter} {token : Nat}

@[simp] theorem collector_store (w : Workspace) :
    (collector folder writer token).store w = w.store := rfl

@[simp] theorem collector_isCancelled (w : Workspace) :
    (collector folder writer token).isCancelled w = w.tokens.isCancelled token := rfl

@[simp] theorem collector_start (w : Workspace) :
    (collector folder writer token).start w
      = (.ok { id := w.ids.draw.1 }, { w with ids := w.ids.draw.2 }) := rfl

@[simp] theorem collector_push : (collector folder writer token).push = push folder writer := rfl

@[simp] theorem collector_close : (collector folder writer token).close = close := rfl

section InMemory

variable {w : Workspace} {s : MemoryStore} (store : w.store = .memory s)
include store

theorem close_open {id : String} {file : PartFile} {sink : MemoryStore.Writer}
    (holds : file.sink = .memory sink) :
    close { id, file := some file } w
      = (.ok [⟨file.path, file.rows⟩], { w with store := .memory (s.commit sink) }) := by
  simp only [close, holds, store]
  rfl

theorem push_open {id : String} {file : PartFile} {sink : MemoryStore.Writer}
    (holds : file.sink = .memory sink) (row : Row) :
    push folder writer { id, file := some file } row w = match file.encoder.write row with
      | .error fault => (({ id, file := some file }, .error (.data fault)), w)
      | .ok (encoder, content) =>
        (({ id, file := some { file with
            sink := .memory (sink.write content)
            encoder
            rows := file.rows + 1 } }, .ok ()), w) := by
  have opened : ensureFile folder writer { id, file := some file } w = (.ok file, w) := rfl
  simp only [push, opened]
  cases file.encoder.write row with
  | error fault => rfl
  | ok written =>
    rw [holds, store]
    change _ = (_, w)
    rw [← store]
    rfl

/-- The rows go to the buffer of the file, and the buffer to the store at the end. -/
theorem pushAll_open (active : w.tokens.isCancelled token = false) {id : String} {file : PartFile}
    {sink : MemoryStore.Writer} (holds : file.sink = .memory sink) (rows : List Row) :
    (collector folder writer token).pushAll { id, file := some file } rows w
      = (report file.path (file.rows + rows.length) (file.encoder.feed rows).2,
          { w with store := .memory (s.commit (sink.write (file.encoder.feed rows).1)) }) := by
  induction rows generalizing file sink with
  | nil =>
    rw [Collector.pushAll, collector_close, close_open store holds, Encoder.feed,
      MemoryStore.Writer.write, List.append_nil]
    rfl
  | cons row rows ih =>
    rw [Collector.pushAll_cons _ active, collector_push, push_open store holds, Encoder.feed]
    cases file.encoder.write row with
    | error fault =>
      dsimp only
      rw [collector_close, close_open store holds, MemoryStore.Writer.write, List.append_nil]
      rfl
    | ok written =>
      dsimp only
      rw [ih rfl]
      simp only [MemoryStore.Writer.write, List.append_assoc, List.length_cons, Nat.add_assoc,
        Nat.add_comm 1]

def newFile (writer : RowWriter) (path : String) : PartFile :=
  { path, sink := .memory { key := Path.trimSlashes path }, encoder := writer.encoder }

theorem openFile_memory (id : String) :
    openFile folder writer id w
      = (.ok (newFile writer (filePath folder writer w.ids id)),
          { w with store := .memory (s.insert (filePath folder writer w.ids id) []) }) := by
  have asked : (get : Action RunError Workspace) w = (.ok w, w) := rfl
  have made (place : String) : Workspace.onStore (Store.openWriter place) w
      = (.ok (.memory { key := Path.trimSlashes place }),
        { w with store := .memory (s.insert place []) }) := by
    rw [Workspace.onStore, store]
    rfl
  rw [openFile, run_bind_ok asked, filePath]
  rw [run_bind_ok (made _)]
  generalize path folder writer.extension w.ids.processText id = place
  rfl

theorem push_closed (id : String) (row : Row) :
    push folder writer { id } row w
      = push folder writer
        { id, file := some (newFile writer (filePath folder writer w.ids id)) } row
          { w with store := .memory (s.insert (filePath folder writer w.ids id) []) } := by
  have closed : ensureFile folder writer { id } w = openFile folder writer id w := rfl
  rw [openFile_memory store] at closed
  generalize newFile writer (filePath folder writer w.ids id) = file at closed ⊢
  generalize filePath folder writer w.ids id = place at closed ⊢
  have opened : ensureFile folder writer { id, file := some file }
    { w with store := .memory (s.insert place []) }
      = (.ok file, { w with store := .memory (s.insert place []) }) := rfl
  rw [push, push, closed, opened]

theorem pushAll_closed (active : w.tokens.isCancelled token = false) (id : String)
    (rows : List Row) :
    (collector folder writer token).pushAll { id } rows w
      = (outcome writer (filePath folder writer w.ids id) rows,
          { w with
            store := .memory
              (s.deposit (filePath folder writer w.ids id) (writer.content? rows)) }) := by
  cases rows with
  | nil =>
    change (Except.ok [], w) = (Except.ok [], { w with store := .memory s })
    rw [← store]
  | cons row rows =>
    have opened : (collector folder writer token).pushAll
        { id, file := some (newFile writer (filePath folder writer w.ids id)) } (row :: rows)
        { w with store := .memory (s.insert (filePath folder writer w.ids id) []) } = _ :=
      pushAll_open (w := { w with store := _ }) rfl active rfl (row :: rows)
    rw [Collector.pushAll_cons _ active, collector_push] at opened ⊢
    rw [push_closed store, opened]
    simp [outcome, newFile, RowWriter.content?, MemoryStore.commit, MemoryStore.insert,
      MemoryStore.Writer.write, NameMap.insert_insert]

theorem runUnit_memory (active : w.tokens.isCancelled token = false) (waiting : List Stage)
    (unit : SourceUnit) :
    (collector folder writer token).runUnit waiting unit w
        = match unit.evaluate w.store waiting with
      | .error e => (.error e, w)
      | .ok rows => (outcome writer (filePath folder writer w.ids w.ids.draw.1) rows,
          { w with
            ids := w.ids.draw.2
            store := .memory
              (s.deposit (filePath folder writer w.ids w.ids.draw.1)
                (writer.content? rows)) }) := by
  rw [Collector.runUnit_active _ active, collector_store]
  cases unit.evaluate w.store waiting with
  | error e => rfl
  | ok rows =>
    rw [collector_start]
    exact pushAll_closed (w := { w with ids := w.ids.draw.2 }) store active w.ids.draw.1 rows

end InMemory

end PartWriter

end RowQuery
