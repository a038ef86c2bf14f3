import RowQuery.Proofs.Query.PartJob

/-!
Workers that write to one store in memory. The content of a file is the cell of its worker: no other
worker writes to it, and none reads it.
-/

namespace RowQuery

namespace MemoryStore

variable {s : MemoryStore} {shares : List Share} {cells : List (Option Bytes)}

theorem depositAll_none : s.depositAll shares (shares.map fun _ => none) = s := by
  induction shares generalizing s with
  | nil => rfl
  | cons share shares ih => cases share <;> exact ih

theorem bytes?_depositAll {other : String}
    (apart : ∀ share ∈ shares, ∀ path ∈ share.path?,
      Path.trimSlashes other ≠ Path.trimSlashes path) :
    (s.depositAll shares cells).bytes? other = s.bytes? other := by
  induction shares generalizing s cells with
  | nil => rfl
  | cons share shares ih =>
    obtain ⟨head, tail⟩ := List.forall_mem_cons.1 apart
    cases cells with
    | nil => rfl
    | cons cell cells =>
      cases share with
      | failed fault => exact ih tail
      | assigned path rows => exact (ih tail).trans (s.bytes?_deposit path (head path rfl) cell)

theorem insert_deposit {path other : String}
    (apart : Path.trimSlashes path ≠ Path.trimSlashes other) (content : Bytes)
    (cell : Option Bytes) :
    (s.deposit other cell).insert path content = (s.insert path content).deposit other cell := by
  cases cell with
  | none => rfl
  | some old => exact s.insert_comm other old apart.symm content

theorem insert_depositAll {path : String}
    (apart : ∀ share ∈ shares, ∀ path' ∈ share.path?,
      Path.trimSlashes path ≠ Path.trimSlashes path') (content : Bytes) :
    (s.depositAll shares cells).insert path content
      = (s.insert path content).depositAll shares cells := by
  induction shares generalizing s cells with
  | nil => rfl
  | cons share shares ih =>
    obtain ⟨head, tail⟩ := List.forall_mem_cons.1 apart
    cases cells with
    | nil => rfl
    | cons cell cells =>
      cases share with
      | failed fault => exact ih tail
      | assigned other rows =>
        rw [depositAll, depositAll, ih tail, insert_deposit (head other rfl)]

theorem depositAll_set (apart : shares.Pairwise Share.Apart) {n : Nat} {path : String}
    {rows : List Row} (share : shares[n]? = some (.assigned path rows)) {cell : Option Bytes}
    (old : cells[n]? = some cell) (content : Bytes) :
    (s.depositAll shares cells).insert path content
      = s.depositAll shares (cells.set n (some content)) := by
  induction shares generalizing s n cells with
  | nil => cases share
  | cons first shares ih =>
    obtain ⟨head, tail⟩ := List.pairwise_cons.1 apart
    cases cells with
    | nil => cases old
    | cons c cells =>
      cases n with
      | zero =>
        obtain rfl : first = .assigned path rows := Option.some.inj share
        have others : ∀ other ∈ shares,
            ∀ path' ∈ other.path?, Path.trimSlashes path ≠ Path.trimSlashes path' :=
          fun other hother path' => head other hother path rfl path'
        rw [depositAll, List.set_cons_zero, depositAll, insert_depositAll others, deposit_insert,
          deposit_some]
      | succ n => cases first <;> exact ih tail share old

end MemoryStore

def Workspace.withCells (w : Workspace) (s : MemoryStore) (shares : List Share)
    (cells : List (Option Bytes)) : Workspace :=
  { w with store := .memory (s.depositAll shares cells) }

namespace PartWriter

variable {folder : String} {writer : RowWriter} {token : Nat} {w : Workspace} {s : MemoryStore}
    {shares : List Share}
  (apart : shares.Pairwise Share.Apart) {n : Nat} {path : String} {all : List Row}
  (share : shares[n]? = some (.assigned path all))
include apart share

theorem fills_closing (id : String) {file : PartFile} {sink : MemoryStore.Writer}
    (holds : file.sink = .memory sink) (key : sink.key = Path.trimSlashes path)
    (answer : Except RunError (List WrittenFile) → Except RunError (List WrittenFile))
    (cell : Option Bytes) :
    (closing { id, file := some file } answer).Fills (w.withCells s shares) n (some sink.buffer)
      (answer (.ok [⟨file.path, file.rows⟩])) cell := by
  refine .step (fun cells old => ?_) .done
  have closed : close { id, file := some file } (w.withCells s shares cells) = _ :=
    close_open rfl holds
  have committed : (s.depositAll shares cells).commit sink
      = s.depositAll shares (cells.set n (some sink.buffer)) := by
    rw [← MemoryStore.depositAll_set apart share old, MemoryStore.commit, key]
    rfl
  rw [closed, committed]
  rfl

theorem fills_writing {id : String} {file : PartFile} {sink : MemoryStore.Writer}
    (holds : file.sink = .memory sink) (key : sink.key = Path.trimSlashes path) (row : Row)
    {rows : List Row} (later : ∀ {file : PartFile} {sink : MemoryStore.Writer},
      file.sink = .memory sink → sink.key = Path.trimSlashes path →
      (pushing folder writer token { id, file := some file } rows).Fills (w.withCells s shares) n
        (some (sink.buffer ++ (file.encoder.feed rows).1))
        (report file.path (file.rows + rows.length) (file.encoder.feed rows).2) (some [])) :
    (writing folder writer { id, file := some file } row
      fun p => pushing folder writer token p rows).Fills
      (w.withCells s shares) n (some (sink.buffer ++ (file.encoder.feed (row :: rows)).1))
      (report file.path (file.rows + (row :: rows).length) (file.encoder.feed (row :: rows)).2)
        (some []) := by
  have pushed (cells : List (Option Bytes)) :
      push folder writer { id, file := some file } row (w.withCells s shares cells) = _ :=
        push_open rfl holds row
  rw [Encoder.feed]
  cases he : file.encoder.write row with
  | error fault =>
    rw [he] at pushed
    dsimp only
    rw [List.append_nil]
    refine .stay (fun cells _ => ?_)
      (fills_closing apart share id holds key (fun _ => .error (.data fault)) (some []))
    rw [pushed]
  | ok written =>
    obtain ⟨encoder, content⟩ := written
    rw [he] at pushed
    let file' : PartFile :=
      { file with sink := .memory (sink.write content), encoder, rows := file.rows + 1 }
    have rest : (pushing folder writer token { id, file := some file' } rows).Fills
        (w.withCells s shares) n _ _ _ :=
      later rfl key
    simp only [MemoryStore.Writer.write, List.append_assoc, file', Nat.add_assoc,
      Nat.add_comm 1] at rest
    refine .stay (fun cells _ => ?_) rest
    rw [pushed]
    rfl

theorem fills_pushing_open (active : w.tokens.isCancelled token = false) {id : String}
    {file : PartFile} {sink : MemoryStore.Writer} (holds : file.sink = .memory sink)
    (key : sink.key = Path.trimSlashes path) (rows : List Row) :
    (pushing folder writer token { id, file := some file } rows).Fills (w.withCells s shares) n
      (some (sink.buffer ++ (file.encoder.feed rows).1))
      (report file.path (file.rows + rows.length) (file.encoder.feed rows).2) (some []) := by
  induction rows generalizing file sink with
  | nil =>
    rw [pushing, Encoder.feed, List.append_nil]
    exact fills_closing apart share id holds key (fun report => report) (some [])
  | cons row rows ih =>
    rw [pushing]
    refine .stay (fun cells _ => if_neg (by simp [Workspace.withCells, active])) ?_
    refine .stay (fun cells _ => rfl) ?_
    exact fills_writing apart share holds key row ih

theorem fills_pushing_closed (active : w.tokens.isCancelled token = false) {id : String}
    (named : filePath folder writer w.ids id = path) (rows : List Row) :
    (pushing folder writer token { id } rows).Fills (w.withCells s shares) n (writer.content? rows)
      (outcome writer path rows) none := by
  cases rows with
  | nil => exact .stay (fun _ _ => rfl) .done
  | cons row rows =>
    have opened {cells : List (Option Bytes)} (old : cells[n]? = some none) :
        ensureFile folder writer { id } (w.withCells s shares cells)
          = (.ok (newFile writer path), w.withCells s shares (cells.set n (some []))) := by
      have made : openFile folder writer id (w.withCells s shares cells)
          = (.ok (newFile writer (filePath folder writer w.ids id)),
              { w with
                store := .memory
                  ((s.depositAll shares cells).insert (filePath folder writer w.ids id) []) }) :=
        openFile_memory rfl id
      rw [named, MemoryStore.depositAll_set apart share old] at made
      exact made
    have written : (writing folder writer { id, file := some (newFile writer path) } row _).Fills
      (w.withCells s shares) n
        _ _ (some []) :=
      fills_writing apart share rfl rfl row
        fun holds key => fills_pushing_open apart share active holds key rows
    have whole : outcome writer path (row :: rows)
        = report path (0 + (row :: rows).length) (writer.encoder.feed (row :: rows)).2 := by
      rw [Nat.zero_add]
      rfl
    rw [pushing, whole]
    refine .stay (fun cells _ => if_neg (by simp [Workspace.withCells, active])) ?_
    refine .step (fun cells old => ?_) written
    rw [opened old]

end PartWriter

namespace PartWriter

variable {folder : String} {writer : RowWriter} {token : Nat} {w : Workspace} {s : MemoryStore}
    {shares : List Share}

theorem fills_job (apart : shares.Pairwise Share.Apart)
    (active : w.tokens.isCancelled token = false) {n : Nat} {id : String} {waiting : List Stage}
    {unit : SourceUnit}
    (share : shares[n]? = some (.given (filePath folder writer w.ids id)
      (unit.evaluate (.memory s) waiting)))
    (unread : ∀ share ∈ shares, ∀ path ∈ share.path?, ∀ read ∈ unit.path?,
      Path.trimSlashes read ≠ Path.trimSlashes path) :
    (job folder writer token (pure id) waiting unit).Fills (w.withCells s shares) n
      (Share.content? writer
        (.given (filePath folder writer w.ids id) (unit.evaluate (.memory s) waiting)))
      (Share.outcome writer
        (.given (filePath folder writer w.ids id) (unit.evaluate (.memory s) waiting))) none := by
  have loaded (cells : List (Option Bytes)) :
      unit.evaluate (w.withCells s shares cells).store waiting
        = unit.evaluate (.memory s) waiting := by
    refine unit.evaluate_congr (fun read hread => ?_) waiting
    change (s.depositAll shares cells).read read = s.read read
    rw [MemoryStore.read, MemoryStore.read,
      MemoryStore.bytes?_depositAll
        fun share hshare path hpath => unread share hshare path hpath read hread]
  generalize hpath : filePath folder writer w.ids id = path at share
  refine .stay (fun cells _ => if_neg (by simp [Workspace.withCells, active])) ?_
  cases rows : unit.evaluate (.memory s) waiting with
  | error e =>
    refine .stay (fun cells _ => ?_) .done
    rw [loaded, rows]
    rfl
  | ok all =>
    rw [rows] at share
    have pushed : (pushing folder writer token { id } all).Fills
        (w.withCells s shares) n _ _ none :=
      fills_pushing_closed apart share active hpath all
    refine .stay (fun cells _ => ?_) (.stay (fun cells _ => rfl) pushed)
    rw [loaded, rows]
    rfl

end PartWriter

end RowQuery
