import RowQuery.Proofs.Query.PartFile
import RowQuery.Query.Execute

/-!
Queries into a folder of a store in memory: the codec is looked up first, then the folder is made
when it is not there, and then the rows are written.
-/

namespace RowQuery

def MemoryStore.within (s : MemoryStore) (folder : String) : MemoryStore :=
  if s.containerExists folder then s else s.createContainer folder

@[simp] theorem MemoryStore.objects_within (s : MemoryStore) (folder : String) :
    (s.within folder).objects = s.objects := by
  rw [within]
  split <;> rfl

theorem Store.read_within (s : MemoryStore) (folder path : String) :
    (memory (s.within folder)).read path = (memory s).read path := by
  simp only [read, MemoryStore.read, MemoryStore.bytes?, MemoryStore.objects_within]

def Workspace.forFiles (w : Workspace) (context : QueryContext) (s : MemoryStore)
    (folder : String) : Workspace :=
  { w with store := .memory (s.within folder), tokens := w.tokens.derive context.token }

namespace Destination

variable (context : QueryContext) (p : Pipeline) {w : Workspace} {s : MemoryStore}

theorem route_folder (store : w.store = .memory s) (folder : String) (codec : CodecRef) :
    route context p (.folder folder codec) w
        = match context.catalog.writer codec.name codec.options with
      | .error fault => (.error (.data fault), w)
      | .ok writer =>
        match (PartWriter.collector folder writer w.tokens.size).run p
            (w.forFiles context s folder) with
        | (.ok files, w') => (.ok (.files files), w')
        | (.error e, w') => (.error (.run e), w') := by
  cases hw : context.catalog.writer codec.name codec.options with
  | error fault =>
    have refused : (checked (onQueryData (context.catalog.writer codec.name codec.options)) :
        Action QueryError RowWriter) w = (.error (.data fault), w) := by
      rw [hw]
      rfl
    rw [route, run_bind_error refused]
  | ok writer =>
    have found : (checked (onQueryData (context.catalog.writer codec.name codec.options)) :
        Action QueryError RowWriter) w = (.ok writer, w) := by
      rw [hw]
      rfl
    have asked (w : Workspace) : (get : Action QueryError Workspace) w = (.ok w, w) := rfl
    have made : onQueryStore (Store.createContainer folder) w
        = (.ok (), { w with store := .memory (s.createContainer folder) }) := by
      rw [onQueryStore, store]
      rfl
    have wrote (w : Workspace) : (do
        let token := (← get).tokens.size
        modify fun w => { w with tokens := w.tokens.derive context.token }
        return QueryOutput.files (← onRun ((PartWriter.collector folder writer token).run p)) :
        Action QueryError QueryOutput) w
          = match (PartWriter.collector folder writer w.tokens.size).run p
              { w with tokens := w.tokens.derive context.token } with
            | (.ok files, w') => (.ok (.files files), w')
            | (.error e, w') => (.error (.run e), w') := by
      rw [run_bind_ok (asked w), run_bind_ok (run_modify _ w), run_bind, onRun]
      cases (PartWriter.collector folder writer w.tokens.size).run p
          { w with tokens := w.tokens.derive context.token } with
      | mk result w' => cases result <;> rfl
    have there : w.store.containerExists folder = s.containerExists folder := by
      rw [store]
      rfl
    rw [route, run_bind_ok found, run_bind_ok (asked w), Workspace.forFiles, MemoryStore.within,
      there]
    cases s.containerExists folder with
    | true =>
      simp only [if_true, ← store]
      exact wrote w
    | false =>
      rw [if_neg Bool.false_ne_true]
      exact (run_bind_ok made _).trans (wrote _)

theorem route_folder_cases (store : w.store = .memory s) (folder : String) (codec : CodecRef) :
    (∃ fault, context.catalog.writer codec.name codec.options = .error fault ∧
      route context p (.folder folder codec) w = (.error (.data fault), w)) ∨
    ∃ writer, context.catalog.writer codec.name codec.options = .ok writer ∧
      ((∃ e w', (PartWriter.collector folder writer w.tokens.size).run p
        (w.forFiles context s folder) = (.error e, w') ∧
        route context p (.folder folder codec) w = (.error (.run e), w')) ∨
      ∃ files w', (PartWriter.collector folder writer w.tokens.size).run p
        (w.forFiles context s folder) = (.ok files, w') ∧
        route context p (.folder folder codec) w = (.ok (.files files), w')) := by
  rw [route_folder context p store]
  cases context.catalog.writer codec.name codec.options with
  | error fault => exact .inl ⟨fault, rfl, rfl⟩
  | ok writer =>
    refine .inr ⟨writer, rfl, ?_⟩
    dsimp only
    cases (PartWriter.collector folder writer w.tokens.size).run p
        (w.forFiles context s folder) with
    | mk result w' =>
      cases result with
      | error e => exact .inl ⟨e, w', rfl, rfl⟩
      | ok files => exact .inr ⟨files, w', rfl, rfl⟩

end Destination

end RowQuery
