import RowQuery.Proofs.Engine.OwnCells
import RowQuery.Proofs.Query.Shares

/-!
The work on one unit as a job of a pool. Other workers may come in between its steps: looking for
cancellation, reading the unit, taking an identifier, opening the file, writing a row, and closing.
-/

namespace RowQuery

/-- The job ends so when no other one comes in between. -/
inductive Job.RunsTo {σ ε α : Type} : Job σ ε α → σ → Except ε α → σ → Prop
  | done {result s} : RunsTo (.done result) s result s
  | step {f s result s'} : (f s).1.RunsTo (f s).2 result s' → RunsTo (.step f) s result s'

namespace PartWriter

variable (folder : String) (writer : RowWriter) (token : Nat)

def closing (p : PartWriter)
    (answer : Except RunError (List WrittenFile) → Except RunError (List WrittenFile)) :
    Job Workspace RunError (List WrittenFile) :=
  .step fun w => (.done (answer (close p w).1), (close p w).2)

def writing (p : PartWriter) (row : Row)
    (next : PartWriter → Job Workspace RunError (List WrittenFile)) :
    Job Workspace RunError (List WrittenFile) :=
  .step fun w =>
    match push folder writer p row w with
    | ((p, .ok _), w) => (next p, w)
    | ((p, .error e), w) => (closing p fun _ => .error e, w)

def pushing (p : PartWriter) : List Row → Job Workspace RunError (List WrittenFile)
  | [] => closing p fun report => report
  | row :: rest => .step fun w =>
    if w.tokens.isCancelled token
      then (closing p fun report => report.bind fun _ => .error .cancelled, w)
    else (.step fun w =>
      match ensureFile folder writer p w with
      | (.error e, w) => (closing p fun _ => .error e, w)
      | (.ok file, w) =>
        (writing folder writer { p with file := some file } row fun p => pushing p rest, w), w)

/-- The work on one unit. The worker takes its identifier in the given way. -/
def job (draw : StateM Workspace String) (waiting : List Stage) (unit : SourceUnit) :
    Job Workspace RunError (List WrittenFile) :=
  .step fun w =>
    if w.tokens.isCancelled token then (.done (.error .cancelled), w)
    else (.step fun w =>
      match unit.evaluate w.store waiting with
      | .error e => (.done (.error e), w)
      | .ok rows =>
        (.step fun w => (pushing folder writer token { id := (draw w).1 } rows, (draw w).2), w), w)

variable {folder writer token}

theorem runsTo_closing (p : PartWriter)
    (answer : Except RunError (List WrittenFile) → Except RunError (List WrittenFile))
    (w : Workspace) : (closing p answer).RunsTo w (answer (close p w).1) (close p w).2 :=
    .step .done

theorem push_of_ensureFile {p : PartWriter} {file : PartFile} {w w' : Workspace}
    (opened : ensureFile folder writer p w = (.ok file, w')) (row : Row) :
    push folder writer p row w = push folder writer { p with file := some file } row w' := by
  have again : ensureFile folder writer { p with file := some file } w' = (.ok file, w') := rfl
  rw [push, push, opened, again]

theorem runsTo_pushing (p : PartWriter) (rows : List Row) (w : Workspace) :
    (pushing folder writer token p rows).RunsTo w
      ((collector folder writer token).pushAll p rows w).1
      ((collector folder writer token).pushAll p rows w).2 := by
  induction rows generalizing p w with
  | nil => exact runsTo_closing p _ w
  | cons row rows ih =>
    rw [pushing]
    refine .step ?_
    cases stop : w.tokens.isCancelled token with
    | true =>
      rw [if_pos rfl, Collector.pushAll_cancelled _ stop, collector_close]
      exact runsTo_closing p (fun report => report.bind fun _ => .error .cancelled) w
    | false =>
      rw [if_neg Bool.false_ne_true, Collector.pushAll_cons _ stop, collector_push, collector_close]
      refine .step ?_
      cases opened : ensureFile folder writer p w with
      | mk result w' =>
        cases result with
        | error e =>
          have refused : push folder writer p row w = ((p, .error e), w') := by rw [push, opened]
          rw [refused]
          exact runsTo_closing p (fun _ => .error e) w'
        | ok file =>
          rw [push_of_ensureFile opened]
          refine .step ?_
          dsimp only
          cases push folder writer { p with file := some file } row w' with
          | mk pushed w'' =>
            obtain ⟨next, result⟩ := pushed
            cases result with
            | error e => exact runsTo_closing next (fun _ => .error e) w''
            | ok done => exact ih next w''

theorem runsTo_job (waiting : List Stage) (unit : SourceUnit) (w : Workspace) :
    (job folder writer token Workspace.drawId waiting unit).RunsTo w
      ((collector folder writer token).runUnit waiting unit w).1
      ((collector folder writer token).runUnit waiting unit w).2 := by
  refine .step ?_
  cases stop : w.tokens.isCancelled token with
  | true =>
    rw [if_pos rfl, Collector.runUnit_cancelled _ stop]
    exact .done
  | false =>
    rw [if_neg Bool.false_ne_true, Collector.runUnit_active _ stop, collector_store]
    refine .step ?_
    dsimp only
    cases unit.evaluate w.store waiting with
    | error e => exact .done
    | ok rows =>
      refine .step ?_
      exact runsTo_pushing _ rows _

end PartWriter

end RowQuery
