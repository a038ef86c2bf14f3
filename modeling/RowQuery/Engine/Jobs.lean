/-!
Jobs that run one after the other. All of them run, whatever the others do; the first failure in
their order is the one that is reported.
-/

namespace RowQuery.Jobs

variable {σ ε α : Type}

def gather : List (Except ε α) → Except ε (List α)
  | [] => .ok []
  | .error e :: _ => .error e
  | .ok a :: rest =>
    match gather rest with
    | .ok as => .ok (a :: as)
    | .error e => .error e

theorem gather_map_ok (as : List α) : gather (as.map (Except.ok (ε := ε))) = .ok as := by
  induction as with
  | nil => rfl
  | cons a as ih => simp [gather, ih]

def runEach (s : σ) : List (ExceptT ε (StateM σ) α) → List (Except ε α) × σ
  | [] => ([], s)
  | job :: rest =>
    let (result, s) := job s
    let (results, s) := runEach s rest
    (result :: results, s)

def runAll (jobs : List (ExceptT ε (StateM σ) α)) : ExceptT ε (StateM σ) (List α) := fun s =>
  let (results, s) := runEach s jobs
  (gather results, s)

end RowQuery.Jobs
