import RowQuery.Proofs.Pipeline.Visits
import RowQuery.Proofs.Query.SharedStore

/-!
Workers that write to a folder in memory and take their steps in any order. When each has an
identifier of its own, they leave the files and give the reports that they leave and give one after
another.
-/

namespace RowQuery.PartWriter

variable {folder : String} {writer : RowWriter} {token : Nat} {waiting : List Stage}
    {units : List SourceUnit}
  {w : Workspace} {s : MemoryStore}

/-- The shares, worker by worker: the identifier is the one that a worker draws in its turn. -/
theorem map_turns (store : w.store = .memory s) (active : w.tokens.isCancelled token = false)
    (avoid : ∀ id ∈ w.ids.drawnUntil
        (Jobs.runEach w (units.map ((collector folder writer token).runUnit waiting))).2.ids,
      ∀ unit ∈ units, unit.Avoids id) :
    (((collector folder writer token).turns waiting units w).map fun turn =>
        Share.given (filePath folder writer w.ids turn.2.ids.draw.1)
          (turn.1.evaluate w.store waiting))
      = shares folder writer w.ids (units.map fun unit => unit.evaluate w.store waiting) := by
  refine workers_induction ?_ ?_ ?_ store active avoid
  · intro w s store
    rfl
  · intro w s unit units fault store he ran ih
    rw [Collector.turns, List.map_cons, List.map_cons, ran, he, ih]
    rfl
  · intro w s unit units rows store he ran same ih
    have others :
        ∀ turn ∈ (collector folder writer token).turns waiting units (wrote folder writer w s rows),
        turn.1.evaluate (wrote folder writer w s rows).store waiting
          = turn.1.evaluate w.store waiting := by
      intro turn hturn
      refine same turn.1 ?_
      rw [← (collector folder writer token).map_fst_turns waiting units
        (wrote folder writer w s rows)]
      exact List.mem_map_of_mem hturn
    rw [List.map_congr_left same] at ih
    rw [Collector.turns, List.map_cons, List.map_cons, ran, he, shares]
    refine congrArg _ (Eq.trans (List.map_congr_left fun turn hturn => ?_) ih)
    rw [others turn hturn]
    rfl

section

variable (folder writer token waiting units w)

/-- The jobs of the workers. Each has the identifier that it draws when the workers run one after
another. -/
def jobs : List (Job Workspace RunError (List WrittenFile)) :=
  ((collector folder writer token).turns waiting units w).map fun turn =>
    job folder writer token (pure turn.2.ids.draw.1) waiting turn.1

/-- A run of the jobs on a pool, with what it reports and with the workspace that it leaves. -/
inductive Collects (bound : Nat) : Except RunError (List WrittenFile) → Workspace → Prop
  | mk {results w'} : Pool.Runs bound (jobs folder writer token waiting units w) w results w' →
      Collects bound (List.flatten <$> Jobs.gather results) w'

end

section Apart

variable (store : w.store = .memory s) (active : w.tokens.isCancelled token = false)
  (avoid : ∀ id ∈ w.ids.drawnUntil ((collector folder writer token).runUnits units waiting w).2.ids,
    ∀ unit ∈ units, unit.Avoids id)
include store active avoid

theorem cells_jobs :
    w.withCells s (shares folder writer w.ids (units.map fun unit => unit.evaluate w.store waiting))
        (((collector folder writer token).turns waiting units w).map fun _ => none) = w ∧
    w.withCells s (shares folder writer w.ids (units.map fun unit => unit.evaluate w.store waiting))
        (((collector folder writer token).turns waiting units w).map
          fun turn => Share.content? writer
          (.given (filePath folder writer w.ids turn.2.ids.draw.1)
            (turn.1.evaluate w.store waiting)))
      = { w with store := ((collector folder writer token).runUnits units waiting w).2.store } ∧
    (((collector folder writer token).turns waiting units w).map fun turn => Share.outcome writer
        (.given (filePath folder writer w.ids turn.2.ids.draw.1) (turn.1.evaluate w.store waiting)))
      = (Jobs.runEach w (units.map ((collector folder writer token).runUnit waiting))).1 := by
  rw [Collector.runUnits_eq] at avoid ⊢
  have given := map_turns store active avoid
  have onShares {α : Type} (g : Share → α) :
      (((collector folder writer token).turns waiting units w).map fun turn =>
          g (.given (filePath folder writer w.ids turn.2.ids.draw.1)
            (turn.1.evaluate w.store waiting)))
        = (shares folder writer w.ids
          (units.map fun unit => unit.evaluate w.store waiting)).map g := by
    rw [← given, List.map_map]
    rfl
  rw [onShares (Share.content? writer), onShares (Share.outcome writer), onShares fun _ => none,
    runEach_memory store active waiting units avoid]
  refine ⟨?_, ?_, rfl⟩
  · rw [Workspace.withCells, MemoryStore.depositAll_none, ← store]
  · rfl

variable (distinct : (w.ids.drawnUntil
    ((collector folder writer token).runUnits units waiting w).2.ids).Nodup)
include distinct

theorem fills_jobs (n : Nat) (turn : SourceUnit × Workspace)
    (h : ((collector folder writer token).turns waiting units w)[n]? = some turn) :
    (job folder writer token (pure turn.2.ids.draw.1) waiting turn.1).Fills
      (w.withCells s (shares folder writer w.ids
        (units.map fun unit => unit.evaluate w.store waiting))) n
      (Share.content? writer
        (.given (filePath folder writer w.ids turn.2.ids.draw.1) (turn.1.evaluate w.store waiting)))
      (Share.outcome writer
        (.given (filePath folder writer w.ids turn.2.ids.draw.1) (turn.1.evaluate w.store waiting)))
      none := by
  rw [Collector.runUnits_eq] at distinct avoid
  have given := map_turns store active avoid
  have final := congrArg (fun ran => Workspace.ids ran.2)
    (runEach_memory store active waiting units avoid)
  dsimp only at final
  rw [final] at distinct avoid
  rw [store] at given distinct avoid ⊢
  refine fills_job (apart_shares distinct) active ?_ ?_
  · rw [← given, List.getElem?_map, h]
    rfl
  · intro share hshare path hpath read hread same
    obtain ⟨id, drawn, rfl⟩ := path_of_mem_shares hshare hpath
    have plain := Ids.isSlash_of_mem_drawnUntil drawn
    have unit : turn.1 ∈ units := by
      rw [← (collector folder writer token).map_fst_turns waiting units w]
      exact List.mem_map_of_mem (List.mem_of_getElem? h)
    refine avoid id drawn turn.1 unit read hread ?_
    rw [same]
    exact (occurs_filePath folder writer w.ids plain).trimSlashes plain

variable {bound : Nat} (hb : 0 < bound)
include hb

theorem runs_jobs_iff (results : List (Except RunError (List WrittenFile))) (w' : Workspace) :
    Pool.Runs bound (jobs folder writer token waiting units w) w results w' ↔
      results = (Jobs.runEach w (units.map ((collector folder writer token).runUnit waiting))).1 ∧
        w' = { w with
          store := ((collector folder writer token).runUnits units waiting w).2.store } := by
  obtain ⟨start, final, outcomes⟩ := cells_jobs store active avoid
  have runs := Pool.runs_iff (fills_jobs store active avoid distinct) hb results w'
  rw [start, final, outcomes] at runs
  exact runs

theorem runs_jobs_on {pool : List (Pool.Slot Workspace RunError (List WrittenFile)) × Workspace}
    (taken : Relation.ReflTransGen (Pool.Step bound)
      ((jobs folder writer token waiting units w).map .waiting, w) pool) :
    Relation.ReflTransGen (Pool.Step bound) pool
      ((Jobs.runEach w
          (units.map ((collector folder writer token).runUnit waiting))).1.map .finished,
        { w with
          store := ((collector folder writer token).runUnits units waiting w).2.store }) := by
  obtain ⟨start, final, outcomes⟩ := cells_jobs store active avoid
  rw [← outcomes, ← final]
  refine Pool.runs_on (fills_jobs store active avoid distinct) hb ?_
  rw [start]
  exact taken

end Apart

/-- Workers that write to a folder in memory may take their steps in any order, and the objects that
they read may be in the folder too. They report the files in the order of the units, or the failure
of the first unit that fails, and they leave the store, that they report and leave one after
another; and wherever they have got to, they can all still end. The steps of a worker that is left
alone do what there is to do for its unit. -/
theorem collects_iff {bound : Nat} (hb : 0 < bound) (store : w.store = .memory s)
    (active : w.tokens.isCancelled token = false)
    (distinct : (w.ids.drawnUntil
      ((collector folder writer token).runUnits units waiting w).2.ids).Nodup)
    (avoid :
      ∀ id ∈ w.ids.drawnUntil ((collector folder writer token).runUnits units waiting w).2.ids,
      ∀ unit ∈ units, unit.Avoids id) :
    (∀ result w', Collects folder writer token waiting units w bound result w' ↔
      result = ((collector folder writer token).runUnits units waiting w).1 ∧
        w' = { w with
          store := ((collector folder writer token).runUnits units waiting w).2.store }) ∧
    (∀ fault, ((collector folder writer token).runUnits units waiting w).1 = .error fault →
      ∃ (earlier : List (List WrittenFile)) (later : List (Except RunError (List WrittenFile))),
        (Jobs.runEach w (units.map ((collector folder writer token).runUnit waiting))).1
          = earlier.map .ok ++ .error fault :: later) ∧
    (∀ pool, Relation.ReflTransGen (Pool.Step bound)
      ((jobs folder writer token waiting units w).map .waiting, w) pool →
      ∃ (results : List (Except RunError (List WrittenFile))) (w' : Workspace),
        Relation.ReflTransGen (Pool.Step bound) pool (results.map .finished, w')) ∧
    ∀ (unit : SourceUnit) (alone : Workspace),
      (job folder writer token Workspace.drawId waiting unit).RunsTo alone
        ((collector folder writer token).runUnit waiting unit alone).1
        ((collector folder writer token).runUnit waiting unit alone).2 := by
  have runs := runs_jobs_iff store active avoid distinct hb
  refine ⟨fun result w' => ⟨?_, ?_⟩, fun fault failed => ?_, fun pool taken => ?_,
    runsTo_job waiting⟩
  · rintro ⟨ran⟩
    obtain ⟨rfl, rfl⟩ := (runs _ _).1 ran
    rw [Collector.runUnits_eq]
    exact ⟨rfl, rfl⟩
  · rintro ⟨rfl, rfl⟩
    have ran := (runs _ _).2 ⟨rfl, rfl⟩
    rw [Collector.runUnits_eq] at ran ⊢
    exact .mk ran
  · rw [Collector.runUnits_eq] at failed
    cases gathered : Jobs.gather
        (Jobs.runEach w (units.map ((collector folder writer token).runUnit waiting))).1 with
    | ok reports =>
      rw [gathered] at failed
      cases failed
    | error e =>
      rw [gathered] at failed
      cases failed
      exact gather_eq_error.1 gathered
  · exact ⟨_, _, runs_jobs_on store active avoid distinct hb taken⟩

theorem collects_iff_refused_row :
    let row (name : String) (i : Int64) : Row := NameMap.empty.insert name (.int i)
    let s : MemoryStore := { objects := .ofList [("out/a", Bytes.ofText "n\n3\n")] }
    let w : Workspace := { store := .memory s, tokens := Tokens.root {} }
    let units : List SourceUnit :=
      [.object "out/a" (.csv {}), .rows [row "n" 1, row "m" 2], .rows [row "n" 5]]
    let c := collector "out" (.csv 44) 0
    let fault : RunError := .data (.codec (.columnOutsideHeader "m"))
    (w.ids.drawnUntil (c.runUnits units [] w).2.ids).Nodup ∧
      (∀ id ∈ w.ids.drawnUntil (c.runUnits units [] w).2.ids, ∀ unit ∈ units, unit.Avoids id) ∧
      ∃ w', Collects "out" (.csv 44) 0 [] units w 2 (.error fault) w' ∧
        ∀ result w'', Collects "out" (.csv 44) 0 [] units w 2 result w'' →
          result = .error fault ∧ w'' = w' := by
  intro row s w units c fault
  have active : w.tokens.isCancelled 0 = false := by decide +kernel
  have read : (SourceUnit.object "out/a" (.csv {})).evaluate w.store [] = .ok [row "n" 3] := by
    decide +kernel
  let w₁ := wrote "out" (.csv 44) w s [row "n" 3]
  let s₁ := s.deposit (filePath "out" (.csv 44) w.ids w.ids.draw.1)
    (RowWriter.content? (.csv 44) [row "n" 3])
  let w₂ := wrote "out" (.csv 44) w₁ s₁ [row "n" 1, row "m" 2]
  let s₂ := s₁.deposit (filePath "out" (.csv 44) w₁.ids w₁.ids.draw.1)
    (RowWriter.content? (.csv 44) [row "n" 1, row "m" 2])
  have first : c.runUnit [] (.object "out/a" (.csv {})) w = (_, w₁) := runUnit_wrote rfl active read
  have second : c.runUnit [] (.rows [row "n" 1, row "m" 2]) w₁ = (_, w₂) :=
    runUnit_wrote (w := w₁) (s := s₁) rfl active rfl
  have third : c.runUnit [] (.rows [row "n" 5]) w₂ = _ :=
    runUnit_wrote (w := w₂) (s := s₂) rfl active rfl
  have accepted (path : String) : outcome (.csv 44) path [row "n" 3] = .ok [⟨path, 1⟩] := by
    have fed : ((RowWriter.csv 44).encoder.feed [row "n" 3]).2 = .ok () := by decide +kernel
    rw [outcome, if_neg (by decide), fed]
    rfl
  have refused (path : String) : outcome (.csv 44) path [row "n" 1, row "m" 2] = .error fault := by
    have fed : ((RowWriter.csv 44).encoder.feed [row "n" 1, row "m" 2]).2
        = .error (.codec (.columnOutsideHeader "m")) := by
      decide +kernel
    rw [outcome, if_neg (by decide), fed]
    rfl
  have each : Jobs.runEach w (units.map (c.runUnit []))
      = ([.ok [⟨filePath "out" (.csv 44) w.ids w.ids.draw.1, 1⟩], .error fault,
          outcome (.csv 44) (filePath "out" (.csv 44) w₂.ids w₂.ids.draw.1) [row "n" 5]],
          wrote "out" (.csv 44) w₂ s₂ [row "n" 5]) := by
    rw [List.map_cons, runEach_cons, first]
    dsimp only
    rw [List.map_cons, runEach_cons, second]
    dsimp only
    rw [List.map_cons, runEach_cons, third, accepted, refused]
    rfl
  have ids : (c.runUnits units [] w).2.ids = w.ids.after 3 := by
    rw [Collector.runUnits_eq, each]
    rfl
  have failed : (c.runUnits units [] w).1 = .error fault := by
    rw [Collector.runUnits_eq, each]
    rfl
  have drawn : w.ids.drawnUntil (w.ids.after 3) = [Ids.text 1, Ids.text 2, Ids.text 3] := by decide
  have distinct : (w.ids.drawnUntil (c.runUnits units [] w).2.ids).Nodup := by
    rw [ids, drawn]
    decide
  have avoid : ∀ id ∈ w.ids.drawnUntil (c.runUnits units [] w).2.ids,
      ∀ unit ∈ units, unit.Avoids id := by
    have paths : ∀ unit ∈ units, ∀ path ∈ unit.path?, path = "out/a" := by
      simp [units, SourceUnit.path?]
    rw [ids, drawn]
    intro id hid unit hunit path hpath
    rw [paths unit hunit path hpath]
    revert id
    decide
  have workers : 0 < 2 := by decide
  obtain ⟨collects, -⟩ := collects_iff workers rfl active distinct avoid
  rw [failed] at collects
  exact ⟨distinct, avoid, _, (collects _ _).2 ⟨rfl, rfl⟩,
    fun result w'' ran => (collects _ _).1 ran⟩

end RowQuery.PartWriter
