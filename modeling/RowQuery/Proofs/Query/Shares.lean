import RowQuery.Proofs.Pipeline.Reads
import RowQuery.Proofs.Query.Spared

/-!
The shares of the workers that write to a folder in memory: each has the rows of its unit, and the
next identifier if it has any. Where the paths of the files are new, the files that are written
first are not seen by the later workers.
-/

namespace RowQuery

/-- A unit that does not read an object with an identifier in its path. -/
def SourceUnit.Avoids (id : String) (unit : SourceUnit) : Prop :=
  ∀ path ∈ unit.path?, ¬ Path.Occurs id (Path.trimSlashes path)

theorem SourceUnit.evaluate_deposit {id path : String}
    (plain : ∀ c ∈ id.toList, Path.isSlash c = false) (occurs : Path.Occurs id path)
    {unit : SourceUnit} (avoids : unit.Avoids id) (s : MemoryStore) (content? : Option Bytes)
    (waiting : List Stage) :
    unit.evaluate (.memory (s.deposit path content?)) waiting
      = unit.evaluate (.memory s) waiting := by
  apply unit.evaluate_congr
  intro read hread
  have apart : Path.trimSlashes read ≠ Path.trimSlashes path := by
    intro same
    exact avoids read hread (same ▸ occurs.trimSlashes plain)
  change (s.deposit path content?).read read = s.read read
  rw [MemoryStore.read, MemoryStore.read, s.bytes?_deposit path apart]

/-- What falls to a worker: rows and a path for them, if the rows can be computed. -/
inductive Share
  | failed (fault : RunError) : Share
  | assigned (path : String) (rows : List Row) : Share

namespace Share

def given (path : String) : Except RunError (List Row) → Share
  | .error fault => failed fault
  | .ok rows => assigned path rows

def path? : Share → Option String
  | failed _ => none
  | assigned path _ => some path

def Apart (a b : Share) : Prop :=
  ∀ path ∈ a.path?, ∀ path' ∈ b.path?, Path.trimSlashes path ≠ Path.trimSlashes path'

variable (writer : RowWriter)

def outcome : Share → Except RunError (List WrittenFile)
  | failed fault => .error fault
  | assigned path rows => PartWriter.outcome writer path rows

def content? : Share → Option Bytes
  | failed _ => none
  | assigned _ rows => writer.content? rows

end Share

def MemoryStore.depositAll : MemoryStore → List Share → List (Option Bytes) → MemoryStore
  | s, [], _ => s
  | s, _ :: _, [] => s
  | s, .failed _ :: shares, _ :: contents => depositAll s shares contents
  | s, .assigned path _ :: shares,
      content? :: contents => depositAll (s.deposit path content?) shares contents

namespace PartWriter

def fileName (writer : RowWriter) (ids : Ids) (id : String) : String :=
  s!"Part-{ids.processText}-{id}.{writer.extension}"

theorem isSlash_of_mem_fileName (writer : RowWriter) (ids : Ids) {id : String}
    (plain : ∀ c ∈ id.toList, Path.isSlash c = false) :
    ∀ c ∈ (fileName writer ids id).toList, Path.isSlash c = false := by
  have front : ∀ c ∈ "Part-".toList, Path.isSlash c = false := by simp [Path.isSlash]
  have process : ∀ c ∈ ids.processText.toList, Path.isSlash c = false := Ids.isSlash_of_mem_text
  have ending : ∀ c ∈ writer.extension.toList, Path.isSlash c = false := by
    cases writer <;> simp [RowWriter.extension, Path.isSlash]
  have hyphen : ∀ c ∈ "-".toList, Path.isSlash c = false := by simp [Path.isSlash]
  have point : ∀ c ∈ ".".toList, Path.isSlash c = false := by simp [Path.isSlash]
  simp only [fileName, toString, String.toList_append, List.forall_mem_append]
  exact ⟨⟨⟨⟨⟨front, process⟩, hyphen⟩, plain⟩, point⟩, ending⟩

theorem lastName_filePath (folder : String) (writer : RowWriter) (ids : Ids) {id : String}
    (plain : ∀ c ∈ id.toList, Path.isSlash c = false) :
    Path.lastName (filePath folder writer ids id) = fileName writer ids id :=
  Path.lastName_combine (isSlash_of_mem_fileName writer ids plain) folder

theorem lastName_filePath_ne_empty (folder : String) (writer : RowWriter) (ids : Ids) {id : String}
    (plain : ∀ c ∈ id.toList, Path.isSlash c = false) :
    Path.lastName (filePath folder writer ids id) ≠ "" := by
  rw [lastName_filePath folder writer ids plain]
  intro empty
  have chars := congrArg String.toList empty
  simp [fileName, toString] at chars

/-- The name of a file has its parts, since all processes have identifiers of one length and no
extension ends another. -/
theorem fileName_injective {writer writer' : RowWriter} {ids ids' : Ids} {id id' : String}
    (same : fileName writer ids id = fileName writer' ids' id') :
    ids.processText = ids'.processText ∧ id = id' ∧ writer.extension = writer'.extension := by
  have length : ids.processText.toList.length = ids'.processText.toList.length := by
    rw [Ids.processText, Ids.processText, Ids.length_text, Ids.length_text]
  have chars := congrArg String.toList same
  simp only [fileName, toString, String.toList_append, List.append_assoc,
    List.append_cancel_left_eq] at chars
  obtain ⟨process, chars⟩ := List.append_inj chars length
  have rest := List.append_cancel_left chars
  have extension : writer.extension = writer'.extension := by
    have last := congrArg List.getLast? rest
    cases writer with
    | csv => cases writer' with
      | csv => rfl
      | jsonl => simp [RowWriter.extension] at last
    | jsonl => cases writer' with
      | csv => simp [RowWriter.extension] at last
      | jsonl => rfl
  rw [extension] at rest
  exact ⟨String.toList_inj.1 process,
    String.toList_inj.1 (List.append_cancel_right rest), extension⟩

theorem filePath_injective {folder : String} {writer writer' : RowWriter} {ids ids' : Ids}
    {id id' : String} (plain : ∀ c ∈ id.toList, Path.isSlash c = false)
    (plain' : ∀ c ∈ id'.toList, Path.isSlash c = false)
    (same : Path.trimSlashes (filePath folder writer ids id) = Path.trimSlashes
      (filePath folder writer' ids' id')) :
    ids.processText = ids'.processText ∧ id = id' ∧ writer.extension = writer'.extension := by
  have names := Path.lastName_congr (lastName_filePath_ne_empty folder writer ids plain)
    (lastName_filePath_ne_empty folder writer' ids' plain') same
  rw [lastName_filePath folder writer ids plain,
    lastName_filePath folder writer' ids' plain'] at names
  exact fileName_injective names

variable (folder : String) (writer : RowWriter)

/-- The shares of workers that run one after another. Only one that has rows draws an identifier. -/
def shares : Ids → List (Except RunError (List Row)) → List Share
  | _, [] => []
  | ids, .error e :: rest => .failed e :: shares ids rest
  | ids, .ok rows :: rest =>
    .assigned (filePath folder writer ids ids.draw.1) rows :: shares ids.draw.2 rest

def drawnFor : Ids → List (Except RunError (List Row)) → Ids
  | ids, [] => ids
  | ids, .error _ :: rest => drawnFor ids rest
  | ids, .ok _ :: rest => drawnFor ids.draw.2 rest

theorem before_drawnFor (ids : Ids) (found : List (Except RunError (List Row))) :
    ids.Before (drawnFor ids found) := by
  induction found generalizing ids with
  | nil => exact .refl ids
  | cons result found ih =>
    cases result with
    | error fault => exact ih ids
    | ok rows => exact ids.before_draw.trans (ih ids.draw.2)

theorem before_runEach (token : Nat) (waiting : List Stage) (units : List SourceUnit)
    {w : Workspace} {s : MemoryStore} (store : w.store = .memory s) :
    w.ids.Before (Jobs.runEach w
      (units.map ((collector folder writer token).runUnit waiting))).2.ids := by
  have spares :
      w.Spares (Jobs.runEach w (units.map ((collector folder writer token).runUnit waiting))).2 :=
    runEach_induction (P := fun w' => w.Spares w')
      (List.forall_mem_map.2
        fun unit _ _ spares => spares.trans (spares_runUnit folder writer token waiting unit _))
      (.of_eq rfl rfl)
  exact (spares s store).1

variable {folder writer} {token : Nat}

theorem path_of_mem_shares {ids : Ids} {found : List (Except RunError (List Row))} {share : Share}
    (h : share ∈ shares folder writer ids found) {path : String} (hpath : path ∈ share.path?) :
    ∃ id ∈ ids.drawnUntil (drawnFor ids found), path = filePath folder writer ids id := by
  induction found generalizing ids with
  | nil => cases h
  | cons result found ih =>
    cases result with
    | error fault =>
      rcases List.mem_cons.1 h with rfl | h
      · cases hpath
      · exact ih h
    | ok rows =>
      rw [drawnFor, Ids.drawnUntil_append ids.before_draw (before_drawnFor _ _),
        Ids.drawnUntil_draw]
      rcases List.mem_cons.1 h with rfl | h
      · have same : filePath folder writer ids ids.draw.1 = path := Option.some.inj hpath
        exact ⟨ids.draw.1, List.mem_append_left _ (List.mem_singleton_self _), same.symm⟩
      · obtain ⟨id, drawn, same⟩ := ih h
        exact ⟨id, List.mem_append_right _ drawn, same⟩

theorem apart_shares {ids : Ids} {found : List (Except RunError (List Row))}
    (distinct : (ids.drawnUntil (drawnFor ids found)).Nodup) :
    (shares folder writer ids found).Pairwise Share.Apart := by
  induction found generalizing ids with
  | nil => exact .nil
  | cons result found ih =>
    cases result with
    | error fault => exact .cons (fun _ _ _ hpath => nomatch hpath) (ih distinct)
    | ok rows =>
      rw [drawnFor, Ids.drawnUntil_append ids.before_draw (before_drawnFor _ _),
        Ids.drawnUntil_draw] at distinct
      obtain ⟨first, later⟩ := List.nodup_cons.1 distinct
      refine .cons (fun other hother path hpath path' hpath' same => ?_) (ih later)
      have own : filePath folder writer ids ids.draw.1 = path := Option.some.inj hpath
      obtain ⟨id, drawn, theirs⟩ := path_of_mem_shares hother hpath'
      rw [← own, theirs] at same
      obtain ⟨-, equal, -⟩ :=
        filePath_injective Ids.isSlash_of_mem_text (Ids.isSlash_of_mem_drawnUntil drawn) same
      rw [← equal] at drawn
      exact first drawn

def wrote (folder : String) (writer : RowWriter) (w : Workspace) (s : MemoryStore)
    (rows : List Row) : Workspace :=
  { w with
    ids := w.ids.draw.2
    store := .memory
      (s.deposit (filePath folder writer w.ids w.ids.draw.1) (writer.content? rows)) }

theorem runUnit_wrote {w : Workspace} {s : MemoryStore} (store : w.store = .memory s)
    (active : w.tokens.isCancelled token = false) {waiting : List Stage} {unit : SourceUnit}
    {rows : List Row} (evaluated : unit.evaluate w.store waiting = .ok rows) :
    (collector folder writer token).runUnit waiting unit w
      = (outcome writer (filePath folder writer w.ids w.ids.draw.1) rows,
        wrote folder writer w s rows) := by
  rw [runUnit_memory store active, evaluated]
  rfl

/-- Workers one after another: one that fails leaves everything as it is, and what one writes is not
read by the later ones. -/
@[elab_as_elim] theorem workers_induction {waiting : List Stage}
    {P : Workspace → MemoryStore → List SourceUnit → Prop}
    (nil : ∀ w s, w.store = .memory s → P w s [])
    (failed : ∀ w s unit units fault, w.store = .memory s →
      unit.evaluate w.store waiting = .error fault →
      (collector folder writer token).runUnit waiting unit w = (.error fault, w) → P w s units →
      P w s (unit :: units))
    (succeeded : ∀ w s unit units rows, w.store = .memory s →
      unit.evaluate w.store waiting = .ok rows →
      (collector folder writer token).runUnit waiting unit w
        = (outcome writer (filePath folder writer w.ids w.ids.draw.1) rows,
          wrote folder writer w s rows) →
      (∀ other ∈ units, other.evaluate (wrote folder writer w s rows).store waiting
        = other.evaluate w.store waiting) →
      P (wrote folder writer w s rows)
        (s.deposit (filePath folder writer w.ids w.ids.draw.1) (writer.content? rows)) units →
      P w s (unit :: units))
    {units : List SourceUnit} {w : Workspace} {s : MemoryStore} (store : w.store = .memory s)
    (active : w.tokens.isCancelled token = false)
    (avoid : ∀ id ∈ w.ids.drawnUntil
        (Jobs.runEach w (units.map ((collector folder writer token).runUnit waiting))).2.ids,
      ∀ unit ∈ units, unit.Avoids id) : P w s units := by
  induction units generalizing w s with
  | nil => exact nil w s store
  | cons unit units ih =>
    rw [List.map_cons, runEach_cons] at avoid
    cases he : unit.evaluate w.store waiting with
    | error fault =>
      have ran : (collector folder writer token).runUnit waiting unit w = (.error fault, w) := by
        rw [runUnit_memory store active, he]
      rw [ran] at avoid
      refine failed w s unit units fault store he ran (ih store active ?_)
      exact fun id drawn other hother => avoid id drawn other (List.mem_cons_of_mem _ hother)
    | ok rows =>
      have ran : (collector folder writer token).runUnit waiting unit w = _ :=
        runUnit_wrote store active he
      rw [ran] at avoid
      change ∀ id ∈ w.ids.drawnUntil (Jobs.runEach (wrote folder writer w s rows) _).2.ids,
        _ at avoid
      have before := before_runEach folder writer token waiting units
        (w := wrote folder writer w s rows) rfl
      rw [Ids.drawnUntil_append w.ids.before_draw before, Ids.drawnUntil_draw,
        List.forall_mem_append, List.forall_mem_singleton] at avoid
      obtain ⟨avoidFirst, avoidLater⟩ := avoid
      refine succeeded w s unit units rows store he ran (fun other hother => ?_) (ih rfl active ?_)
      · rw [store]
        exact other.evaluate_deposit Ids.isSlash_of_mem_text
          (occurs_filePath folder writer w.ids Ids.isSlash_of_mem_text)
          (avoidFirst other (List.mem_cons_of_mem _ hother)) s _ waiting
      · exact fun id drawn other hother => avoidLater id drawn other (List.mem_cons_of_mem _ hother)

theorem runEach_memory {w : Workspace} {s : MemoryStore} (store : w.store = .memory s)
    (active : w.tokens.isCancelled token = false) (waiting : List Stage) (units : List SourceUnit)
    (avoid : ∀ id ∈ w.ids.drawnUntil
        (Jobs.runEach w (units.map ((collector folder writer token).runUnit waiting))).2.ids,
      ∀ unit ∈ units, unit.Avoids id) :
    Jobs.runEach w (units.map ((collector folder writer token).runUnit waiting))
      = ((shares folder writer w.ids (units.map fun unit => unit.evaluate w.store waiting)).map
        (Share.outcome writer),
          { w with
            ids := drawnFor w.ids (units.map fun unit => unit.evaluate w.store waiting)
            store :=
              .memory (s.depositAll
                (shares folder writer w.ids (units.map fun unit => unit.evaluate w.store waiting))
                ((shares folder writer w.ids
                  (units.map fun unit => unit.evaluate w.store waiting)).map
                  (Share.content? writer))) }) := by
  refine workers_induction ?_ ?_ ?_ store active avoid
  · intro w s store
    change ([], w) = ([], { w with store := .memory s })
    rw [← store]
  · intro w s unit units fault store he ran ih
    rw [List.map_cons, runEach_cons, List.map_cons, he, ran]
    dsimp only
    rw [ih]
    rfl
  · intro w s unit units rows store he ran same ih
    rw [List.map_cons, runEach_cons, List.map_cons, he, ran]
    dsimp only
    rw [ih, List.map_congr_left same]
    rfl

end PartWriter

end RowQuery
