import RowQuery.Proofs.Store.Directories
import RowQuery.Proofs.Store.Names

/-!
Writing a file: what a writer has taken is in the file or still in its buffer, and no other file
changes.
-/

namespace RowQuery.FileTree

variable {t : FileTree} {w : Writer}

theorem below_names (path : String) : Below (names path) := by
  rintro name hname rfl
  obtain ⟨piece, hpiece, same⟩ := List.mem_map.1 hname
  have slash : '/' ∈ piece := by
    rw [← String.toList_ofList (l := piece), same]
    decide
  cases Path.isSlash_of_mem_splitSlashes hpiece slash

theorem lastName_ne_root (path : String) : Path.lastName path ≠ "/" := by
  rw [Path.lastName, List.getLastD_eq_getLast?]
  cases last : (names path).getLast? with
  | none => decide
  | some name => exact below_names path name (List.mem_of_getLast? last)

theorem overwriteAt_end (content more : Bytes) :
    overwriteAt content content.length more = content ++ more := by
  simp [overwriteAt]

theorem kindAt_parent {parent : List String} {name : String} {content : Bytes}
    (stands : t.kindAt (parent ++ [name]) = some (.file content)) :
    t.kindAt parent = some .directory := by
  apply Classical.byContradiction
  intro nowhere
  rw [kindAt_below nowhere name []] at stands
  cases stands

theorem writeThrough_end {parent : List String} {name : String} (place : w.place = parent ++ [name])
    {content : Bytes} (stands : t.kindAt w.place = some (.file content))
    (offset : w.offset = content.length) (more : Bytes) :
    ∃ t', t.writeThrough w more = (t', { w with offset := w.offset + more.length }) ∧
      t'.kindAt w.place = some (.file (content ++ more)) ∧ ChangesAt w.place t t' := by
  cases more with
  | nil =>
    rw [List.append_nil]
    exact ⟨t, rfl, stands, .refl (by simp [stands])⟩
  | cons b more =>
    have found : t.node? w.place = some (.file content) := kindAt_file.1 stands
    refine ⟨t.set w.place (.file (content ++ b :: more)), ?_, ?_⟩
    · rw [writeThrough.eq_2 t w (b :: more) content (by simp) found, offset, overwriteAt_end]
    · rw [place] at stands ⊢
      have free : t.kindAt (parent ++ [name]) ≠ some .directory := by simp [stands]
      rw [kindAt_set (FileNode.kindAt_file _) (kindAt_parent stands) free, if_pos rfl]
      exact ⟨rfl, changesAt_set (FileNode.kindAt_file _) (kindAt_parent stands) free⟩

/-- A writer on the file at a place, and its tree: what it has taken is in the file or in its
buffer, and no other file has changed since some earlier tree. -/
structure Holding (before : FileTree) (place : List String) (taken : Bytes)
    (s : FileTree × Writer) : Prop where
  at_place : s.2.place = place
  stands : ∃ content, s.1.kindAt place = some (.file content) ∧ s.2.offset = content.length ∧
    content ++ s.2.buffer = taken
  changes : ChangesAt place before s.1

namespace Holding

variable {before : FileTree} {parent : List String} {name : String} {taken : Bytes}

theorem flush (h : Holding before (parent ++ [name]) taken (t, w)) :
    Holding before (parent ++ [name]) taken (t.flush w) ∧ (t.flush w).2.buffer = [] := by
  obtain ⟨place, ⟨content, stands, offset, rfl⟩, changes⟩ := h
  dsimp only at place stands offset changes
  rw [← place] at stands
  obtain ⟨t', written, stands', changes'⟩ := writeThrough_end place stands offset w.buffer
  rw [FileTree.flush, written]
  rw [place] at stands' changes'
  refine ⟨⟨place, ⟨content ++ w.buffer, stands', ?_, ?_⟩, changes.trans changes'⟩, rfl⟩
  · simp [offset]
  · simp

theorem writeThrough (h : Holding before (parent ++ [name]) taken (t, w)) (empty : w.buffer = [])
    (more : Bytes) : Holding before (parent ++ [name]) (taken ++ more) (t.writeThrough w more) := by
  obtain ⟨place, ⟨content, stands, offset, rfl⟩, changes⟩ := h
  dsimp only at place stands offset changes
  rw [← place] at stands
  obtain ⟨t', written, stands', changes'⟩ := writeThrough_end place stands offset more
  rw [written]
  rw [place] at stands' changes'
  refine ⟨place, ⟨content ++ more, stands', ?_, ?_⟩, changes.trans changes'⟩
  · simp [offset]
  · simp [empty]

theorem write (h : Holding before (parent ++ [name]) taken (t, w)) (more : Bytes) :
    Holding before (parent ++ [name]) (taken ++ more) (t.write w more) := by
  have room : ∃ t₁ w₁,
    (if Writer.capacity < w.buffer.length + more.length then t.flush w else (t, w)) = (t₁, w₁) ∧
      Holding before (parent ++ [name]) taken (t₁, w₁) ∧
      (Writer.capacity ≤ more.length → w₁.buffer = []) := by
    split
    · obtain ⟨flushed, empty⟩ := h.flush
      exact ⟨_, _, rfl, flushed, fun _ => empty⟩
    · refine ⟨t, w, rfl, h, fun full => ?_⟩
      rw [← List.length_eq_zero_iff]
      omega
  obtain ⟨t₁, w₁, step, held, room⟩ := room
  rw [FileTree.write, step]
  dsimp only
  split
  · next full => exact held.writeThrough (room full) more
  · obtain ⟨place, ⟨content, stands, offset, taken⟩, changes⟩ := held
    refine ⟨place, ⟨content, stands, offset, ?_⟩, changes⟩
    rw [← taken, List.append_assoc]

end Holding

/-- Where a path leads to a file, and how: through a directory, and then under its last name. -/
structure LeadsTo (t : FileTree) (path : String) (parent : List String) : Prop where
  possible : isImpossible (names path) = false
  proper : IsEntryName (Path.lastName path)
  short : ¬ longestName < (Path.lastName path).utf8ByteSize
  around : t.walkAt t.root.place (names path).dropLast = .directory parent

theorem dropLast_append_lastName {path : String} (named : Path.lastName path ≠ "") :
    (names path).dropLast ++ [Path.lastName path] = names path := by
  have some_name : names path ≠ [] := by
    intro none
    rw [Path.lastName, none] at named
    exact named rfl
  rw [Path.lastName, List.getLastD_eq_getLast?, List.getLast?_eq_some_getLast some_name,
    Option.getD_some]
  exact List.dropLast_concat_getLast some_name

namespace LeadsTo

variable {path : String} {parent : List String} {content : Bytes}

theorem keep {q : List String} {t' : FileTree} (h : t.LeadsTo path parent)
    (kept : KeepsBut q t t') :
    t'.LeadsTo path parent where
  possible := h.possible
  proper := h.proper
  short := h.short
  around := by
    have stays : (t.walkAt t.root.place (names path).dropLast).Stays q := by
      rw [h.around]
      exact .directory parent
    rw [kept.root, kept.walkAt_eq stays, h.around]

theorem read (h : t.LeadsTo path parent)
    (stands : t.kindAt (parent ++ [Path.lastName path]) = some (.file content)) :
    t.read path = .ok content := by
  rw [read_eq_ok, ← dropLast_append_lastName h.proper.1, walkAt_append h.around,
    walkAt_name t parent h.proper, if_neg h.short, stands, dropLast_append_lastName h.proper.1]
  exact ⟨h.possible, _, rfl⟩

end LeadsTo

structure Takes (t : FileTree) (path : String) (parent : List String) :
    Prop extends LeadsTo t path parent where
  free : t.kindAt (parent ++ [Path.lastName path]) ≠ some .directory

namespace Takes

variable {path : String} {parent : List String}

theorem walk_parent (h : t.LeadsTo path parent) :
    ∃ s, t.walk (names path).dropLast = .directory s ∧ s.place = parent :=
  walk_eq_directory.2 ⟨isImpossible_of_sublist (List.dropLast_sublist _) h.possible, h.around⟩

theorem opened (h : t.Takes path parent) :
    Holding t (parent ++ [Path.lastName path]) []
      (t.set (parent ++ [Path.lastName path]) (.file []),
      { place := parent ++ [Path.lastName path] }) := by
  obtain ⟨s, walk, rfl⟩ := walk_parent h.toLeadsTo
  have found := s.kindAt_place (walk_in walk)
  refine ⟨rfl, ⟨[], ?_, rfl, rfl⟩, changesAt_set (FileNode.kindAt_file []) found h.free⟩
  rw [kindAt_set (FileNode.kindAt_file _) found h.free, if_pos rfl]
  rfl

theorem congr {t' : FileTree} {name : String} (below : name ≠ "/")
    (different : Path.lastName path ≠ name) (changes : ChangesAt (parent ++ [name]) t t')
    (around : t.walkAt t.root.place (names path).dropLast = .directory parent) :
    t'.Takes path parent ↔ t.Takes path parent := by
  have kept := changes.keepsBut below
  have apart : parent ++ [Path.lastName path] ≠ parent ++ [name] := fun same =>
    different (List.singleton_inj.1 (List.append_cancel_left same))
  have free := changes.same apart
  constructor
  · intro h
    exact ⟨⟨h.possible, h.proper, h.short, around⟩, free ▸ h.free⟩
  · intro h
    exact ⟨h.toLeadsTo.keep kept, free ▸ h.free⟩

end Takes

/-- After the directories on the way to it, opening a writer makes an empty file exactly where one
can be put. -/
theorem openWriter_cases {path : String} {made : FileTree} {there : Bool}
    (h : t.makeDirectories (steps (names path)).dropLast = (made, there)) :
    (∃ parent, there = true ∧ made.Takes path parent ∧
      t.openWriter path = (made.set (parent ++ [Path.lastName path]) (.file []),
        .ok { place := parent ++ [Path.lastName path] })) ∨
    ((there = true → ∀ parent, ¬ made.Takes path parent) ∧
      t.openWriter path = (made, .error .store)) := by
  rw [openWriter, h]
  cases there with
  | false => exact .inr ⟨nofun, rfl⟩
  | true =>
    dsimp only
    split
    · next bad =>
      refine .inr ⟨fun _ parent takes => ?_, rfl⟩
      simp only [Bool.or_eq_true, beq_iff_eq, decide_eq_true_eq] at bad
      obtain ⟨notEmpty, notPoint, notPoints⟩ := takes.proper
      rcases bad with (((impossible | empty) | point) | points) | long
      · rw [takes.possible] at impossible
        cases impossible
      · exact notEmpty empty
      · exact notPoint point
      · exact notPoints points
      · exact takes.short long
    · next fine =>
      simp only [Bool.or_eq_true, not_or, beq_iff_eq, decide_eq_true_eq] at fine
      obtain ⟨⟨⟨⟨possible, notEmpty⟩, notPoint⟩, notPoints⟩, short⟩ := fine
      have elsewhere (other : ∀ s, made.walk (names path).dropLast ≠ .directory s)
        (parent : List String) :
          ¬ made.Takes path parent := by
        intro takes
        obtain ⟨s, walk, -⟩ := Takes.walk_parent takes.toLeadsTo
        exact other s walk
      cases hw : made.walk (names path).dropLast with
      | directory s =>
        obtain ⟨-, around⟩ := walk_eq_directory.1 ⟨s, hw, rfl⟩
        have leads : made.LeadsTo path s.place :=
          ⟨Bool.eq_false_iff.2 possible, ⟨notEmpty, notPoint, notPoints⟩, short, around⟩
        have there := s.kindAt_placeOf (walk_in hw) (Path.lastName path)
        dsimp only
        cases hl : s.entries.lookup ((names path).getLastD "") with
        | none =>
          have free : made.kindAt (s.place ++ [Path.lastName path]) = none := by
            rw [there, Path.lastName, hl]; rfl
          exact .inl ⟨s.place, rfl, ⟨leads, by simp [free]⟩, rfl⟩
        | some node =>
          have stands : made.kindAt (s.place ++ [Path.lastName path]) = some node.kind := by
            rw [there, Path.lastName, hl]
            rfl
          cases node with
          | file content => exact .inl ⟨s.place, rfl, ⟨leads, by simp [stands, FileNode.kind]⟩, rfl⟩
          | directory inner =>
            refine .inr ⟨fun _ parent takes => ?_, rfl⟩
            have same := takes.around.symm.trans around
            cases same
            exact takes.free stands
      | file place content => exact .inr ⟨fun _ => elsewhere (by simp [hw]), rfl⟩
      | missing => exact .inr ⟨fun _ => elsewhere (by simp [hw]), rfl⟩
      | refused => exact .inr ⟨fun _ => elsewhere (by simp [hw]), rfl⟩

theorem makeDirectories_steps {path : String} (proper : IsEntryName (Path.lastName path))
    (there : t.isDirectory (names path).dropLast = true) :
    t.makeDirectories (steps (names path)).dropLast = (t, true) := by
  have kept : steps [Path.lastName path] = [Path.lastName path] :=
    List.filter_eq_self.2 (by simpa using ⟨proper.1, proper.2.1⟩)
  have split : (steps (names path)).dropLast = steps (names path).dropLast := by
    conv => lhs; rw [← dropLast_append_lastName proper.1]
    rw [steps, List.filter_append, ← steps, ← steps, kept, List.dropLast_concat]
  rw [split, makeDirectories_of_isDirectory (isDirectory_steps there)]

end RowQuery.FileTree
