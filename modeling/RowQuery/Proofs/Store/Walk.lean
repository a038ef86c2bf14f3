import Mathlib.Algebra.Order.BigOperators.Group.List
import Mathlib.Algebra.Order.Ring.Nat
import RowQuery.Proofs.Store.Places

/-!
Walks along paths, seen as walks from place to place. They depend only on what stands at the places.
-/

namespace RowQuery.FileTree

inductive Spot
  | directory : List String → Spot
  | file : List String → Bytes → Spot
  | missing : Spot
  | refused : Spot

def Reached.spot : Reached → Spot
  | file place content => .file place content
  | directory s => .directory s.place
  | missing => .missing
  | refused => .refused

def walkAt (t : FileTree) (place : List String) : List String → Spot
  | [] => .directory place
  | "" :: rest => t.walkAt place rest
  | "." :: rest => t.walkAt place rest
  | ".." :: rest => t.walkAt place.dropLast rest
  | name :: rest =>
    if longestName < name.utf8ByteSize then .refused
    else match t.kindAt (place ++ [name]), rest with
      | some .directory, rest => t.walkAt (place ++ [name]) rest
      | some (.file content), [] => .file (place ++ [name]) content
      | some (.file _), _ => .refused
      | none, _ => .missing

def IsEntryName (name : String) : Prop := name ≠ "" ∧ name ≠ "." ∧ name ≠ ".."

theorem walkAt_name (t : FileTree) (place : List String) {name : String} (proper : IsEntryName name)
    (rest : List String) :
    t.walkAt place (name :: rest) = if longestName < name.utf8ByteSize then .refused
      else match t.kindAt (place ++ [name]), rest with
        | some .directory, rest => t.walkAt (place ++ [name]) rest
        | some (.file content), [] => .file (place ++ [name]) content
        | some (.file _), _ => .refused
        | none, _ => .missing := by
  obtain ⟨notEmpty, notPoint, notPoints⟩ := proper
  rw [walkAt.eq_def]
  split
  · next same => cases same
  · next same => cases same; exact absurd rfl notEmpty
  · next same => cases same; exact absurd rfl notPoint
  · next same => cases same; exact absurd rfl notPoints
  · next same => cases same; rfl

namespace Standing

/-- The directories around are those of the tree. -/
def StandsIn (top : FileEntries) : FileEntries → List (String × FileEntries) → Prop
  | entries, [] => entries = top
  | entries, (name, around) :: outer =>
    around.lookup name = some (.directory entries) ∧ StandsIn top around outer

def In (s : Standing) (t : FileTree) : Prop := StandsIn t.top s.entries s.outer

variable {t : FileTree} {s : Standing}

theorem node?_place (h : s.In t) : t.node? s.place = some (.directory s.entries) := by
  obtain ⟨entries, outer⟩ := s
  change StandsIn t.top entries outer at h
  induction outer generalizing entries with
  | nil =>
    cases h
    rfl
  | cons around outer ih =>
    obtain ⟨name, around⟩ := around
    obtain ⟨found, h⟩ := h
    have outside := ih around h
    rw [place, List.map_cons, List.reverse_cons, node?, go_append]
    rw [place, node?] at outside
    rw [outside]
    change ((around.lookup name).bind fun node => node?.go node []) = _
    rw [found]
    rfl

theorem kindAt_placeOf (h : s.In t) (name : String) :
    t.kindAt (s.place ++ [name]) = (s.entries.lookup name).map FileNode.kind := by
  have here := node?_place h
  rw [node?] at here
  rw [kindAt_eq, node?, go_append, here]
  change Option.map _ ((s.entries.lookup name).bind fun node => node?.go node []) = _
  cases s.entries.lookup name with
  | none => rfl
  | some node => cases node <;> rfl

theorem kindAt_place (h : s.In t) : t.kindAt s.place = some .directory :=
  kindAt_directory.2 ⟨s.entries, node?_place h⟩

end Standing

theorem walkFrom_spot {t : FileTree} {s : Standing} (h : s.In t) (path : List String) :
    (walkFrom s path).spot = t.walkAt s.place path ∧
    ∀ s', walkFrom s path = .directory s' → s'.In t := by
  fun_induction walkFrom s path with
  | case1 s =>
    refine ⟨rfl, ?_⟩
    rintro s' ⟨⟩
    exact h
  | case2 s rest ih => exact ih h
  | case3 s rest ih => exact ih h
  | case4 s rest outside ih =>
    have outside' : s.place = [] := by rw [Standing.place, outside]; rfl
    obtain ⟨spot, inside⟩ := ih h
    refine ⟨?_, inside⟩
    rw [walkAt, outside']
    rw [outside'] at spot
    exact spot
  | case5 s rest name around outer outside ih =>
    obtain ⟨entries, _⟩ := s
    cases outside
    have outside' : Standing.place ⟨around, outer⟩
        = (Standing.place ⟨entries, (name, around) :: outer⟩).dropLast := by
      simp [Standing.place]
    rw [walkAt, ← outside']
    exact ih h.2
  | case6 s name rest notEmpty notPoint notPoints long =>
    rw [walkAt_name t s.place ⟨notEmpty, notPoint, notPoints⟩, if_pos long]
    exact ⟨rfl, nofun⟩
  | case7 s name notEmpty notPoint notPoints short inner rest found ih =>
    rw [walkAt_name t s.place ⟨notEmpty, notPoint, notPoints⟩, if_neg short,
      Standing.kindAt_placeOf h, found]
    have inside : Standing.place ⟨inner, (name, s.entries) :: s.outer⟩ = s.place ++ [name] := by
      simp [Standing.place]
    have walk := ih ⟨found, h⟩
    rw [inside] at walk
    exact walk
  | case8 s name notEmpty notPoint notPoints short content found =>
    rw [walkAt_name t s.place ⟨notEmpty, notPoint, notPoints⟩, if_neg short,
      Standing.kindAt_placeOf h, found]
    exact ⟨rfl, nofun⟩
  | case9 s name rest notEmpty notPoint notPoints short content found more =>
    rw [walkAt_name t s.place ⟨notEmpty, notPoint, notPoints⟩, if_neg short,
      Standing.kindAt_placeOf h, found]
    cases rest with
    | nil => exact absurd rfl more
    | cons next rest => exact ⟨rfl, nofun⟩
  | case10 s name rest notEmpty notPoint notPoints short missing =>
    rw [walkAt_name t s.place ⟨notEmpty, notPoint, notPoints⟩, if_neg short,
      Standing.kindAt_placeOf h, missing]
    exact ⟨rfl, nofun⟩

def enterAt (t : FileTree) (place : List String) (name : String) : List String :=
  if t.kindAt (place ++ [name]) = some .directory then place ++ [name] else place

theorem enter_place {t : FileTree} {s : Standing} (h : s.In t) (name : String) :
    (s.enter name).In t ∧ (s.enter name).place = t.enterAt s.place name := by
  rw [Standing.enter, enterAt, Standing.kindAt_placeOf h]
  cases hl : s.entries.lookup name with
  | none => exact ⟨h, rfl⟩
  | some node =>
    cases node with
    | file content => exact ⟨h, rfl⟩
    | directory inner => exact ⟨⟨hl, h⟩, by simp [Standing.place, FileNode.kind]⟩

theorem in_root (t : FileTree) : t.root.In t ∧ t.root.place = base.foldl t.enterAt [] := by
  have entered (names : List String) {s : Standing} (h : s.In t) :
      (names.foldl Standing.enter s).In t ∧
      (names.foldl Standing.enter s).place = names.foldl t.enterAt s.place := by
    induction names generalizing s with
    | nil => exact ⟨h, rfl⟩
    | cons name names ih =>
      obtain ⟨inside, place⟩ := enter_place h name
      rw [List.foldl_cons, List.foldl_cons, ← place]
      exact ih inside
  exact entered base (s := { entries := t.top }) rfl

theorem walk_spot (t : FileTree) {path : List String} (possible : isImpossible path = false) :
    (t.walk path).spot = t.walkAt t.root.place path := by
  rw [walk, if_neg (by simp [possible])]
  exact (walkFrom_spot t.in_root.1 path).1

theorem isImpossible_of_sublist {path more : List String} (h : path.Sublist more)
    (possible : isImpossible more = false) : isImpossible path = false := by
  rw [isImpossible, Bool.or_eq_false_iff, decide_eq_false_iff_not, List.any_eq_false] at possible ⊢
  obtain ⟨fits, spelled⟩ := possible
  refine ⟨fun long => fits (Nat.lt_of_lt_of_le long ?_),
    fun name hname => spelled name (h.mem hname)⟩
  exact (h.map fun name => name.utf8ByteSize + 1).sum_le_sum fun _ _ => Nat.zero_le _

theorem walk_in {t : FileTree} {path : List String} {s : Standing}
    (walk : t.walk path = .directory s) : s.In t := by
  refine (walkFrom_spot t.in_root.1 path).2 s ?_
  rw [FileTree.walk] at walk
  split at walk
  · cases walk
  · exact walk

theorem walk_eq_directory {t : FileTree} {path : List String} {d : List String} :
    (∃ s, t.walk path = .directory s ∧ s.place = d) ↔
      isImpossible path = false ∧ t.walkAt t.root.place path = .directory d := by
  cases impossible : isImpossible path with
  | true =>
    rw [walk, if_pos impossible]
    simp
  | false =>
    rw [← t.walk_spot impossible]
    constructor
    · rintro ⟨s, walk, rfl⟩
      rw [walk]
      exact ⟨rfl, rfl⟩
    · rintro ⟨-, walk⟩
      cases hw : t.walk path with
      | directory s =>
        rw [hw] at walk
        cases walk
        exact ⟨s, rfl, rfl⟩
      | file place content => simp [hw, Reached.spot] at walk
      | missing => simp [hw, Reached.spot] at walk
      | refused => simp [hw, Reached.spot] at walk

theorem read_eq_ok {t : FileTree} {path : String} {content : Bytes} : t.read path = .ok content ↔
    isImpossible (names path) = false ∧
    ∃ place, t.walkAt t.root.place (names path) = .file place content := by
  cases impossible : isImpossible (names path) with
  | true =>
    rw [read, walk, if_pos impossible]
    simp
  | false =>
    rw [← t.walk_spot impossible, read]
    cases t.walk (names path) <;> simp [Reached.spot]

theorem walkAt_append {t : FileTree} {place d : List String} {path : List String}
    (h : t.walkAt place path = .directory d) (more : List String) :
    t.walkAt place (path ++ more) = t.walkAt d more := by
  fun_induction walkAt t place path with
  | case1 place =>
    cases h
    rfl
  | case2 place rest ih => exact ih h
  | case3 place rest ih => exact ih h
  | case4 place rest ih => exact ih h
  | case5 place name rest notEmpty notPoint notPoints long => cases h
  | case6 place name notEmpty notPoint notPoints short rest found ih =>
    rw [List.cons_append, walkAt_name t place ⟨notEmpty, notPoint, notPoints⟩, if_neg short, found]
    exact ih h
  | case7 place name notEmpty notPoint notPoints short content found => cases h
  | case8 place name rest notEmpty notPoint notPoints short content found more => cases h
  | case9 place name rest notEmpty notPoint notPoints short missing => cases h

theorem walkAt_file {t : FileTree} {place d : List String} {path : List String} {content : Bytes}
    (h : t.walkAt place path = .file d content) :
    ∃ parent name, d = parent ++ [name] ∧ path.getLast? = some name ∧
      t.kindAt d = some (.file content) := by
  have longer {first name : String} {rest : List String} (last : rest.getLast? = some name) :
      (first :: rest).getLast? = some name := by
    rw [List.getLast?_cons, last]
    rfl
  fun_induction walkAt t place path with
  | case1 place => cases h
  | case2 place rest ih =>
    obtain ⟨parent, name, split, last, stands⟩ := ih h
    exact ⟨parent, name, split, longer last, stands⟩
  | case3 place rest ih =>
    obtain ⟨parent, name, split, last, stands⟩ := ih h
    exact ⟨parent, name, split, longer last, stands⟩
  | case4 place rest ih =>
    obtain ⟨parent, name, split, last, stands⟩ := ih h
    exact ⟨parent, name, split, longer last, stands⟩
  | case5 place name rest notEmpty notPoint notPoints long => cases h
  | case6 place first notEmpty notPoint notPoints short rest found ih =>
    obtain ⟨parent, name, split, last, stands⟩ := ih h
    exact ⟨parent, name, split, longer last, stands⟩
  | case7 place name notEmpty notPoint notPoints short content found =>
    cases h
    exact ⟨place, name, rfl, rfl, found⟩
  | case8 place name rest notEmpty notPoint notPoints short content found more => cases h
  | case9 place name rest notEmpty notPoint notPoints short missing => cases h

end RowQuery.FileTree
