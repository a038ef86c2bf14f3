import RowQuery.Store.FileTree

/-!
A file tree as a map from places to what stands there. Putting a file or an empty directory in a
directory changes one place of the map.
-/

namespace RowQuery

inductive PlaceKind
  | directory : PlaceKind
  | file : Bytes → PlaceKind
  deriving DecidableEq

namespace FileNode

def kind : FileNode → PlaceKind
  | directory _ => .directory
  | file content => .file content

def kindAt (node : FileNode) (names : List String) : Option PlaceKind :=
  (FileTree.node?.go node names).map kind

@[simp] theorem kindAt_nil (node : FileNode) : node.kindAt [] = some node.kind := by
  cases node <;> rfl

@[simp] theorem kindAt_file (content : Bytes) (name : String) (names : List String) :
    (file content).kindAt (name :: names) = none := rfl

theorem kindAt_cons (entries : FileEntries) (name : String) (names : List String) :
    (directory entries).kindAt (name :: names) = (entries.lookup name).bind
      fun node => node.kindAt names := by
  rw [kindAt, FileTree.node?.go]
  cases entries.lookup name <;> rfl

end FileNode

namespace FileEntries

theorem lookup_cons (name other : String) (node : FileNode) (entries : FileEntries) :
    List.lookup other ((name, node) :: entries) = if other = name then some node
      else entries.lookup other := by
  by_cases h : other = name
  · simp [h]
  · rw [List.lookup_cons, beq_false_of_ne h, if_neg h]

theorem lookup_set (entries : FileEntries) (name other : String) (node : FileNode) :
    (entries.set name node).lookup other = if other = name then some node
      else entries.lookup other := by
  induction entries with
  | nil => exact lookup_cons name other node []
  | cons entry entries ih =>
    obtain ⟨n, old⟩ := entry
    rw [set]
    split
    · next same =>
      rw [lookup_cons, lookup_cons, same]
      split <;> rfl
    · next different =>
      rw [lookup_cons, lookup_cons, ih]
      split
      · next here => rw [if_neg (here ▸ different)]
      · rfl

theorem kindAt_put {node : FileNode} (leaf : ∀ name names, node.kindAt (name :: names) = none)
    {name : String} {parent : List String} {entries inner : FileEntries}
    (found : FileTree.node?.go (.directory entries) parent = some (.directory inner))
    (empty : ∀ n names, (FileNode.directory entries).kindAt (parent ++ name :: n :: names) = none)
    (place : List String) :
    (FileNode.directory (entries.put node (parent ++ [name]))).kindAt place
      = if place = parent ++ [name] then some node.kind
        else (FileNode.directory entries).kindAt place := by
  induction parent generalizing entries place with
  | nil =>
    change (FileNode.directory (entries.set name node)).kindAt place = _
    cases place with
    | nil => rfl
    | cons n rest =>
      rw [FileNode.kindAt_cons, FileNode.kindAt_cons, lookup_set]
      by_cases same : n = name
      · subst same
        cases rest with
        | nil => simp
        | cons m rest =>
          have nothing := empty m rest
          rw [List.nil_append, FileNode.kindAt_cons] at nothing
          simp [leaf, nothing]
      · simp [same]
  | cons a parent ih =>
    obtain ⟨next, lookup, inside⟩ := Option.bind_eq_some_iff.1 found
    obtain ⟨around, rfl⟩ : ∃ around, next = .directory around := by
      cases next with
      | directory around => exact ⟨around, rfl⟩
      | file content => cases parent <;> cases inside
    have below (n : String) (names : List String) :
        (FileNode.directory around).kindAt (parent ++ name :: n :: names) = none := by
      have nothing := empty n names
      rwa [List.cons_append, FileNode.kindAt_cons, lookup, Option.bind_some] at nothing
    have put : entries.put node (a :: parent ++ [name])
        = entries.set a (.directory (FileEntries.put node (parent ++ [name]) around)) := by
      rw [List.cons_append, FileEntries.put, lookup]
      simp
    rw [put]
    cases place with
    | nil => rfl
    | cons n rest =>
      rw [FileNode.kindAt_cons, FileNode.kindAt_cons, lookup_set]
      by_cases same : n = a
      · subst same
        rw [if_pos rfl, Option.bind_some, ih inside below, lookup, Option.bind_some]
        simp
      · simp [same]

end FileEntries

namespace FileTree

def kindAt (t : FileTree) (place : List String) : Option PlaceKind :=
  (FileNode.directory t.top).kindAt place

theorem kindAt_eq (t : FileTree) (place : List String) :
    t.kindAt place = (t.node? place).map FileNode.kind := rfl

theorem kindAt_file {t : FileTree} {place : List String} {content : Bytes} :
    t.kindAt place = some (.file content) ↔ t.node? place = some (.file content) := by
  rw [kindAt_eq]
  cases t.node? place with
  | none => simp
  | some node => cases node <;> simp [FileNode.kind]

theorem kindAt_directory {t : FileTree} {place : List String} :
    t.kindAt place = some .directory ↔ ∃ entries, t.node? place = some (.directory entries) := by
  rw [kindAt_eq]
  cases t.node? place with
  | none => simp
  | some node => cases node <;> simp [FileNode.kind]

theorem go_append (node : FileNode) (names more : List String) :
    node?.go node (names ++ more) = (node?.go node names).bind fun node => node?.go node more := by
  induction names generalizing node with
  | nil => cases node <;> rfl
  | cons name names ih =>
    cases node with
    | file content => rfl
    | directory entries =>
      change ((entries.lookup name).bind fun node => node?.go node (names ++ more)) = _
      simp only [ih, ← Option.bind_assoc]
      rfl

theorem kindAt_below {t : FileTree} {place : List String} (h : t.kindAt place ≠ some .directory)
    (name : String) (names : List String) : t.kindAt (place ++ name :: names) = none := by
  rw [kindAt_eq, node?, go_append]
  cases hn : node?.go (.directory t.top) place with
  | none => rfl
  | some node =>
    cases node with
    | file content => rfl
    | directory entries => exact absurd (kindAt_directory.2 ⟨entries, hn⟩) h

theorem kindAt_set {t : FileTree} {node : FileNode}
    (leaf : ∀ name names, node.kindAt (name :: names) = none) {parent : List String} {name : String}
    (found : t.kindAt parent = some .directory)
    (free : t.kindAt (parent ++ [name]) ≠ some .directory) (place : List String) :
    (t.set (parent ++ [name]) node).kindAt place
      = if place = parent ++ [name] then some node.kind else t.kindAt place := by
  obtain ⟨inner, found⟩ := kindAt_directory.1 found
  refine FileEntries.kindAt_put leaf found (fun n names => ?_) place
  have below := kindAt_below free n names
  rwa [List.append_assoc] at below

end FileTree

end RowQuery
