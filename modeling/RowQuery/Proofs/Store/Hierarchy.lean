import RowQuery.Proofs.Store.Operations

/-!
Which containers a store in memory has. Everything that stands around an object is a container, but
for the root; what stands around a container that was made need not be one, and the root is one only
if it was made itself.
-/

namespace RowQuery

namespace Path

def FullyNamed (path : String) : Prop := ∀ piece ∈ pieces path, piece ≠ ""

instance (path : String) : Decidable (FullyNamed path) :=
  inferInstanceAs (Decidable (∀ piece ∈ pieces path, piece ≠ ""))

/-- The root in any spelling, and what stands before a slash of a path. -/
def IsAbove (up path : String) : Prop := trimSlashes up = "" ∨ ∃ rest, path = up ++ "/" ++ rest

theorem pieces_append (up rest : String) :
    pieces (up ++ "/" ++ rest) = pieces up ++ pieces rest := by
  have slash : (up ++ "/" ++ rest).toList = up.toList ++ '/' :: rest.toList := by
    rw [String.toList_append, String.toList_append, List.append_assoc]
    rfl
  rw [pieces, slash, splitSlashes_append, List.map_append]
  rfl

theorem isBelow_iff {container path : String} :
    isBelow container path = true ↔ ∃ rest, path = container ++ "/" ++ rest := by
  rw [isBelow, List.isPrefixOf_iff_prefix]
  constructor
  · rintro ⟨rest, split⟩
    refine ⟨String.ofList rest, String.toList_injective ?_⟩
    rw [String.toList_append, String.toList_ofList, split]
  · rintro ⟨rest, rfl⟩
    exact ⟨rest.toList, String.toList_append.symm⟩

theorem isBelow_trans {container path other : String} (h : isBelow container path = true)
    (h' : isBelow path other = true) : isBelow container other = true := by
  obtain ⟨rest, rfl⟩ := isBelow_iff.1 h
  obtain ⟨rest', rfl⟩ := isBelow_iff.1 h'
  exact isBelow_iff.2 ⟨rest ++ "/" ++ rest', by simp only [String.append_assoc]⟩

namespace FullyNamed

variable {up path rest : String}

theorem left (named : FullyNamed (up ++ "/" ++ rest)) : FullyNamed up := by
  intro piece h
  apply named
  rw [pieces_append]
  exact List.mem_append_left _ h

theorem ne_empty (named : FullyNamed path) : path ≠ "" := by
  rintro rfl
  exact named "" (by decide) rfl

theorem first (named : FullyNamed path) : ∀ c ∈ path.toList.head?, isSlash c = false := by
  intro c first
  rw [Bool.eq_false_iff]
  intro slash
  obtain ⟨rest, split⟩ := List.head?_eq_some_iff.1 first
  apply named ""
  · rw [pieces, split, splitSlashes, if_pos slash]
    exact List.mem_cons_self
  · rfl

theorem last (named : FullyNamed path) : ∀ c ∈ path.toList.getLast?, isSlash c = false := by
  intro c last
  rw [Bool.eq_false_iff]
  intro slash
  obtain ⟨front, split⟩ := List.getLast?_eq_some_iff.1 last
  obtain rfl : c = '/' := by simpa [isSlash] using slash
  apply named ""
  · rw [pieces, split, splitSlashes_append, List.map_append]
    exact List.mem_append_right _ List.mem_cons_self
  · rfl

theorem trimSlashes_eq (named : FullyNamed path) : trimSlashes path = path :=
  Path.trimSlashes_eq named.first named.last

theorem isBelow (named : FullyNamed path) (above : IsAbove up path) (inside : trimSlashes up ≠ "") :
    Path.isBelow (trimSlashes up) path = true := by
  rcases above with root | ⟨rest, rfl⟩
  · exact absurd root inside
  · rw [named.left.trimSlashes_eq]
    exact isBelow_iff.2 ⟨rest, rfl⟩

end FullyNamed

end Path

namespace MemoryStore

/-- A container was made under a path, in any spelling of it. -/
def Created (operations : List Operation) (path : String) : Prop :=
  ∃ made, .createContainer made ∈ operations ∧ Path.trimSlashes made = Path.trimSlashes path

variable {s : MemoryStore}

theorem containerExists_iff {path : String} : s.containerExists path = true ↔
    s.containers.contains (Path.trimSlashes path) = true ∨
      ∃ name ∈ s.objects.names, Path.isBelow (Path.trimSlashes path) name = true := by
  rw [containerExists, Bool.or_eq_true, List.any_eq_true]

theorem list_ne_nil {path : String} : s.list path ≠ [] ↔
    ∃ name ∈ s.objects.names, Path.trimSlashes path = "" ∨
      Path.isBelow (Path.trimSlashes path) name = true := by
  simp [list, List.filter_eq_nil_iff, String.isEmpty_iff, Decidable.or_iff_not_imp_left]

theorem objectExists_iff {path : String} :
    s.objectExists path = true ↔ Path.trimSlashes path ∈ s.objects.names := by
  rw [objectExists, NameMap.mem_names, Option.isSome_iff_exists]
  rfl

namespace InUse

variable {u : InUse}

theorem contains_run (operations : List Operation) (key : String) :
    (u.run operations).store.containers.contains key = true ↔
      u.store.containers.contains key = true ∨
      ∃ made, .createContainer made ∈ operations ∧ Path.trimSlashes made = key := by
  induction operations generalizing u with
  | nil => simp [run]
  | cons operation operations ih =>
    rw [run, ih, containers_apply]
    cases operation with
    | createContainer path =>
      have inserted : (u.store.containers.insert (Path.trimSlashes path) ()).contains key = true ↔
          Path.trimSlashes path = key ∨ u.store.containers.contains key = true := by
        rw [NameMap.contains, NameMap.get?_insert, NameMap.contains]
        split
        · next same => simp [same]
        · next other => simp [Ne.symm other]
      simp [inserted, or_assoc, or_left_comm]
    | insert | openWriter | write | flush | drop => simp

theorem Normal.not_isBelow_root (normal : u.Normal) {name : String}
    (h : name ∈ u.store.objects.names) : Path.isBelow "" name = false := by
  rw [Bool.eq_false_iff]
  intro below
  obtain ⟨rest, rfl⟩ := Path.isBelow_iff.1 below
  have trimmed := congrArg String.toList (normal.objects _ h)
  rw [Path.trimSlashes, String.toList_ofList] at trimmed
  have first : '/' ∈ (Text.trimWhile Path.isSlash ("" ++ "/" ++ rest).toList).head? := by
    rw [trimmed, String.toList_append]
    rfl
  exact absurd (Path.not_first_trimWhile first) (by decide)

theorem Normal.containerExists_iff (normal : u.Normal) {path : String} :
    u.store.containerExists path = true ↔
    u.store.containers.contains (Path.trimSlashes path) = true ∨
    (Path.trimSlashes path ≠ "" ∧ u.store.list path ≠ []) := by
  rw [MemoryStore.containerExists_iff, list_ne_nil]
  refine or_congr_right ⟨?_, ?_⟩
  · rintro ⟨name, h, below⟩
    refine ⟨fun root => ?_, name, h, .inr below⟩
    rw [root, normal.not_isBelow_root h] at below
    cases below
  · rintro ⟨inside, name, h, root | below⟩
    · exact absurd root inside
    · exact ⟨name, h, below⟩

end InUse

theorem list_ne_nil_above {up path : String} (named : Path.FullyNamed path)
    (held : s.objectExists path = true ∨ s.list path ≠ []) (above : Path.IsAbove up path)
    (inside : Path.trimSlashes up ≠ "") : s.list up ≠ [] := by
  have below := named.isBelow above inside
  rw [objectExists_iff, list_ne_nil, named.trimSlashes_eq] at held
  rw [list_ne_nil]
  rcases held with there | ⟨name, h, root | inner⟩
  · exact ⟨path, there, .inr below⟩
  · exact absurd root named.ne_empty
  · exact ⟨name, h, .inr (Path.isBelow_trans below inner)⟩

/-- Which containers there are after any operations on an empty store. A container is what was made
as one, and, but for the root, what has an object below it. So everything but the root is a
container around an object and around what holds one; and everything is one around a path exactly
when the root was made, and either an object is at or below the path, or each of the others was made
or holds an object itself. -/
theorem containerExists_above (operations : List Operation) :
    let s := (InUse.run {} operations).store
    (∀ path, s.containerExists path = true ↔
      Created operations path ∨ (Path.trimSlashes path ≠ "" ∧ s.list path ≠ [])) ∧
    (∀ path up, Path.FullyNamed path → (s.objectExists path = true ∨ s.list path ≠ []) →
      Path.IsAbove up path → Path.trimSlashes up ≠ "" → s.containerExists up = true) ∧
    (∀ path, Path.FullyNamed path →
      ((∀ up, Path.IsAbove up path → s.containerExists up = true) ↔
        Created operations "" ∧ ((s.objectExists path = true ∨ s.list path ≠ []) ∨
          ∀ up, Path.IsAbove up path → Path.trimSlashes up ≠ "" →
            Created operations up ∨ s.list up ≠ []))) := by
  intro s
  have exists_iff : ∀ path, s.containerExists path = true ↔
      Created operations path ∨ (Path.trimSlashes path ≠ "" ∧ s.list path ≠ []) := by
    intro path
    rw [(InUse.normal_empty.run operations).containerExists_iff, InUse.contains_run]
    exact or_congr_left (or_iff_right fun none => nomatch none)
  have held_above : ∀ path up, Path.FullyNamed path →
    (s.objectExists path = true ∨ s.list path ≠ []) →
      Path.IsAbove up path → Path.trimSlashes up ≠ "" → s.containerExists up = true := by
    intro path up named held above inside
    exact (exists_iff up).2 (.inr ⟨inside, list_ne_nil_above named held above inside⟩)
  refine ⟨exists_iff, held_above, fun path named => ⟨fun all => ?_, ?_⟩⟩
  · refine ⟨?_, .inr fun up above inside => ?_⟩
    · rcases (exists_iff "").1 (all "" (.inl rfl)) with made | ⟨inside, -⟩
      · exact made
      · exact absurd rfl inside
    · exact ((exists_iff up).1 (all up above)).imp_right And.right
  · rintro ⟨⟨made, h, root⟩, others⟩ up above
    rcases Decidable.em (Path.trimSlashes up = "") with atRoot | inside
    · exact (exists_iff up).2 (.inl ⟨made, h, root.trans atRoot.symm⟩)
    · rcases others with held | others
      · exact held_above path up named held above inside
      · exact (exists_iff up).2 ((others up above inside).imp_right fun some => ⟨inside, some⟩)

theorem containerExists_above_inner_only :
    let s :=
      (InUse.run {} [.createContainer "x/y/z", .openWriter "a/b", .write 0 [7], .drop 0]).store
    Path.FullyNamed "x/y/z" ∧ s.containerExists "x/y/z" = true ∧ s.containerExists "x" = false ∧
      ¬ (∀ up, Path.IsAbove up "x/y/z" → s.containerExists up = true) ∧
      s.bytes? "a/b" = some [7] ∧ s.containerExists "a" = true ∧ s.list "/" ≠ [] ∧
      s.containerExists "/" = false := by
  intro s
  have deep : Path.FullyNamed "x/y/z" := by decide
  have named : Path.FullyNamed "a/b" := by decide
  have made : s.containerExists "x/y/z" = true := by rfl
  have stored : s.bytes? "a/b" = some [7] := by rfl
  have there : s.objectExists "a/b" = true := by rfl
  obtain ⟨-, held, whole⟩ :=
    containerExists_above [.createContainer "x/y/z", .openWriter "a/b", .write 0 [7], .drop 0]
  refine ⟨deep, made, by rfl, fun all => ?_, stored, ?_, by decide, by rfl⟩
  · obtain ⟨⟨root, h, empty⟩, -⟩ := (whole "x/y/z" deep).1 all
    obtain rfl : root = "x/y/z" := by simpa using h
    exact absurd empty (by decide)
  · exact held "a/b" "a" named (.inl there) (.inr ⟨"b", rfl⟩) (by decide)

end MemoryStore

end RowQuery
