import RowQuery.Proofs.Store.Changes

/-!
Making directories: a directory that is made is there, and one that is there is not made again.
-/

namespace RowQuery.FileTree

variable {t t' : FileTree} {path : List String}

theorem isDirectory_iff : t.isDirectory path = true ↔
    isImpossible path = false ∧ ∃ d, t.walkAt t.root.place path = .directory d := by
  have directory : t.isDirectory path = true ↔ ∃ s, t.walk path = .directory s := by
    rw [isDirectory]
    cases t.walk path <;> simp
  rw [directory]
  constructor
  · rintro ⟨s, walk⟩
    obtain ⟨possible, spot⟩ := walk_eq_directory.1 ⟨s, walk, rfl⟩
    exact ⟨possible, s.place, spot⟩
  · rintro ⟨possible, d, spot⟩
    obtain ⟨s, walk, -⟩ := walk_eq_directory.2 ⟨possible, spot⟩
    exact ⟨s, walk⟩

theorem walkAt_blanks {blanks : List String} (blank : ∀ name ∈ blanks, name = "")
    (place : List String) : t.walkAt place blanks = .directory place := by
  induction blanks with
  | nil => rfl
  | cons name blanks ih =>
    rw [List.forall_mem_cons] at blank
    rw [blank.1, walkAt]
    exact ih blank.2

theorem walkAt_of_append {place d : List String} (front : List String) {more : List String}
    (h : t.walkAt place (front ++ more) = .directory d) :
    ∃ e, t.walkAt place front = .directory e := by
  fun_induction walkAt t place front with
  | case1 place => exact ⟨place, rfl⟩
  | case2 place rest ih => exact ih h
  | case3 place rest ih => exact ih h
  | case4 place rest ih => exact ih h
  | case5 place name rest notEmpty notPoint notPoints long =>
    rw [List.cons_append, walkAt_name t place ⟨notEmpty, notPoint, notPoints⟩, if_pos long] at h
    cases h
  | case6 place name notEmpty notPoint notPoints short rest found ih =>
    rw [List.cons_append, walkAt_name t place ⟨notEmpty, notPoint, notPoints⟩, if_neg short,
      found] at h
    exact ih h
  | case7 place name notEmpty notPoint notPoints short content found =>
    rw [List.cons_append, walkAt_name t place ⟨notEmpty, notPoint, notPoints⟩, if_neg short,
      found] at h
    cases more <;> cases h
  | case8 place name rest notEmpty notPoint notPoints short content found more =>
    rw [List.cons_append, walkAt_name t place ⟨notEmpty, notPoint, notPoints⟩, if_neg short,
      found] at h
    cases rest with
    | nil => exact absurd rfl more
    | cons next rest => cases h
  | case9 place name rest notEmpty notPoint notPoints short missing =>
    rw [List.cons_append, walkAt_name t place ⟨notEmpty, notPoint, notPoints⟩, if_neg short,
      missing] at h
    cases h

theorem walkAt_steps {place d : List String} (h : t.walkAt place path = .directory d) :
    t.walkAt place (steps path) = .directory d := by
  fun_induction walkAt t place path with
  | case1 place => exact h
  | case2 place rest ih => exact ih h
  | case3 place rest ih => exact ih h
  | case4 place rest ih => exact ih h
  | case5 place name rest notEmpty notPoint notPoints long => cases h
  | case6 place name notEmpty notPoint notPoints short rest found ih =>
    have kept : steps (name :: rest) = name :: steps rest :=
      List.filter_cons_of_pos
        (by simp [show name ≠ "" from notEmpty, show name ≠ "." from notPoint])
    rw [kept, walkAt_name t place ⟨notEmpty, notPoint, notPoints⟩, if_neg short, found]
    exact ih h
  | case7 place name notEmpty notPoint notPoints short content found => cases h
  | case8 place name rest notEmpty notPoint notPoints short content found more => cases h
  | case9 place name rest notEmpty notPoint notPoints short missing => cases h

theorem isDirectory_steps (h : t.isDirectory path = true) : t.isDirectory (steps path) = true := by
  obtain ⟨possible, d, walk⟩ := isDirectory_iff.1 h
  exact isDirectory_iff.2 ⟨isImpossible_of_sublist List.filter_sublist possible, d,
    walkAt_steps walk⟩

/-- A path is its last name with what is before it and the slashes after it, if there is a name. -/
theorem splitLast_append (path : List String) (named : (splitLast path).2 ≠ "") :
    ∃ blanks, path = (splitLast path).1 ++ (splitLast path).2 :: blanks ∧
      ∀ name ∈ blanks, name = "" := by
  have split : path = (path.reverse.dropWhile (· == "")).reverse ++
      (path.reverse.takeWhile (· == "")).reverse := by
    rw [← List.reverse_append, List.takeWhile_append_dropWhile, List.reverse_reverse]
  refine ⟨(path.reverse.takeWhile (· == "")).reverse, ?_, fun name hname => ?_⟩
  · rw [splitLast] at named ⊢
    dsimp only at named ⊢
    have some_name : (path.reverse.dropWhile (· == "")).reverse ≠ [] := by
      intro none
      rw [none] at named
      exact named rfl
    rw [List.getLastD_eq_getLast?, List.getLast?_eq_some_getLast some_name, Option.getD_some,
      List.append_cons, List.dropLast_concat_getLast]
    exact split
  · exact eq_of_beq (List.all_eq_true.1 List.all_takeWhile name (List.mem_reverse.1 hname))

theorem splitLast_prefix (path : List String) : ∃ more, path = (splitLast path).1 ++ more := by
  have before : (splitLast path).1 <+: (path.reverse.dropWhile (· == "")).reverse :=
    List.dropLast_prefix _
  have trimmed : (path.reverse.dropWhile (· == "")).reverse <+: path := by
    rw [← List.reverse_suffix, List.reverse_reverse]
    exact List.dropWhile_suffix _
  obtain ⟨more, split⟩ := before.trans trimmed
  exact ⟨more, split.symm⟩

theorem isDirectory_makeOne (below : Below path) (made : t.makeOne path = .made t') :
    t'.isDirectory path = true := by
  obtain ⟨possible, proper, short, d, around, found, missing, set⟩ := makeOne_eq_made made
  have free : t.kindAt (d ++ [(splitLast path).2]) ≠ some .directory := by simp [missing]
  have kept : KeepsBut (d ++ [(splitLast path).2]) t t' := by
    rw [set]
    exact (changesAt_set kindAt_empty found free).keepsBut (below_splitLast below)
  have new : t'.kindAt (d ++ [(splitLast path).2]) = some .directory := by
    rw [set, kindAt_set kindAt_empty found free, if_pos rfl]
    rfl
  have stays : (t.walkAt t.root.place (splitLast path).1).Stays (d ++ [(splitLast path).2]) := by
    rw [around]
    exact .directory _
  rw [← kept.walkAt_eq stays, ← kept.root] at around
  obtain ⟨blanks, split, blank⟩ := splitLast_append path proper.1
  have walk : t'.walkAt t'.root.place ((splitLast path).1 ++ (splitLast path).2 :: blanks)
      = .directory (d ++ [(splitLast path).2]) := by
    rw [walkAt_append around, walkAt_name _ _ proper, if_neg short, new]
    exact walkAt_blanks blank _
  exact isDirectory_iff.2 ⟨possible, _, (congrArg _ split).trans walk⟩

theorem makeOne_eq_missingParent (h : t.makeOne path = .missingParent) :
    t.walkAt t.root.place (splitLast path).1 = .missing := by
  rw [← (walkFrom_spot t.in_root.1 (splitLast path).1).1]
  rw [makeOne] at h
  split at h
  · cases h
  · dsimp only at h
    cases hw : walkFrom t.root (splitLast path).1 with
    | directory s =>
      rw [hw] at h
      dsimp only at h
      split at h
      · cases h
      · split at h
        · cases h
        · split at h <;> cases h
    | file place content => simp [hw] at h
    | missing => rfl
    | refused => simp [hw] at h

theorem makeOne_of_isDirectory (h : t.isDirectory path = true) : t.makeOne path = .refused := by
  obtain ⟨possible, d, walk⟩ := isDirectory_iff.1 h
  cases made : t.makeOne path with
  | refused => rfl
  | made t' =>
    obtain ⟨-, proper, short, e, around, -, missing, -⟩ := makeOne_eq_made made
    obtain ⟨blanks, split, -⟩ := splitLast_append path proper.1
    rw [split, walkAt_append around, walkAt_name t e proper, if_neg short, missing] at walk
    cases walk
  | missingParent =>
    obtain ⟨more, split⟩ := splitLast_prefix path
    rw [split] at walk
    obtain ⟨e, parent⟩ := walkAt_of_append _ walk
    rw [makeOne_eq_missingParent made] at parent
    cases parent

theorem makeDirectories_of_isDirectory (h : t.isDirectory path = true) :
    t.makeDirectories path = (t, true) := by
  rw [makeDirectories, makeAll, makeOne_of_isDirectory h, h]

theorem isDirectory_makeAll (below : Below path) {depth : Nat}
    (made : t.makeAll path depth = (t', true)) :
    t'.isDirectory path = true := by
  cases depth with
  | zero => cases made
  | succ depth =>
    rw [makeAll] at made
    cases first : t.makeOne path with
    | made t₁ =>
      rw [first] at made
      cases made
      exact isDirectory_makeOne below first
    | refused =>
      rw [first] at made
      obtain ⟨rfl, there⟩ := Prod.mk.inj made
      exact there
    | missingParent =>
      rw [first] at made
      dsimp only at made
      cases hm : t.makeAll (steps path).dropLast depth with
      | mk t₁ parents =>
        rw [hm] at made
        cases parents with
        | false => cases made
        | true =>
          dsimp only at made
          cases second : t₁.makeOne path with
          | made t₂ =>
            rw [second] at made
            cases made
            exact isDirectory_makeOne below second
          | refused =>
            rw [second] at made
            obtain ⟨rfl, there⟩ := Prod.mk.inj made
            exact there
          | missingParent =>
            rw [second] at made
            obtain ⟨rfl, there⟩ := Prod.mk.inj made
            exact there

end RowQuery.FileTree
