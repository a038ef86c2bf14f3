import RowQuery.Proofs.Store.Walk

/-!
What making directories and writing files keeps of a tree: every directory, and every file but the
one written to.
-/

namespace RowQuery.FileTree

/-- What stands in a tree also stands in the other one, but perhaps a file at one place. -/
structure KeepsBut (q : List String) (t t' : FileTree) : Prop where
  kept : ∀ {place kind}, t.kindAt place = some kind → t'.kindAt place = some kind ∨
    (place = q ∧ kind ≠ .directory)
  root : t'.root.place = t.root.place

inductive Spot.Stays (q : List String) : Spot → Prop
  | directory (place : List String) : Stays q (.directory place)
  | file {place : List String} (content : Bytes) : place ≠ q → Stays q (.file place content)

def Below (path : List String) : Prop := ∀ name ∈ path, name ≠ "/"

theorem Below.parent {path : List String} (below : Below path) : Below (steps path).dropLast :=
  fun name hname =>
  below name (List.mem_filter.1 ((List.dropLast_sublist _).mem hname)).1

variable {q : List String} {t t' t'' : FileTree}

namespace KeepsBut

theorem refl (q : List String) (t : FileTree) : KeepsBut q t t := ⟨.inl, rfl⟩

theorem trans (h : KeepsBut q t t') (h' : KeepsBut q t' t'') : KeepsBut q t t'' where
  kept found := (h.kept found).elim h'.kept .inr
  root := h'.root.trans h.root

theorem directory (h : KeepsBut q t t') {place : List String}
    (found : t.kindAt place = some .directory) :
    t'.kindAt place = some .directory :=
  (h.kept found).resolve_right fun excepted => excepted.2 rfl

theorem walkAt_eq (h : KeepsBut q t t') {place path : List String}
    (stays : (t.walkAt place path).Stays q) : t'.walkAt place path = t.walkAt place path := by
  fun_induction walkAt t place path with
  | case1 place => rfl
  | case2 place rest ih => exact ih stays
  | case3 place rest ih => exact ih stays
  | case4 place rest ih => exact ih stays
  | case5 place name rest notEmpty notPoint notPoints long => cases stays
  | case6 place name notEmpty notPoint notPoints short rest found ih =>
    rw [walkAt_name t' place ⟨notEmpty, notPoint, notPoints⟩, if_neg short, h.directory found]
    exact ih stays
  | case7 place name notEmpty notPoint notPoints short content found =>
    have other : place ++ [name] ≠ q := by
      cases stays
      assumption
    have same := (h.kept found).resolve_right fun excepted => other excepted.1
    rw [walkAt_name t' place ⟨notEmpty, notPoint, notPoints⟩, if_neg short, same]
  | case8 place name rest notEmpty notPoint notPoints short content found more => cases stays
  | case9 place name rest notEmpty notPoint notPoints short missing => cases stays

end KeepsBut

theorem root_place_congr (same : ∀ place, t'.kindAt (place ++ ["/"]) = t.kindAt (place ++ ["/"])) :
    t'.root.place = t.root.place := by
  have step (place : List String) : t'.enterAt place "/" = t.enterAt place "/" := by
    rw [enterAt, enterAt, same]
  rw [t'.in_root.2, t.in_root.2, base]
  simp only [List.foldl_cons, List.foldl_nil, step]

/-- What stands anywhere but at one place is the same, and at that place there was no directory. -/
structure ChangesAt (q : List String) (t t' : FileTree) : Prop where
  same : ∀ {place}, place ≠ q → t'.kindAt place = t.kindAt place
  free : t.kindAt q ≠ some .directory

namespace ChangesAt

theorem refl (free : t.kindAt q ≠ some .directory) : ChangesAt q t t := ⟨fun _ => rfl, free⟩

theorem trans (h : ChangesAt q t t') (h' : ChangesAt q t' t'') : ChangesAt q t t'' where
  same other := (h'.same other).trans (h.same other)
  free := h.free

theorem keepsBut {parent : List String} {name : String} (below : name ≠ "/")
    (h : ChangesAt (parent ++ [name]) t t') :
    KeepsBut (parent ++ [name]) t t' where
  kept {place kind} stands := by
    by_cases here : place = parent ++ [name]
    · refine .inr ⟨here, fun directory => h.free ?_⟩
      rw [← here, stands, directory]
    · exact .inl ((h.same here).trans stands)
  root := by
    apply root_place_congr
    intro place
    refine h.same fun same => below ?_
    exact (List.singleton_inj.1 (List.append_inj_right' same rfl)).symm

end ChangesAt

theorem changesAt_set {node : FileNode} (leaf : ∀ name names, node.kindAt (name :: names) = none)
    {parent : List String} {name : String} (found : t.kindAt parent = some .directory)
    (free : t.kindAt (parent ++ [name]) ≠ some .directory) :
    ChangesAt (parent ++ [name]) t (t.set (parent ++ [name]) node) where
  same other := by rw [kindAt_set leaf found free, if_neg other]
  free := free

theorem KeepsBut.of_missing (h : KeepsBut q t t') (missing : t.kindAt q = none) (q' : List String) :
    KeepsBut q' t t' where
  kept {place kind} stands := by
    refine .inl ((h.kept stands).resolve_right ?_)
    rintro ⟨rfl, _⟩
    rw [missing] at stands
    cases stands
  root := h.root

@[simp] theorem kindAt_empty (name : String) (names : List String) :
    (FileNode.directory []).kindAt (name :: names) = none := rfl

theorem below_splitLast {path : List String} (below : Below path) : (splitLast path).2 ≠ "/" := by
  have trimmed : Below (path.reverse.dropWhile (· == "")).reverse := fun name hname =>
    below name (List.mem_reverse.1 ((List.dropWhile_sublist _).mem (List.mem_reverse.1 hname)))
  rw [splitLast]
  dsimp only
  rw [List.getLastD_eq_getLast?]
  cases hl : (path.reverse.dropWhile (· == "")).reverse.getLast? with
  | none => decide
  | some name => exact trimmed name (List.mem_of_getLast? hl)

theorem makeOne_eq_made {path : List String} (made : t.makeOne path = .made t') :
    isImpossible path = false ∧ IsEntryName (splitLast path).2 ∧
    ¬ longestName < (splitLast path).2.utf8ByteSize ∧
    ∃ d, t.walkAt t.root.place (splitLast path).1 = .directory d ∧ t.kindAt d = some .directory ∧
      t.kindAt (d ++ [(splitLast path).2]) = none ∧
      t' = t.set (d ++ [(splitLast path).2]) (.directory []) := by
  rw [makeOne] at made
  split at made
  · cases made
  · next possible =>
    obtain ⟨spot, inside⟩ := walkFrom_spot t.in_root.1 (splitLast path).1
    dsimp only at made
    cases hw : walkFrom t.root (splitLast path).1 with
    | directory s =>
      rw [hw] at made spot
      dsimp only at made
      split at made
      · cases made
      · next proper =>
        split at made
        · cases made
        · next short =>
          split at made
          · cases made
          · next absent =>
            cases made
            simp only [not_or] at proper
            have found := s.kindAt_place (inside s hw)
            refine ⟨Bool.eq_false_iff.2 possible, proper, short, s.place, spot.symm, found, ?_, rfl⟩
            rw [s.kindAt_placeOf (inside s hw), Option.not_isSome_iff_eq_none.1 absent]
            rfl
    | file place content => simp [hw] at made
    | missing => simp [hw] at made
    | refused => simp [hw] at made

theorem keepsBut_makeOne {path : List String} (below : Below path)
    (made : t.makeOne path = .made t') (q : List String) : KeepsBut q t t' := by
  obtain ⟨-, -, -, d, -, found, missing, rfl⟩ := makeOne_eq_made made
  have free : t.kindAt (d ++ [(splitLast path).2]) ≠ some .directory := by simp [missing]
  have changes := changesAt_set kindAt_empty found free
  exact (changes.keepsBut (below_splitLast below)).of_missing missing q

theorem keepsBut_makeAll {path : List String} (below : Below path) (depth : Nat) (q : List String) :
    KeepsBut q t (t.makeAll path depth).1 := by
  induction depth generalizing t path with
  | zero => exact .refl q t
  | succ depth ih =>
    rw [makeAll]
    cases first : t.makeOne path with
    | made t' => exact keepsBut_makeOne below first q
    | refused => exact .refl q t
    | missingParent =>
      have parents := ih below.parent (t := t)
      dsimp only
      cases hm : t.makeAll (steps path).dropLast depth with
      | mk made there =>
        rw [hm] at parents
        cases there with
        | false => exact parents
        | true =>
          dsimp only
          cases second : made.makeOne path with
          | made t' => exact parents.trans (keepsBut_makeOne below second q)
          | refused => exact parents
          | missingParent => exact parents

end RowQuery.FileTree
