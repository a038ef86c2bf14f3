import Mathlib.Data.List.Forall2
import RowQuery.Proofs.Engine.Workspace
import RowQuery.Proofs.Number.Digits
import RowQuery.Proofs.Outcome
import RowQuery.Proofs.Store.Objects
import RowQuery.Pipeline.Persist

/-!
Writing parts as segments: the names of the segments are different, so that all parts are there in
the end, if there is room for each of them.
-/

namespace RowQuery

namespace Segment

def nameDigits (n : Nat) : List Char := List.replicate (5 - (digitsOf n).length) '0' ++ digitsOf n

theorem toList_name (n : Nat) :
    (name n).toList = "segment-".toList ++ nameDigits n ++ ".json".toList := by
  have padded : (paddedNumber n).toList = nameDigits n := String.toList_ofList
  rw [name, String.toList_append, String.toList_append, padded]

theorem isDigit_of_mem_nameDigits {n : Nat} {c : Char} (h : c ∈ nameDigits n) :
    Numeral.isDigit c = true := by
  rcases List.mem_append.1 h with h | h
  · rw [List.eq_of_mem_replicate h]
    rfl
  · exact isDigit_of_mem_digitsOf h

theorem isSlash_of_mem_name (n : Nat) : ∀ c ∈ (name n).toList, Path.isSlash c = false := by
  have front : '/' ∉ "segment-".toList := by simp
  have back : '/' ∉ ".json".toList := by simp
  intro c h
  rw [toList_name] at h
  rcases List.mem_append.1 h with h | h
  · rcases List.mem_append.1 h with h | h
    · exact decide_eq_false fun slash => front (slash ▸ h)
    · have digit := isDigit_of_mem_nameDigits h
      refine decide_eq_false ?_
      rintro rfl
      cases digit
  · exact decide_eq_false fun slash => back (slash ▸ h)

theorem name_injective {m n : Nat} (h : name m = name n) : m = n := by
  have same : nameDigits m = nameDigits n := by
    have lists := congrArg String.toList h
    rw [toList_name, toList_name] at lists
    exact List.append_cancel_left (List.append_cancel_right lists)
  have value (k : Nat) : Numeral.digitsValue (nameDigits k) = k := by
    rw [nameDigits, digitsValue_append, digitsValue_replicate_zero, digitsValue_digitsOf,
      Nat.zero_mul, Nat.zero_add]
  rw [← value m, ← value n, same]

theorem lastName_combine (folder : String) (n : Nat) :
    Path.lastName (Path.combine folder (name n)) = name n :=
  Path.lastName_combine (isSlash_of_mem_name n) folder

theorem name_ne_empty (n : Nat) : name n ≠ "" := by
  intro h
  have list := toList_name n
  rw [h] at list
  cases list

/-- The object of a segment holds a part, or the system has refused to take it. -/
def WrittenIn (store : Store) (part : List Row) : Except RunError Segment → Prop
  | .ok segment =>
    store.read segment.path = .ok (encode part) ∧ segment.checksum = Blake3.hash (encode part) ∧
      segment.rows = part.length
  | .error e => e = .data .store ∧ store.mayRefuse = true

variable {store : Store} {part : List Row} {parts : List (List Row)}

theorem onStore_write {path : String} (named : Path.lastName path ≠ "") (rows : List Row)
    (w : Workspace) :
    Store.KeepsBut (· = Path.lastName path) w.store
      (Workspace.onStore (write path rows) w).2.store ∧
      WrittenIn (Workspace.onStore (write path rows) w).2.store rows
        (Workspace.onStore (write path rows) w).1 ∧
      ∀ segment, (Workspace.onStore (write path rows) w).1 = .ok segment → segment.path = path := by
  obtain ⟨kept, outcome⟩ := w.store.put_cases named (encode rows)
  cases hp : Store.put path (encode rows) w.store with
  | mk result store =>
    rw [hp] at kept outcome
    dsimp only at kept outcome
    rcases outcome with ⟨rfl, found⟩ | ⟨rfl, refuses⟩
    · have written : write path rows w.store
          = (.ok ⟨path, Blake3.hash (encode rows), rows.length⟩, store) :=
        run_bind_ok hp _
      rw [Workspace.onStore, written]
      refine ⟨kept, ⟨found, rfl, rfl⟩, ?_⟩
      rintro segment ⟨⟩
      rfl
    · have refused : write path rows w.store = (.error .store, store) := run_bind_error hp _
      rw [Workspace.onStore, refused]
      exact ⟨kept, ⟨rfl, kept.refuses.trans refuses⟩, nofun⟩

theorem WrittenIn.keep {store' : Store} {names : String → Prop} {result : Except RunError Segment}
    (h : WrittenIn store part result) (kept : store.KeepsBut names store')
    (other : ∀ segment, result = .ok segment → Path.lastName segment.path ≠ "" ∧ ¬ names
      (Path.lastName segment.path)) :
    WrittenIn store' part result := by
  cases result with
  | error e => exact ⟨h.1, kept.refuses.trans h.2⟩
  | ok segment =>
    obtain ⟨named, apart⟩ := other segment rfl
    exact ⟨kept.reads named apart h.1, h.2⟩

theorem runEach_writeAll (folder : String) (n : Nat) (parts : List (List Row)) (w : Workspace) :
    Store.KeepsBut (fun last => ∃ m, n ≤ m ∧ last = name m) w.store
      (Jobs.runEach w (writeAll folder n parts)).2.store ∧
      List.Forall₂ (WrittenIn (Jobs.runEach w (writeAll folder n parts)).2.store) parts
        (Jobs.runEach w (writeAll folder n parts)).1 := by
  induction parts generalizing n w with
  | nil => exact ⟨.refl _ _, .nil⟩
  | cons part parts ih =>
    have last := lastName_combine folder n
    have named : Path.lastName (Path.combine folder (name n)) ≠ "" := by
      rw [last]
      exact name_ne_empty n
    obtain ⟨kept, written, path⟩ := onStore_write named part w
    rw [writeAll, Jobs.runEach]
    cases hj : Workspace.onStore (write (Path.combine folder (name n)) part) w with
    | mk result w' =>
      rw [hj] at kept written path
      obtain ⟨keptRest, writtenRest⟩ := ih (n + 1) w'
      dsimp only at kept written path ⊢
      refine ⟨.trans (kept.mono ?_) (keptRest.mono ?_),
        .cons (written.keep keptRest ?_) writtenRest⟩
      · intro _ same
        exact ⟨n, Nat.le_refl n, same.trans last⟩
      · rintro _ ⟨m, later, rfl⟩
        exact ⟨m, by omega, rfl⟩
      · intro segment found
        rw [path segment found]
        refine ⟨named, ?_⟩
        rintro ⟨m, later, same⟩
        have number := name_injective (last.symm.trans same)
        omega

theorem gather_written {results : List (Except RunError Segment)}
    (h : List.Forall₂ (WrittenIn store) parts results) :
    (∃ segments, Jobs.gather results = .ok segments ∧
      List.Forall₂ (fun part segment => WrittenIn store part (.ok segment)) parts segments) ∨
    (Jobs.gather results = .error (.data .store) ∧ store.mayRefuse = true) := by
  induction h with
  | nil => exact .inl ⟨[], rfl, .nil⟩
  | @cons part result parts results written _ ih =>
    cases result with
    | error e =>
      obtain ⟨rfl, refuses⟩ := written
      exact .inr ⟨rfl, refuses⟩
    | ok segment =>
      rw [Jobs.gather]
      rcases ih with ⟨segments, gathered, all⟩ | ⟨failed, refuses⟩
      · rw [gathered]
        exact .inl ⟨segment :: segments, rfl, .cons written all⟩
      · rw [failed]
        exact .inr ⟨rfl, refuses⟩

theorem isEntryName_name (n : Nat) : FileTree.IsEntryName (name n) := by
  have other (s : String) (h : s.toList.head? ≠ some 's') : name n ≠ s := by
    rintro rfl
    exact h (by rw [toList_name]; rfl)
  exact ⟨other "" (by simp), other "." (by simp), other ".." (by simp)⟩

section Below

variable {folder : String} (named : Path.lastName folder ≠ "") {d : List String}
include named

theorem dropLast_names (n : Nat) :
    (FileTree.names (Path.combine folder (name n))).dropLast = FileTree.names folder := by
  obtain ⟨front, names, same⟩ := Path.names_combine (isSlash_of_mem_name n) folder
  rw [names, same named, List.dropLast_concat]

theorem takes_parent {n : Nat} {t : FileTree} {parent : List String}
    (around : t.walkAt t.root.place (FileTree.names folder) = .directory d)
    (takes : t.Takes (Path.combine folder (name n)) parent) : parent = d := by
  have reached := takes.around
  rw [dropLast_names named, around] at reached
  exact (FileTree.Spot.directory.inj reached).symm

variable (possible : FileTree.isImpossible (FileTree.names folder) = false)
include possible

theorem makeDirectories_below (n : Nat) {t : FileTree}
    (around : t.walkAt t.root.place (FileTree.names folder) = .directory d) :
    t.makeDirectories (FileTree.steps (FileTree.names (Path.combine folder (name n)))).dropLast
      = (t, true) := by
  apply FileTree.makeDirectories_steps
  · rw [lastName_combine]
    exact isEntryName_name n
  · rw [dropLast_names named, FileTree.isDirectory_iff]
    exact ⟨possible, d, around⟩

theorem write_below (n : Nat) (part : List Row) {t : FileTree} {w : Workspace}
    (store : w.store = .files t)
    (around : t.walkAt t.root.place (FileTree.names folder) = .directory d) :
    (t.Takes (Path.combine folder (name n)) d ∧ ∃ segment t',
      Workspace.onStore (write (Path.combine folder (name n)) part) w
        = (.ok segment, { w with store := .files t' }) ∧
      t'.walkAt t'.root.place (FileTree.names folder) = .directory d ∧
      ∀ m, m ≠ n → (t'.Takes (Path.combine folder (name m)) d ↔
        t.Takes (Path.combine folder (name m)) d)) ∨
    (¬ t.Takes (Path.combine folder (name n)) d ∧
      Workspace.onStore (write (Path.combine folder (name n)) part) w
        = (.error (.data .store), w)) := by
  rcases Store.put_files (makeDirectories_below named possible n around) (encode part) with
    ⟨parent, t', -, takes, put, -, changes⟩ | ⟨refuses, put⟩
  · obtain rfl := takes_parent named around takes
    have kept := changes.keepsBut (FileTree.lastName_ne_root _)
    have stays : (t.walkAt t.root.place (FileTree.names folder)).Stays
        (parent ++ [Path.lastName (Path.combine folder (name n))]) := by
      rw [around]
      exact .directory _
    refine .inl ⟨takes, ⟨Path.combine folder (name n), Blake3.hash (encode part), part.length⟩,
      t', ?_, ?_, ?_⟩
    · rw [Workspace.onStore, store, write, run_bind_ok put]
      rfl
    · rw [kept.root, kept.walkAt_eq stays, around]
    · intro m other
      refine FileTree.Takes.congr (FileTree.lastName_ne_root _) ?_ changes ?_
      · rw [lastName_combine, lastName_combine]
        exact fun same => other (name_injective same)
      · rw [dropLast_names named, around]
  · refine .inr ⟨refuses rfl d, ?_⟩
    rw [Workspace.onStore, store, write, run_bind_error put, ← store]
    rfl

/-- All parts are written exactly when each of them alone can be. -/
theorem runEach_writeAll_below (n : Nat) (parts : List (List Row)) {t : FileTree} {w : Workspace}
    (store : w.store = .files t)
    (around : t.walkAt t.root.place (FileTree.names folder) = .directory d) :
    (∀ result ∈ (Jobs.runEach w (writeAll folder n parts)).1, result.toOption.isSome = true) ↔
      ∀ m, n ≤ m → m < n + parts.length → t.Takes (Path.combine folder (name m)) d := by
  induction parts generalizing n t w with
  | nil =>
    exact ⟨fun _ m from_n to_n => absurd to_n (Nat.not_lt.2 from_n),
      fun _ _ hresult => nomatch hresult⟩
  | cons part parts ih =>
    rw [writeAll, Jobs.runEach]
    rcases write_below named possible n part store around with
      ⟨takes, segment, t', written, around', others⟩ | ⟨refuses, refused⟩
    · have rest := ih (n + 1) (w := { w with store := .files t' }) rfl around'
      rw [written]
      dsimp only
      rw [List.forall_mem_cons, List.length_cons]
      refine (and_congr Iff.rfl rest).trans ⟨?_, fun all => ⟨rfl, fun m after to_end => ?_⟩⟩
      · rintro ⟨-, later⟩ m from_n to_end
        rcases Nat.eq_or_lt_of_le from_n with rfl | after
        · exact takes
        · exact (others m (Nat.ne_of_gt after)).1 (later m after (by omega))
      · exact (others m (Nat.ne_of_gt after)).2 (all m (Nat.le_of_lt after) (by omega))
    · rw [refused]
      dsimp only
      rw [List.forall_mem_cons]
      refine ⟨?_, fun all => absurd (all n (Nat.le_refl n) (by simp)) refuses⟩
      rintro ⟨failed, -⟩
      cases failed

theorem isSome_openWriter (n : Nat) {t : FileTree}
    (around : t.walkAt t.root.place (FileTree.names folder) = .directory d) :
    (Store.openWriter (Path.combine folder (name n)) (.files t)).1.toOption.isSome = true ↔
      t.Takes (Path.combine folder (name n)) d := by
  rw [Store.openWriter]
  rcases FileTree.openWriter_cases (makeDirectories_below named possible n around) with
    ⟨parent, -, takes, opened⟩ | ⟨refuses, refused⟩
  · obtain rfl := takes_parent named around takes
    rw [opened]
    exact ⟨fun _ => takes, fun _ => rfl⟩
  · rw [refused]
    exact ⟨fun opened => absurd opened Bool.false_ne_true,
      fun takes => absurd takes (refuses rfl d)⟩

end Below

/-- A store has room for segments when their folder can be made and each of them alone can be put
into it. -/
def HasRoom (s : Store) (folder : String) (count : Nat) : Prop :=
  (Store.createContainer folder s).1.toOption.isSome = true ∧ ∀ n < count,
    (Store.openWriter (Path.combine folder (name n))
      (Store.createContainer folder s).2).1.toOption.isSome = true

instance (s : Store) (folder : String) (count : Nat) : Decidable (HasRoom s folder count) :=
  inferInstanceAs (Decidable (_ ∧ _))

theorem hasRoom_memory (s : MemoryStore) (folder : String) (count : Nat) :
    HasRoom (.memory s) folder count :=
  ⟨rfl, fun _ _ => rfl⟩

theorem runEach_writeAll_iff {folder : String} (named : Path.lastName folder ≠ "") {s : Store}
    {w : Workspace} (created : Store.createContainer folder s = (.ok (), w.store))
    (parts : List (List Row)) :
    (∀ result ∈ (Jobs.runEach w (writeAll folder 0 parts)).1, result.toOption.isSome = true) ↔
      HasRoom s folder parts.length := by
  cases s with
  | memory s =>
    obtain ⟨kept, written⟩ := runEach_writeAll folder 0 parts w
    have never : (Jobs.runEach w (writeAll folder 0 parts)).2.store.mayRefuse = false := by
      have here : .memory (s.createContainer folder) = w.store := congrArg Prod.snd created
      rw [kept.refuses, ← here]
      rfl
    refine ⟨fun _ => hasRoom_memory s folder _, fun _ => (isSome_gather _).1 ?_⟩
    rcases gather_written written with ⟨segments, gathered, -⟩ | ⟨-, refuses⟩
    · rw [gathered]
      rfl
    · rw [never] at refuses
      cases refuses
  | files t =>
    cases hm : t.makeDirectories (FileTree.names folder) with
    | mk t' made =>
      cases made with
      | false =>
        rw [Store.createContainer, FileTree.createContainer, hm] at created
        cases created
      | true =>
        have store : Store.createContainer folder (.files t) = (.ok (), .files t') := by
          rw [Store.createContainer, FileTree.createContainer, hm]
        have here : w.store = .files t' :=
          (congrArg Prod.snd created).symm.trans (congrArg Prod.snd store)
        have there := FileTree.isDirectory_makeAll (FileTree.below_names folder) hm
        obtain ⟨possible, d, around⟩ := FileTree.isDirectory_iff.1 there
        rw [runEach_writeAll_below named possible 0 parts here around, HasRoom, store]
        simp only [isSome_openWriter named possible _ around, Nat.zero_le, Nat.zero_add,
          forall_const]
        exact ⟨fun all => ⟨rfl, all⟩, And.right⟩

theorem runAll_writeAll {folder : String} (named : Path.lastName folder ≠ "") {s : Store}
    {w : Workspace} (created : Store.createContainer folder s = (.ok (), w.store))
    (parts : List (List Row)) :
    (HasRoom s folder parts.length ∧
      ∃ segments w', Jobs.runAll (writeAll folder 0 parts) w = (.ok segments, w') ∧
      List.Forall₂ (fun part segment => WrittenIn w'.store part (.ok segment)) parts segments) ∨
    (¬ HasRoom s folder parts.length ∧
      ∃ w', Jobs.runAll (writeAll folder 0 parts) w = (.error (.data .store), w')) := by
  have room := runEach_writeAll_iff named created parts
  obtain ⟨kept, written⟩ := runEach_writeAll folder 0 parts w
  rw [Jobs.runAll]
  cases he : Jobs.runEach w (writeAll folder 0 parts) with
  | mk results w' =>
    rw [he] at written room
    dsimp only
    rw [← isSome_gather] at room
    rcases gather_written written with ⟨segments, gathered, all⟩ | ⟨failed, refused⟩
    · rw [gathered] at room ⊢
      exact .inl ⟨room.1 rfl, segments, w', rfl, all⟩
    · rw [failed] at room ⊢
      exact .inr ⟨fun has => absurd (room.2 has) (by simp), w', rfl⟩

end Segment

end RowQuery
