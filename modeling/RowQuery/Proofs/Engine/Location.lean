import Mathlib.Data.List.Infix
import RowQuery.Engine.Config
import RowQuery.Proofs.Store.Trimming

/-!
Where a configured store keeps its files. A location names the kind of store in front of its first
separator, without regard to the blanks around the name; a path is taken from it only if there are
none.
-/

namespace RowQuery

def absolutePath (path : String) : String :=
  if path.toList.head? = some '/' then path else "/" ++ path

theorem exists_beforeSeparator {cs : List Char} (separated : "://".toList <:+: cs) :
    ∃ rest, beforeSeparator cs ++ "://".toList ++ rest = cs := by
  induction cs with
  | nil => exact absurd (List.infix_nil.1 separated) (by decide)
  | cons c cs ih =>
    rw [beforeSeparator]
    split
    · next here =>
      obtain ⟨rest, split⟩ := List.isPrefixOf_iff_prefix.1 here
      exact ⟨rest, split⟩
    · next later =>
      rw [List.isPrefixOf_iff_prefix] at later
      obtain ⟨rest, split⟩ := ih ((List.infix_cons_iff.1 separated).resolve_left later)
      exact ⟨rest, by rw [List.cons_append, List.cons_append, split]⟩

theorem beforeSeparator_file (rest : List Char) :
    beforeSeparator ("file://".toList ++ rest) = "file".toList := by
  simp [beforeSeparator, List.isPrefixOf]

theorem filePath?_file (rest : String) :
    filePath? ("file://" ++ rest) = some (absolutePath rest) := by
  have stripped : "file://".toList.isPrefixOf? ("file://" ++ rest).toList = some rest.toList := by
    rw [String.toList_append]
    exact List.isPrefixOf?_eq_some_iff_append_eq.2 rfl
  rw [filePath?, stripped, Option.map_some, absolutePath]
  split
  · next cs slash =>
    rw [← slash, String.ofList_toList, if_pos (by rw [slash, List.head?_cons])]
  · next plain =>
    rw [if_neg fun slash => let ⟨cs, found⟩ := List.head?_eq_some_iff.1 slash; plain cs found]
    exact congrArg some (String.toList_injective
      (by rw [String.toList_ofList, String.toList_append]; rfl))

theorem filePath?_eq_none {uri : String} (other : beforeSeparator uri.toList ≠ "file".toList) :
    filePath? uri = none := by
  rw [filePath?, Option.map_eq_none_iff]
  cases stripped : "file://".toList.isPrefixOf? uri.toList with
  | none => rfl
  | some rest =>
    apply absurd _ other
    rw [← List.isPrefixOf?_eq_some_iff_append_eq.1 stripped, beforeSeparator_file]

theorem uriScheme?_eq_file {uri : String} (file : uriScheme? uri = some "file") :
    ∃ left right : String,
    (∀ c ∈ left.toList, Text.isBlank c = true) ∧ (∀ c ∈ right.toList, Text.isBlank c = true) ∧
      beforeSeparator uri.toList = (left ++ "file" ++ right).toList := by
  have trimmed : Text.trimWhile Text.isBlank (beforeSeparator uri.toList) = "file".toList := by
    rw [uriScheme?, Text.trim, String.toList_ofList] at file
    split at file
    · cases file
    · rw [← Option.some.inj file, String.toList_ofList]
  obtain ⟨first, last, front, back, split⟩ :=
    Path.exists_trimWhile Text.isBlank (beforeSeparator uri.toList)
  refine ⟨String.ofList first, String.ofList last, ?_, ?_, ?_⟩
  · rwa [String.toList_ofList]
  · rwa [String.toList_ofList]
  · rw [String.toList_append, String.toList_append, ← trimmed, String.toList_ofList,
      String.toList_ofList, split]

namespace EngineConfig

theorem scheme?_storage (config : EngineConfig) :
    config.storage.scheme? = config.storageUri.bind uriScheme? := rfl

theorem choose_of_scheme {config : EngineConfig} {uri : String}
    (given : config.storageUri = some uri) (file : uriScheme? uri = some "file") :
    config.storage.choose = .ok (.files ((filePath? uri).getD config.storageRoot)) := by
  have root : config.storage.root = (filePath? uri).getD config.storageRoot := by
    simp only [storage, given, file]
  have scheme : config.storage.scheme? = some "file" := by
    rw [scheme?_storage, given, Option.bind_some, file]
  simp only [StorageConfig.choose, scheme, root]

/-- A location of files, with a separator, has the scheme between blanks or without any. If there
are none, the files are kept under the path behind the separator, whatever the configured root is.
If there are some, the path is passed over and the files are kept under the configured root,
although there is a location. -/
theorem choose_file_location (config : EngineConfig) {uri : String}
    (given : config.storageUri = some uri) (separated : "://".toList <:+: uri.toList)
    (file : config.storage.scheme? = some "file") :
    ∃ left right rest : String, uri = left ++ "file" ++ right ++ "://" ++ rest ∧
      (∀ c ∈ left.toList, Text.isBlank c = true) ∧ (∀ c ∈ right.toList, Text.isBlank c = true) ∧
      config.storage.choose = .ok
        (.files (if left = "" ∧ right = "" then absolutePath rest else config.storageRoot)) := by
  have scheme : uriScheme? uri = some "file" := by
    rw [← file, scheme?_storage, given, Option.bind_some]
  obtain ⟨left, right, front, back, before⟩ := uriScheme?_eq_file scheme
  obtain ⟨rest, split⟩ := exists_beforeSeparator separated
  have whole : uri = left ++ "file" ++ right ++ "://" ++ String.ofList rest := by
    have behind : (String.ofList rest).toList = rest := String.toList_ofList
    apply String.toList_injective
    rw [String.toList_append, String.toList_append, behind, ← before, split]
  have root : (filePath? uri).getD config.storageRoot =
      if left = "" ∧ right = "" then absolutePath (String.ofList rest) else config.storageRoot := by
    split
    · next bare =>
      obtain ⟨rfl, rfl⟩ := bare
      have start : uri = "file://" ++ String.ofList rest := whole
      rw [start, filePath?_file, Option.getD_some]
    · next blank =>
      rw [filePath?_eq_none, Option.getD_none]
      intro bare
      have lengths := congrArg List.length (before.symm.trans bare)
      simp only [String.toList_append, List.length_append] at lengths
      apply blank
      rw [← String.toList_eq_nil_iff, ← String.toList_eq_nil_iff, ← List.length_eq_zero_iff,
        ← List.length_eq_zero_iff]
      omega
  refine ⟨left, right, String.ofList rest, whole, front, back, ?_⟩
  rw [choose_of_scheme given scheme, root]

theorem choose_file_location_blank :
    let bare : EngineConfig := { storageUri := some "file://data", storageRoot := "/tmp" }
    let blank : EngineConfig := { storageUri := some " file://data", storageRoot := "/tmp" }
    bare.storage.scheme? = some "file" ∧ blank.storage.scheme? = some "file" ∧
      bare.storage.choose = .ok (.files "/data") ∧ blank.storage.choose = .ok (.files "/tmp") ∧
      ∃ left right rest : String, " file://data" = left ++ "file" ++ right ++ "://" ++ rest ∧
        (∀ c ∈ left.toList, Text.isBlank c = true) ∧ (∀ c ∈ right.toList, Text.isBlank c = true) ∧
        blank.storage.choose
          = .ok (.files (if left = "" ∧ right = "" then absolutePath rest else "/tmp")) := by
  intro bare blank
  have separated : "://".toList <:+: " file://data".toList :=
    ⟨" file".toList, "data".toList, by decide⟩
  have scheme : uriScheme? "file://data" = some "file" := by decide
  have scheme' : uriScheme? " file://data" = some "file" := by decide
  have path : filePath? "file://data" = some "/data" := by decide
  have none : filePath? " file://data" = none := by decide
  have chosen : bare.storage.choose = _ := choose_of_scheme rfl scheme
  have chosen' : blank.storage.choose = _ := choose_of_scheme rfl scheme'
  rw [path] at chosen
  rw [none] at chosen'
  exact ⟨scheme, scheme', chosen, chosen', choose_file_location blank rfl separated scheme'⟩

end EngineConfig

end RowQuery
