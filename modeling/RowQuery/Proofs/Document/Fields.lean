import Mathlib.Data.List.Forall2
import RowQuery.Document.Shape

/-!
Objects that are written field by field, in any order and with some of the fields left out, and what
a reader of documents finds in them.
-/

namespace RowQuery

/-- How a field of an object is written: its name, whether it may be left out, and what may stand
for its value. -/
structure FieldForm where
  name : String
  usual : Prop
  form : Json → Prop

namespace FieldForm

def needed (name : String) (form : Json → Prop) : FieldForm := ⟨name, False, form⟩

def tag (name value : String) : FieldForm := needed name (· = .str value)

def optional {α : Type} (name : String) (form : α → Json → Prop) (value : Option α) : FieldForm :=
  ⟨name, value = none, fun j => value.elim (j = .null) (form · j)⟩

@[simp] theorem name_needed (name : String) (form : Json → Prop) : (needed name form).name = name :=
  rfl

@[simp] theorem name_tag (name value : String) : (tag name value).name = name := rfl

@[simp] theorem name_optional {α : Type} (name : String) (form : α → Json → Prop)
    (value : Option α) :
    (optional name form value).name = name := rfl

def Holds (f : FieldForm) : Option Json → Prop
  | some j => f.form j
  | none => f.usual

end FieldForm

namespace Json

/-- Members with names of their own, among which each field is written as it may be. -/
structure HasFields (forms : List FieldForm) (members : List (String × Json)) : Prop where
  distinct : (members.map Prod.fst).Nodup
  holds : forms.Forall fun f => f.Holds (findEntry f.name members)

def IsObject (forms : List FieldForm) (j : Json) : Prop :=
  ∃ members, j = .obj members ∧ HasFields forms members

def IsArray (forms : List (Json → Prop)) (j : Json) : Prop :=
  ∃ items, j = .arr items ∧ List.Forall₂ (fun form item => form item) forms items

theorem isArray_map {α : Type} {form : α → Json → Prop} {write : α → Json} {l : List α}
    (h : ∀ a ∈ l, form a (write a)) : IsArray (l.map form) (.arr (l.map write)) :=
  ⟨_, rfl, List.forall₂_map_left_iff.2 (List.forall₂_map_right_iff.2 (List.forall₂_same.2 h))⟩

end Json

theorem findEntry_filter {α : Type} {name tag : String} (h : name ≠ tag) (l : List (String × α)) :
    findEntry name (l.filter fun e => e.1 ≠ tag) = findEntry name l := by
  induction l with
  | nil => rfl
  | cons e l ih =>
    by_cases same : e.1 = tag
    · rw [List.filter_cons_of_neg (by simpa using same), ih, findEntry,
        if_neg fun eq => h (eq.trans same)]
    · rw [List.filter_cons_of_pos (by simpa using same), findEntry, findEntry, ih]

theorem Json.HasFields.leaveOut {forms : List FieldForm} {members : List (String × Json)}
    (h : HasFields forms members) {name : String} (usual : ∀ f ∈ forms, f.name = name → f.usual) :
    HasFields forms (members.filter fun m => m.1 ≠ name) := by
  refine ⟨h.distinct.sublist (List.filter_sublist.map _),
    List.forall_iff_forall_mem.2 fun f mem => ?_⟩
  by_cases same : f.name = name
  · have absent : f.name ∉ (members.filter fun m => m.1 ≠ name).map Prod.fst := by simp [same]
    rw [findEntry_eq_none_of_notMem absent]
    exact usual f mem same
  · rw [findEntry_filter same]
    exact List.forall_iff_forall_mem.1 h.holds f mem

namespace Document

open Json (HasFields IsObject IsArray)

variable {members : List (String × Json)}

theorem map_set_idxOf {α : Type} (f : String → α) {names : List String} (unlike : names.Nodup)
    {key : String} (known : key ∈ names) (a : α) :
    (names.map f).set (names.idxOf key) a
      = names.map fun name => if name = key then a else f name := by
  induction names with
  | nil => cases known
  | cons name names ih =>
    obtain ⟨fresh, rest⟩ := List.nodup_cons.1 unlike
    rw [List.map_cons, List.map_cons]
    by_cases same : name = key
    · subst same
      rw [List.idxOf_cons_self, List.set_cons_zero, if_pos rfl]
      exact congrArg _ (List.map_congr_left
        fun other h => (if_neg fun same : other = name => fresh (same ▸ h)).symm)
    · rw [List.idxOf_cons_ne _ same, List.set_cons_succ, if_neg same,
        ih rest ((List.mem_cons.1 known).resolve_left (Ne.symm same))]

theorem placeFields_ofJsonMembers {names : List String} (unlike : names.Nodup)
    (distinct : (members.map Prod.fst).Nodup) :
    placeFields names (ofJsonMembers members)
      = some (names.map fun name => (findEntry name members).map ofJson) := by
  induction members with
  | nil => rfl
  | cons m members ih =>
    obtain ⟨key, j⟩ := m
    obtain ⟨fresh, rest⟩ := List.nodup_cons.1 distinct
    rw [ofJsonMembers, placeFields, nameIndex?, ih rest]
    simp only [Option.bind_eq_bind, Option.bind_some, List.getElem?_map]
    by_cases known : key ∈ names
    · simp only [List.getElem?_idxOf known, Option.map_some, findEntry_eq_none_of_notMem fresh,
        Option.map_none, map_set_idxOf _ unlike known]
      refine congrArg some (List.map_congr_left fun name _ => ?_)
      rw [findEntry]
      split <;> rfl
    · simp only [List.idxOf_eq_length known, List.getElem?_length, Option.map_none]
      refine congrArg some (List.map_congr_left fun name h => ?_)
      rw [findEntry, if_neg fun same : name = key => known (same ▸ h)]

theorem splitTag_ofJsonMembers {tag : String} (distinct : (members.map Prod.fst).Nodup) :
    splitTag tag (ofJsonMembers members)
      = ((findEntry tag members).toList.map ofJson,
        ofJsonMembers (members.filter fun m => m.1 ≠ tag)) := by
  induction members with
  | nil => rfl
  | cons m members ih =>
    obtain ⟨key, j⟩ := m
    obtain ⟨fresh, rest⟩ := List.nodup_cons.1 distinct
    rw [ofJsonMembers, splitTag, ih rest, findEntry]
    dsimp only
    by_cases same : key = tag
    · subst same
      rw [if_pos rfl, if_pos rfl, findEntry_eq_none_of_notMem fresh,
        List.filter_cons_of_neg (by simp)]
      rfl
    · rw [if_neg same, if_neg (Ne.symm same), List.filter_cons_of_pos (by simpa using same),
        ofJsonMembers]

theorem height_le_of_findEntry {name : String} {j : Json} (h : findEntry name members = some j) :
    (ofJson j).height ≤ heightEntries (ofJsonMembers members) := by
  induction members with
  | nil => cases h
  | cons m members ih =>
    obtain ⟨key, j'⟩ := m
    rw [ofJsonMembers, heightEntries]
    rw [findEntry] at h
    split at h
    · cases h
      exact Nat.le_max_left ..
    · exact Nat.le_trans (ih h) (Nat.le_max_right ..)

theorem height_pos (d : Document) : 0 < d.height := by
  cases d <;> exact Nat.succ_pos _

/-- What a reader finds under the names of fields; all of it is lower than some bound. -/
structure Shows (values : String → Option Json) (bound : ℕ) (d : Document) : Prop where
  fields : ∀ names : List String, names.Nodup →
    d.fields? names = some (names.map fun name => (values name).map ofJson)
  lower : ∀ name j, values name = some j → (ofJson j).height < bound

theorem heightEntries_sublist {l : List (String × Json)} (h : l.Sublist members) :
    heightEntries (ofJsonMembers l) ≤ heightEntries (ofJsonMembers members) := by
  induction h with
  | slnil => exact Nat.le_refl _
  | cons m _ ih => exact Nat.le_trans ih (Nat.le_max_right ..)
  | cons_cons m _ ih =>
    exact Nat.max_le.2 ⟨Nat.le_max_left .., Nat.le_trans ih (Nat.le_max_right ..)⟩

variable {forms : List FieldForm} {j : Json}

theorem shows_of_hasFields (h : HasFields forms members) {bound : ℕ}
    (low : (ofJson (.obj members)).height ≤ bound) :
    ∃ values, Shows values bound (ofJson (.obj members)) ∧
      forms.Forall fun f => f.Holds (values f.name) := by
  refine ⟨(findEntry · members), ⟨fun names unlike => ?_, fun name j found => ?_⟩, h.holds⟩
  · exact placeFields_ofJsonMembers unlike h.distinct
  · exact Nat.lt_of_lt_of_le (Nat.lt_succ_of_le (height_le_of_findEntry found)) low

theorem shows_of_isObject (h : IsObject forms j) :
    ∃ values, Shows values (ofJson j).height (ofJson j) ∧
      forms.Forall fun f => f.Holds (values f.name) := by
  obtain ⟨members, rfl, fields⟩ := h
  exact shows_of_hasFields fields (Nat.le_refl _)

theorem tagged?_of_isObject {tag value : String} (h : IsObject (.tag tag value :: forms) j)
    (apart : forms.Forall fun f => f.name ≠ tag) :
    ∃ d values, tagged? tag (ofJson j) = some (.str value, d) ∧ Shows values (ofJson j).height d ∧
      forms.Forall fun f => f.Holds (values f.name) := by
  obtain ⟨members, rfl, distinct, holds⟩ := h
  obtain ⟨named, others⟩ := (List.forall_cons ..).1 holds
  have rest : HasFields forms (members.filter fun m => m.1 ≠ tag) :=
    HasFields.leaveOut ⟨distinct, others⟩
      fun f mem same => absurd same (List.forall_iff_forall_mem.1 apart f mem)
  have low : (ofJson (.obj (members.filter fun m => m.1 ≠ tag))).height
      ≤ (ofJson (.obj members)).height :=
    Nat.succ_le_succ (heightEntries_sublist List.filter_sublist)
  obtain ⟨values, shows, fields⟩ := shows_of_hasFields rest low
  refine ⟨_, values, ?_, shows, fields⟩
  rw [ofJson, tagged?, splitTag_ofJsonMembers distinct]
  have found : findEntry tag members = some (.str value) := by
    cases found : findEntry tag members with
    | none => simp [FieldForm.tag, FieldForm.needed, found, FieldForm.Holds] at named
    | some j => simpa [FieldForm.tag, FieldForm.needed, found, FieldForm.Holds] using named
  rw [found]
  rfl

theorem variant?_of_isObject {tag value : String} {names : List String} {i : ℕ}
    (h : IsObject (.tag tag value :: forms) j) (apart : forms.Forall fun f => f.name ≠ tag)
    (index : names.idxOf value = i) (known : i < names.length) :
    ∃ d values, variant? tag names (ofJson j) = some (i, d) ∧ Shows values (ofJson j).height d ∧
      forms.Forall fun f => f.Holds (values f.name) := by
  obtain ⟨d, values, tagged, shows, fields⟩ := tagged?_of_isObject h apart
  refine ⟨d, values, ?_, shows, fields⟩
  rw [variant?, tagged]
  simp only [Option.bind_eq_bind, Option.bind_some, nameIndex?, index, if_pos known]

section

variable {α : Type} {read : Document → Option α} {name : String} {field : Option Json}

theorem required_of_holds {form : Json → Prop}
    (holds : (FieldForm.needed name form).Holds field) {a : α}
    (reads : ∀ j, field = some j → form j → read (ofJson j) = some a) :
    required read (field.map ofJson) = some a := by
  cases field with
  | none => exact holds.elim
  | some j => exact reads j rfl holds

theorem text_of_holds {s : String} (holds : (FieldForm.needed name (· = .str s)).Holds field) :
    required text? (field.map ofJson) = some s :=
  required_of_holds holds fun _ _ same => same ▸ rfl

theorem withDefault_of_holds {value usual : α} {form : Json → Prop}
    (holds : (FieldForm.mk name (value = usual) form).Holds field)
    (reads : ∀ j, field = some j → form j → read (ofJson j) = some value) :
    withDefault usual read (field.map ofJson) = some value := by
  cases field with
  | none => exact congrArg some (Eq.symm holds)
  | some j => exact reads j rfl holds

theorem optional_of_holds {form : α → Json → Prop} {value : Option α}
    (holds : (FieldForm.optional name form value).Holds field) (nothing : read .null = none)
    (reads : ∀ a j, value = some a → field = some j → form a j → read (ofJson j) = some a) :
    optional read (field.map ofJson) = some value := by
  cases field with
  | none => exact congrArg some (Eq.symm holds)
  | some j =>
    cases value with
    | none =>
      have null : j = .null := holds
      rw [null]
      rfl
    | some a =>
      have read' := reads a j rfl rfl holds
      rw [Option.map_some, optional, read']
      · rfl
      · intro null
        rw [null, nothing] at read'
        cases read'

theorem label_of_holds {label : Option String}
    (holds : (FieldForm.optional name (fun s j => j = .str s) label).Holds field) :
    optional text? (field.map ofJson) = some label :=
  optional_of_holds holds rfl fun _ _ _ _ same => same ▸ rfl

theorem mapM_ofJsonItems {form : α → Json → Prop} {l : List α} {items : List Json}
    (h : List.Forall₂ (fun a item => form a item) l items) {bound : ℕ}
    (low : heightItems (ofJsonItems items) < bound)
    (reads : ∀ a ∈ l, ∀ item, (ofJson item).height < bound → form a item → read
      (ofJson item) = some a) :
    (ofJsonItems items).mapM read = some l := by
  induction h with
  | nil => rfl
  | cons first _ ih =>
    obtain ⟨head, tail⟩ := Nat.max_lt.1 low
    obtain ⟨readFirst, readRest⟩ := List.forall_mem_cons.1 reads
    rw [ofJsonItems, List.mapM_cons, readFirst _ head first, ih tail readRest]
    rfl

theorem items?_of_isArray {form : α → Json → Prop} {l : List α} (h : IsArray (l.map form) j)
    (reads : ∀ a ∈ l, ∀ item, (ofJson item).height < (ofJson j).height → form a item → read
      (ofJson item) = some a) :
    items? read (ofJson j) = some l := by
  obtain ⟨items, rfl, forms⟩ := h
  exact mapM_ofJsonItems (List.forall₂_map_left_iff.1 forms) (Nat.lt_succ_self _) reads

end

end Document

end RowQuery
