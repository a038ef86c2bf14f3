/-!
Finite maps from names, listed in the order of the names. The order makes the listing of a map
unique: `NameMap.ext_get?` says that maps with the same values are equal.
-/

namespace RowQuery

def insertEntry {α : Type} (name : String) (value : α) : List (String × α) → List (String × α)
  | [] => [(name, value)]
  | (n, v) :: rest =>
    if name < n then (name, value) :: (n, v) :: rest
    else if name = n then (name, value) :: rest
    else (n, v) :: insertEntry name value rest

def findEntry {α : Type} (name : String) : List (String × α) → Option α
  | [] => none
  | (n, v) :: rest => if name = n then some v else findEntry name rest

theorem findEntry_eq_none_of_notMem {α : Type} {name : String} {l : List (String × α)}
    (h : name ∉ l.map Prod.fst) : findEntry name l = none := by
  induction l with
  | nil => rfl
  | cons e l ih =>
    obtain ⟨other, rest⟩ := not_or.1 (mt List.mem_cons.2 h)
    rw [findEntry, if_neg other, ih rest]

theorem mem_insertEntry {α : Type} {name : String} {value : α} {e : String × α}
    {l : List (String × α)} : e ∈ insertEntry name value l → e = (name, value) ∨ e ∈ l := by
  induction l with
  | nil => simp [insertEntry]
  | cons hd tl ih =>
    rw [insertEntry]
    split
    · simp
    · split <;> grind

theorem name_lt_of_not_lt {a b : String} (h : ¬ a < b) (h' : a ≠ b) : b < a :=
  Decidable.byContradiction
    fun hn => h' (String.le_antisymm (String.not_lt.1 hn) (String.not_lt.1 h))

theorem pairwise_insertEntry {α : Type} (name : String) (value : α) {l : List (String × α)}
    (h : l.Pairwise (·.1 < ·.1)) : (insertEntry name value l).Pairwise (·.1 < ·.1) := by
  induction l with
  | nil => simp [insertEntry]
  | cons hd tl ih =>
    obtain ⟨n, v⟩ := hd
    obtain ⟨head, tail⟩ := List.pairwise_cons.1 h
    rw [insertEntry]
    split
    · next lt =>
      refine List.pairwise_cons.2 ⟨fun e he => ?_, h⟩
      rcases List.mem_cons.1 he with rfl | he
      · exact lt
      · exact String.lt_trans lt (head e he)
    · split
      · next eq => exact List.pairwise_cons.2 ⟨fun e he => eq ▸ head e he, tail⟩
      · next ne lt =>
        refine List.pairwise_cons.2 ⟨fun e he => ?_, ih tail⟩
        rcases mem_insertEntry he with rfl | he
        · exact name_lt_of_not_lt ne lt
        · exact head e he

structure NameMap (α : Type) where
  entries : List (String × α)
  sorted : entries.Pairwise (·.1 < ·.1)

namespace NameMap

variable {α : Type}

instance [DecidableEq α] : DecidableEq (NameMap α) := fun a b =>
  decidable_of_iff (a.entries = b.entries) (by cases a; cases b; simp)

def empty : NameMap α := ⟨[], .nil⟩

instance : Inhabited (NameMap α) := ⟨empty⟩

def insert (m : NameMap α) (name : String) (value : α) : NameMap α :=
  ⟨insertEntry name value m.entries, pairwise_insertEntry name value m.sorted⟩

def get? (m : NameMap α) (name : String) : Option α := findEntry name m.entries

def contains (m : NameMap α) (name : String) : Bool := (m.get? name).isSome

def names (m : NameMap α) : List String := m.entries.map (·.1)

def size (m : NameMap α) : Nat := m.entries.length

def isEmpty (m : NameMap α) : Bool := m.entries.isEmpty

/-- Of two entries of one name the later one stays. -/
def ofList (l : List (String × α)) : NameMap α :=
  l.foldl (fun m e => m.insert e.1 e.2) empty

def merged (m other : NameMap α) : NameMap α :=
  other.entries.foldl (fun m e => m.insert e.1 e.2) m

theorem findEntry_insertEntry (name key : String) (value : α) (l : List (String × α)) :
    findEntry key (insertEntry name value l) = if key = name then some value
      else findEntry key l := by
  induction l with
  | nil => simp [insertEntry, findEntry]
  | cons hd tl ih =>
    obtain ⟨n, v⟩ := hd
    rw [insertEntry]
    split
    · simp [findEntry]
    · split <;> grind [findEntry]

@[simp] theorem get?_empty (key : String) : (empty : NameMap α).get? key = none := rfl

theorem findEntry_eq_none {name : String} {l : List (String × α)} (h : ∀ e ∈ l, name < e.1) :
    findEntry name l = none := by
  apply findEntry_eq_none_of_notMem
  intro member
  obtain ⟨e, he, same⟩ := List.mem_map.1 member
  exact String.lt_irrefl _ (same ▸ h e he)

theorem eq_of_findEntry_eq {l l' : List (String × α)} (h : l.Pairwise (·.1 < ·.1))
    (h' : l'.Pairwise (·.1 < ·.1)) (same : ∀ name, findEntry name l = findEntry name l') :
    l = l' := by
  induction l generalizing l' with
  | nil =>
    cases l' with
    | nil => rfl
    | cons hd' tl' => simpa [findEntry] using same hd'.1
  | cons hd tl ih =>
    cases l' with
    | nil => simpa [findEntry] using same hd.1
    | cons hd' tl' =>
      obtain ⟨head, tail⟩ := List.pairwise_cons.1 h
      obtain ⟨head', tail'⟩ := List.pairwise_cons.1 h'
      have names : hd.1 = hd'.1 := by
        refine Decidable.byContradiction fun ne => ?_
        rcases Decidable.em (hd.1 < hd'.1) with lt | not_lt
        · have none' : findEntry hd.1 (hd' :: tl') = none := findEntry_eq_none fun e he => by
            rcases List.mem_cons.1 he with rfl | he
            · exact lt
            · exact String.lt_trans lt (head' e he)
          simpa [findEntry] using (same hd.1).trans none'
        · have lt := name_lt_of_not_lt not_lt ne
          have none' : findEntry hd'.1 (hd :: tl) = none := findEntry_eq_none fun e he => by
            rcases List.mem_cons.1 he with rfl | he
            · exact lt
            · exact String.lt_trans lt (head e he)
          simpa [findEntry] using (same hd'.1).symm.trans none'
      have values : hd.2 = hd'.2 := by simpa [findEntry, names] using same hd.1
      have tails : tl = tl' := ih tail tail' fun name => by
        rcases Decidable.em (name = hd.1) with rfl | ne
        · rw [findEntry_eq_none head, findEntry_eq_none (names ▸ head')]
        · simpa [findEntry, ne, names ▸ ne] using same name
      rw [Prod.ext names values, tails]

theorem ext_get? {m m' : NameMap α} (h : ∀ name, m.get? name = m'.get? name) : m = m' := by
  cases m with
  | mk entries sorted =>
    cases m' with
    | mk entries' sorted' =>
      congr
      exact eq_of_findEntry_eq sorted sorted' h

theorem get?_insert (m : NameMap α) (name key : String) (value : α) :
    (m.insert name value).get? key = if key = name then some value else m.get? key :=
  findEntry_insertEntry name key value m.entries

theorem get?_insert_empty {name key : String} {v value : α} :
    (empty.insert name value).get? key = some v ↔ key = name ∧ value = v := by
  rw [get?_insert]
  split <;> simp_all

theorem contains_insert (m : NameMap α) (name key : String) (value : α) :
    (m.insert name value).contains key = (key = name || m.contains key) := by
  rw [contains, get?_insert, contains]
  split <;> simp_all

theorem sorted_names (m : NameMap α) : m.names.Pairwise (· < ·) := List.pairwise_map.2 m.sorted

theorem nodup_names (m : NameMap α) : m.names.Nodup := by
  refine m.sorted_names.imp fun {a b} lt same => ?_
  rw [same] at lt
  exact String.lt_irrefl _ lt

theorem get?_foldl_insert (m : NameMap α) (key : String) {l : List (String × α)}
    (distinct : (l.map Prod.fst).Nodup) :
    (l.foldl (fun m e => m.insert e.1 e.2) m).get? key = (findEntry key l).or (m.get? key) := by
  induction l generalizing m with
  | nil => rfl
  | cons e l ih =>
    obtain ⟨head, tail⟩ := List.nodup_cons.1 distinct
    rw [List.foldl_cons, ih _ tail, get?_insert, findEntry]
    split
    · next same => rw [same, findEntry_eq_none_of_notMem head, Option.none_or, Option.some_or]
    · rfl

theorem get?_merged (m other : NameMap α) (key : String) :
    (m.merged other).get? key = (other.get? key).or (m.get? key) :=
  get?_foldl_insert m key other.nodup_names

theorem contains_merged (m other : NameMap α) (key : String) :
    (m.merged other).contains key = (other.contains key || m.contains key) := by
  rw [contains, get?_merged, Option.isSome_or, contains, contains]

end NameMap

end RowQuery
