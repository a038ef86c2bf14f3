import RowQuery.Proofs.Json.RoundTrip
import RowQuery.Proofs.Outcome
import RowQuery.Value.Json

/-!
The tagged form of rows. Every value but a double that is no number is read as it was written; such
a double makes the whole row unreadable.
-/

namespace RowQuery

namespace Value

def isSpellable : Value → Bool
  | float x => x.isFinite
  | _ => true

/-- A double among the values is read as it is written, if it has a form in JSON. -/
def ReadsBack : Value → Prop
  | float x => x.isFinite → x.ReadsBack
  | _ => True

theorem mapM_byte? (b : Bytes) : (b.map fun byte => Json.int byte.toNat).mapM byte? = some b := by
  induction b with
  | nil => rfl
  | cons byte b ih =>
    have read : byte? (.int byte.toNat) = some byte := by
      have bound := byte.toNat_lt
      rw [byte?, if_pos (by omega), Int.toNat_natCast, UInt8.ofNat_toNat]
    rw [List.map_cons, List.mapM_cons, read, ih]
    rfl

theorem int64?_toInt (i : Int64) : int64? i.toInt = some i := by
  rw [int64?, if_pos ⟨i.le_toInt, i.toInt_lt⟩, Int64.ofInt_toInt]

theorem ofTagged?_tagged (v : Value) :
    ofTagged? v.tagged = if v.isSpellable then some v else none := by
  cases v with
  | null => rfl
  | bool b => rfl
  | int i => simp [tagged, ofTagged?, int64?_toInt, isSpellable]
  | float x =>
    cases h : x.isFinite <;> simp [tagged, ofTagged?, isSpellable, h]
  | text s => rfl
  | bytes b =>
    rw [tagged, ofTagged?, mapM_byte?]
    rfl

theorem fits_tagged {v : Value} (back : v.ReadsBack) (depth : ℕ) : v.tagged.Fits (depth + 2) := by
  cases v with
  | null => trivial
  | bool b => exact ⟨trivial, trivial⟩
  | int i =>
    have low := i.le_toInt
    have high := i.toInt_lt
    refine ⟨?_, trivial⟩
    rw [Json.Fits]
    omega
  | float x =>
    cases h : x.isFinite with
    | true => simpa [tagged, h, Json.Fits, Json.FitsMembers] using back h
    | false => simp [tagged, h, Json.Fits, Json.FitsMembers]
  | text s => exact ⟨trivial, trivial⟩
  | bytes b =>
    refine ⟨?_, trivial⟩
    rw [Json.Fits, Json.fitsItems_iff, List.forall_mem_map]
    intro byte _
    have bound := byte.toNat_lt
    rw [Json.Fits]
    omega

end Value

theorem insertEntry_of_lt {α : Type} {name : String} (value : α) {l : List (String × α)}
    (h : ∀ e ∈ l, e.1 < name) : insertEntry name value l = l ++ [(name, value)] := by
  induction l with
  | nil => rfl
  | cons e l ih =>
    obtain ⟨n, v⟩ := e
    obtain ⟨head, tail⟩ := List.forall_mem_cons.1 h
    rw [insertEntry, if_neg (String.lt_asymm head),
      if_neg (fun same => String.lt_irrefl _ (same ▸ head)), ih tail]
    rfl

theorem NameMap.entries_foldl_insert {α : Type} (l : List (String × α)) (m : NameMap α)
    (sorted : (m.entries ++ l).Pairwise (·.1 < ·.1)) :
    (l.foldl (fun m e => m.insert e.1 e.2) m).entries = m.entries ++ l := by
  induction l generalizing m with
  | nil => simp
  | cons e l ih =>
    have last : (m.insert e.1 e.2).entries = m.entries ++ [e] :=
      insertEntry_of_lt e.2
        fun e' h => (List.pairwise_append.1 sorted).2.2 e' h e List.mem_cons_self
    rw [List.foldl_cons, ih _ (by rw [last]; simpa using sorted), last]
    simp

theorem NameMap.eq_of_entries {α : Type} {m m' : NameMap α} (h : m.entries = m'.entries) :
    m = m' := by
  cases m
  cases m'
  cases h
  rfl

theorem NameMap.ofList_entries {α : Type} (m : NameMap α) : NameMap.ofList m.entries = m :=
  eq_of_entries (entries_foldl_insert m.entries empty m.sorted)

namespace Row

def isSpellable (row : Row) : Bool := row.entries.all fun e => e.2.isSpellable

def ReadsBack (row : Row) : Prop := ∀ e ∈ row.entries, e.2.ReadsBack

theorem readsBack_empty : ReadsBack .empty := by
  rintro e ⟨⟩

theorem ReadsBack.insert {row : Row} {v : Value} (back : ReadsBack row) (name : String)
    (value : v.ReadsBack) : ReadsBack (NameMap.insert row name v) := by
  intro e he
  rcases mem_insertEntry he with rfl | he
  · exact value
  · exact back e he

theorem fits_tagged {row : Row} (back : ReadsBack row) (depth : ℕ) :
    (tagged row).Fits (depth + 3) := by
  rw [tagged, Json.Fits, Json.fitsMembers_iff, List.forall_mem_map]
  exact fun e he => Value.fits_tagged (back e he) depth

theorem ofTagged?_tagged (row : Row) :
    ofTagged? (tagged row) = if isSpellable row then some row else none := by
  have entry (e : String × Value) :
      (do return (e.1, ← Value.ofTagged? e.2.tagged) : Option (String × Value))
      = if e.2.isSpellable then some e else none := by
    rw [Value.ofTagged?_tagged]
    cases e.2.isSpellable <;> rfl
  have entries : (row.entries.mapM fun e => do return (e.1, ← Value.ofTagged? e.2.tagged))
      = if isSpellable row then some row.entries else none := by
    simp only [entry]
    exact mapM_guard _ _
  rw [tagged, ofTagged?, List.mapM_map]
  refine (congrArg (fun found => found.bind fun entries => some (NameMap.ofList entries))
    entries).trans ?_
  cases isSpellable row with
  | true => exact congrArg some row.ofList_entries
  | false => rfl

end Row

end RowQuery
