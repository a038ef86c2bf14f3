import RowQuery.Engine.Pool

/-!
Jobs with a part of the shared state each. A job changes no cell but its own, and what it does does
not depend on the cells of the others. However the pool lets such jobs take turns, and however few
may run at a time, each ends with the result that it has on its own.
-/

namespace RowQuery

variable {σ ν ε α τ : Type} (build : List ν → σ)

/-- With a value in the cell of the given number, and whatever is in the other cells, the job
changes this cell only. It ends with the result, and with the last value in its cell. -/
inductive Job.Fills (n : Nat) (last : ν) (result : Except ε α) : ν → Job σ ε α → Prop
  | done : Fills n last result last (.done result)
  | step {v v' : ν} {f next} :
      (∀ cells : List ν, cells[n]? = some v → f (build cells) = (next, build (cells.set n v'))) →
      Fills n last result v' next → Fills n last result v (.step f)

variable {build}

theorem set_of_getElem? {cells : List ν} {n : Nat} {v : ν} (h : cells[n]? = some v) :
    cells.set n v = cells := by
  obtain ⟨lt, rfl⟩ := List.getElem?_eq_some_iff.1 h
  exact List.set_getElem_self lt

theorem Job.Fills.stay {n : Nat} {last v : ν} {result : Except ε α} {f : σ → Job σ ε α × σ}
    {next : Job σ ε α}
    (same : ∀ cells : List ν, cells[n]? = some v → f (build cells) = (next, build cells))
    (rest : next.Fills build n last result v) : (Job.step f).Fills build n last result v := by
  refine .step (fun cells h => ?_) rest
  rw [set_of_getElem? h]
  exact same cells h

namespace Pool

variable (build) (filled : τ → ν) (result : τ → Except ε α)

def Slot.Fills (n : Nat) (t : τ) (v : ν) : Slot σ ε α → Prop
  | .waiting job | .running job => job.Fills build n (filled t) (result t) v
  | .finished found => found = result t ∧ v = filled t

structure Filling (tasks : List τ) (cells : List ν) (pool : List (Slot σ ε α) × σ) : Prop where
  state : pool.2 = build cells
  cells_length : cells.length = tasks.length
  slots_length : pool.1.length = tasks.length
  slots : ∀ n t v (slot : Slot σ ε α), tasks[n]? = some t → cells[n]? = some v →
    pool.1[n]? = some slot →
    slot.Fills build filled result n t v

variable {build filled result} {bound : Nat} {tasks : List τ} {cells : List ν}

namespace Filling

variable {before after : List (Slot σ ε α)} {slot slot' : Slot σ ε α} {s : σ}

theorem inside (h : Filling build filled result tasks cells (before ++ slot :: after, s)) :
    before.length < tasks.length := by
  rw [← h.slots_length, List.length_append, List.length_cons]
  omega

theorem find (h : Filling build filled result tasks cells (before ++ slot :: after, s)) :
    ∃ t v, tasks[before.length]? = some t ∧ cells[before.length]? = some v ∧
      slot.Fills build filled result before.length t v := by
  have task := List.getElem?_eq_getElem h.inside
  have cell := List.getElem?_eq_getElem (h.cells_length ▸ h.inside)
  exact ⟨_, _, task, cell, h.slots _ _ _ _ task cell (by simp)⟩

theorem replace (h : Filling build filled result tasks cells (before ++ slot :: after, s)) {t : τ}
    (task : tasks[before.length]? = some t) {v' : ν}
    (fills : slot'.Fills build filled result before.length t v') :
    Filling build filled result tasks (cells.set before.length v')
      (before ++ slot' :: after, build (cells.set before.length v')) where
  state := rfl
  cells_length := by rw [List.length_set, h.cells_length]
  slots_length := by
    rw [← h.slots_length, List.length_append, List.length_append, List.length_cons,
      List.length_cons]
  slots := by
    have cell : before.length < cells.length := h.cells_length ▸ h.inside
    have replaced : before ++ slot' :: after
      = (before ++ slot :: after).set before.length slot' := by simp
    intro n other v found hother hv hfound
    by_cases here : n = before.length
    · subst here
      rw [List.getElem?_set_self cell] at hv
      cases task.symm.trans hother
      cases hv
      obtain rfl : slot' = found := by simpa using hfound
      exact fills
    · rw [List.getElem?_set_ne (Ne.symm here)] at hv
      rw [replaced, List.getElem?_set_ne (Ne.symm here)] at hfound
      exact h.slots n other v found hother hv hfound

theorem replace_slot (h : Filling build filled result tasks cells (before ++ slot :: after, s))
    (fills : ∀ t v, slot.Fills build filled result before.length t v →
      slot'.Fills build filled result before.length t v) :
    Filling build filled result tasks cells (before ++ slot' :: after, s) := by
  obtain ⟨t, v, task, cell, old⟩ := h.find
  have new := h.replace task (fills t v old)
  rw [set_of_getElem? cell, ← h.state] at new
  exact new

theorem step {pool pool' : List (Slot σ ε α) × σ} (h : Filling build filled result tasks cells pool)
    (taken : Step bound pool pool') : ∃ cells', Filling build filled result tasks cells' pool' := by
  cases taken with
  | launch => exact ⟨cells, h.replace_slot fun _ _ fills => fills⟩
  | finish =>
    refine ⟨cells, h.replace_slot fun _ _ fills => ?_⟩
    cases fills with
    | done => exact ⟨rfl, rfl⟩
  | @work before after f s =>
    obtain ⟨t, v, task, cell, fills⟩ := h.find
    obtain rfl : s = build cells := h.state
    cases fills with
    | step moves rest =>
      rw [moves cells cell]
      exact ⟨_, h.replace task rest⟩

theorem steps {pool pool' : List (Slot σ ε α) × σ}
    (h : Filling build filled result tasks cells pool)
    (taken : Relation.ReflTransGen (Step bound) pool pool') :
    ∃ cells', Filling build filled result tasks cells' pool' := by
  induction taken with
  | refl => exact ⟨cells, h⟩
  | tail _ last ih =>
    obtain ⟨cells', h'⟩ := ih
    exact h'.step last

theorem finished {found : List (Except ε α)}
    (h : Filling build filled result tasks cells (found.map .finished, s)) :
    found = tasks.map result ∧ s = build (tasks.map filled) := by
  have found_length : found.length = tasks.length := by rw [← h.slots_length, List.length_map]
  have ended (n : Nat) (inTasks : n < tasks.length) (inCells : n < cells.length)
    (inFound : n < found.length) :
      found[n] = result tasks[n] ∧ cells[n] = filled tasks[n] :=
    h.slots n _ _ (.finished found[n]) (List.getElem?_eq_getElem inTasks)
      (List.getElem?_eq_getElem inCells) (by simp)
  have cells_eq : cells = tasks.map filled := by
    refine List.ext_getElem (by rw [h.cells_length, List.length_map]) fun n inCells _ => ?_
    have inTasks : n < tasks.length := h.cells_length ▸ inCells
    rw [List.getElem_map]
    exact (ended n inTasks inCells (by omega)).2
  refine ⟨List.ext_getElem (by rw [found_length, List.length_map]) fun n inFound _ => ?_,
    cells_eq ▸ h.state⟩
  have inTasks : n < tasks.length := found_length ▸ inFound
  rw [List.getElem_map]
  exact (ended n inTasks (h.cells_length.symm ▸ inTasks) inFound).1

end Filling

theorem run_alone {before after : List (Slot σ ε α)} {job : Job σ ε α} {last v : ν}
    {res : Except ε α} (fills : job.Fills build before.length last res v)
    (cell : cells[before.length]? = some v) :
    Relation.ReflTransGen (Step bound) (before ++ .running job :: after, build cells)
      (before ++ .finished res :: after, build (cells.set before.length last)) := by
  induction fills generalizing cells with
  | done =>
    rw [set_of_getElem? cell]
    exact .single .finish
  | @step v v' f next moves rest ih =>
    have first : Step bound (before ++ .running (.step f) :: after, build cells)
        (before ++ .running (f (build cells)).1 :: after, (f (build cells)).2) := .work
    rw [moves cells cell] at first
    have inside : before.length < cells.length := (List.getElem?_eq_some_iff.1 cell).1
    have later := ih (List.getElem?_set_self inside)
    rw [List.set_set] at later
    exact .head first later

theorem Filling.ends (hb : 0 < bound) (ended : List (Except ε α))
    {slots : List (Slot σ ε α)} {s : σ}
    (h : Filling build filled result tasks cells (ended.map .finished ++ slots, s)) :
    Relation.ReflTransGen (Step bound) (ended.map .finished ++ slots, s)
      ((tasks.map result).map .finished, build (tasks.map filled)) := by
  induction slots generalizing ended cells s with
  | nil =>
    rw [List.append_nil] at h ⊢
    obtain ⟨rfl, rfl⟩ := h.finished
    exact .refl
  | cons slot slots ih =>
    have more (r : Except ε α) :
        ended.map .finished ++ .finished r :: slots = (ended ++ [r]).map .finished ++
          slots := by simp
    have run {job : Job σ ε α}
        (h' : Filling build filled result tasks cells
          (ended.map .finished ++ .running job :: slots, s)) :
        Relation.ReflTransGen (Step bound) (ended.map .finished ++ .running job :: slots, s)
          ((tasks.map result).map .finished, build (tasks.map filled)) := by
      obtain ⟨t, v, task, cell, fills⟩ := h'.find
      obtain rfl : s = build cells := h'.state
      refine (run_alone fills cell).trans ?_
      have next :
          Filling build filled result tasks
          _ (ended.map .finished ++ .finished (result t) :: slots, _) :=
        h'.replace task ⟨rfl, rfl⟩
      rw [more] at next ⊢
      exact ih _ next
    cases slot with
    | finished r =>
      rw [more] at h ⊢
      exact ih _ h
    | running job => exact run h
    | waiting job =>
      have idle : (ended.map .finished).countP (Slot.isRunning (σ := σ)) = 0 := by
        simp [Slot.isRunning]
      have launch : Step bound (ended.map .finished ++ .waiting job :: slots, s)
          (ended.map .finished ++ .running job :: slots, s) :=
            .launch (by simp [Slot.isWaiting]) (by omega)
      exact .head launch (run (h.replace_slot fun _ _ fills => fills))

section Whole

variable {job : τ → Job σ ε α} {v₀ : ν}
  (fills : ∀ n t, tasks[n]? = some t → (job t).Fills build n (filled t) (result t) v₀)
include fills

theorem filling_waiting :
    Filling build filled result tasks (tasks.map fun _ => v₀)
      ((tasks.map job).map .waiting, build (tasks.map fun _ => v₀)) where
  state := rfl
  cells_length := List.length_map _
  slots_length := by simp
  slots := by
    intro n t v slot task cell found
    rw [List.getElem?_map, task] at cell
    rw [List.getElem?_map, List.getElem?_map, task] at found
    cases cell
    cases found
    exact fills n t task

/-- Jobs on a pool end in one way: with their own results, and with their own values in the
cells. -/
theorem runs_iff (hb : 0 < bound) (found : List (Except ε α)) (s' : σ) :
    Runs bound (tasks.map job) (build (tasks.map fun _ => v₀)) found s' ↔
      found = tasks.map result ∧ s' = build (tasks.map filled) := by
  constructor
  · intro runs
    obtain ⟨cells', ends⟩ := (filling_waiting fills).steps runs
    exact ends.finished
  · rintro ⟨rfl, rfl⟩
    exact (filling_waiting fills).ends hb []

/-- The jobs never get into each other's way: wherever they have got to, they can all still end
so. -/
theorem runs_on (hb : 0 < bound) {pool : List (Slot σ ε α) × σ}
    (taken : Relation.ReflTransGen (Step bound)
      ((tasks.map job).map .waiting, build (tasks.map fun _ => v₀)) pool) :
    Relation.ReflTransGen (Step bound) pool
      ((tasks.map result).map .finished, build (tasks.map filled)) := by
  obtain ⟨cells', h⟩ := (filling_waiting fills).steps taken
  exact h.ends hb []

end Whole

end Pool

end RowQuery
