import Mathlib.Data.List.Forall2
import RowQuery.Pipeline.Run

/-!
Results of computations that may fail: what the result of a bind, of a list of computations or of a
list of jobs says about the results of the parts. Where errors are forgotten, what is left says
whether a computation succeeds, and with what. In this form the parts of a computation may change
places, since the first failure is no longer told from a later one.
-/

namespace RowQuery

variable {ε ε' α β γ : Type}

@[simp] theorem toOption_ok (a : α) : (Except.ok a : Except ε α).toOption = some a := rfl

@[simp] theorem toOption_error (e : ε) : (Except.error e : Except ε α).toOption = none := rfl

@[simp] theorem toOption_pure (a : α) : (pure a : Except ε α).toOption = some a := rfl

@[simp] theorem toOption_bind (x : Except ε α) (f : α → Except ε β) :
    (x >>= f).toOption = x.toOption.bind fun a => (f a).toOption := by
  cases x <;> rfl

theorem toOption_eq_some {x : Except ε α} {a : α} : x.toOption = some a ↔ x = .ok a := by
  cases x <;> simp

theorem toOption_eq_iff {x : Except ε α} {y : Except ε' α} :
    x.toOption = y.toOption ↔ ∀ a, x = .ok a ↔ y = .ok a := by
  constructor
  · intro h a
    rw [← toOption_eq_some, ← toOption_eq_some, h]
  · intro h
    apply Option.ext
    intro a
    rw [toOption_eq_some, toOption_eq_some]
    exact h a

theorem bind_eq_ok {x : Except ε α} {f : α → Except ε β} {b : β} :
    (x >>= f) = .ok b ↔ ∃ a, x = .ok a ∧ f a = .ok b := by
  cases x with
  | error e => simp [bind, Except.bind]
  | ok a => simp [bind, Except.bind]

theorem bind_pure_eq_error {x : Except ε α} {f : α → β} {e : ε} :
    (x >>= fun a => pure (f a)) = .error e ↔ x = .error e := by
  cases x <;> simp [bind, Except.bind, pure, Except.pure]

theorem mapM_singleton_bind (f : α → Except ε β) (a : α) (g : List β → Except ε γ) :
    ([a].mapM f >>= g) = f a >>= fun b => g [b] := by
  rw [List.mapM_cons]
  cases f a <;> rfl

theorem mapM_eq_ok {f : α → Except ε β} {l : List α} {bs : List β} :
    l.mapM f = .ok bs ↔ List.Forall₂ (fun a b => f a = .ok b) l bs := by
  constructor
  · intro h
    induction l generalizing bs with
    | nil =>
      cases h
      exact .nil
    | cons a l ih =>
      rw [List.mapM_cons] at h
      obtain ⟨b, first, h⟩ := bind_eq_ok.1 h
      obtain ⟨rest, others, ⟨⟩⟩ := bind_eq_ok.1 h
      exact .cons first (ih others)
  · intro h
    induction h with
    | nil => rfl
    | cons first _ ih =>
      rw [List.mapM_cons, first, ih]
      rfl

theorem mapM_eq_error {f : α → Except ε β} {l : List α} {e : ε} (h : l.mapM f = .error e) :
    ∃ a ∈ l, f a = .error e := by
  induction l with
  | nil => cases h
  | cons a l ih =>
    rw [List.mapM_cons] at h
    cases first : f a with
    | error e' =>
      rw [first] at h
      cases h
      exact ⟨a, List.mem_cons_self, first⟩
    | ok b =>
      rw [first] at h
      obtain ⟨a', member, failed⟩ := ih (bind_pure_eq_error.1 h)
      exact ⟨a', List.mem_cons_of_mem a member, failed⟩

@[simp] theorem toOption_mapM (f : α → Except ε β) (l : List α) :
    (l.mapM f).toOption = l.mapM fun a => (f a).toOption := by
  induction l with
  | nil => rfl
  | cons a l ih =>
    simp only [List.mapM_cons, toOption_bind, toOption_pure, ih]
    rfl

theorem mapM_guard (p : α → Bool) (l : List α) :
    (l.mapM fun a => if p a then some a else none) = if l.all p then some l else none := by
  induction l with
  | nil => rfl
  | cons a l ih =>
    rw [List.mapM_cons, ih, List.all_cons]
    cases p a <;> cases l.all p <;> rfl

@[simp] theorem toOption_gather (results : List (Except ε α)) :
    (Jobs.gather results).toOption = results.mapM Except.toOption := by
  induction results with
  | nil => rfl
  | cons r results ih =>
    cases r with
    | error e => simp [Jobs.gather]
    | ok a =>
      rw [Jobs.gather, List.mapM_cons, ← ih]
      cases Jobs.gather results <;> rfl

theorem isSome_gather (results : List (Except ε α)) :
    (Jobs.gather results).toOption.isSome = true ↔
      ∀ result ∈ results, result.toOption.isSome = true := by
  induction results with
  | nil => simp [Jobs.gather]
  | cons result results ih =>
    rw [List.forall_mem_cons, ← ih]
    cases result with
    | error e => simp [Jobs.gather]
    | ok a =>
      rw [Jobs.gather]
      cases Jobs.gather results <;> simp

theorem gather_eq_ok {results : List (Except ε α)} {as : List α} :
    Jobs.gather results = .ok as ↔ results = as.map .ok := by
  constructor
  · intro h
    induction results generalizing as with
    | nil =>
      cases h
      rfl
    | cons result results ih =>
      cases result with
      | error e => cases h
      | ok a =>
        rw [Jobs.gather] at h
        cases hr : Jobs.gather results with
        | error e =>
          rw [hr] at h
          cases h
        | ok rest =>
          rw [hr] at h
          cases h
          rw [ih hr, List.map_cons]
  · rintro rfl
    exact Jobs.gather_map_ok as

theorem gather_eq_error {results : List (Except ε α)} {e : ε} :
    Jobs.gather results = .error e ↔
      ∃ (earlier : List α) (later : _), results = earlier.map .ok ++ .error e :: later := by
  constructor
  · intro h
    induction results with
    | nil => cases h
    | cons result results ih =>
      cases result with
      | error e' =>
        cases h
        exact ⟨[], results, rfl⟩
      | ok a =>
        rw [Jobs.gather] at h
        cases hr : Jobs.gather results with
        | ok rest =>
          rw [hr] at h
          cases h
        | error e' =>
          rw [hr] at h
          cases h
          obtain ⟨earlier, later, rfl⟩ := ih hr
          exact ⟨a :: earlier, later, rfl⟩
  · rintro ⟨earlier, later, rfl⟩
    induction earlier with
    | nil => rfl
    | cons a earlier ih => rw [List.map_cons, List.cons_append, Jobs.gather, ih]

@[simp] theorem toOption_onData (x : Except DataError α) : (onData x).toOption = x.toOption := by
  cases x <;> rfl

@[simp] theorem toOption_onStage (x : Except StageFault α) : (onStage x).toOption = x.toOption := by
  match x with
  | .ok _ => rfl
  | .error (.error _) => rfl
  | .error .panicked => rfl

theorem onStage_eq_ok {x : Except StageFault α} {a : α} : onStage x = .ok a ↔ x = .ok a := by
  rw [← toOption_eq_some, toOption_onStage, toOption_eq_some]

@[simp] theorem toOption_onRows (x : Eval α) : (onRows x).toOption = x.toOption := by
  cases x <;> rfl

end RowQuery
