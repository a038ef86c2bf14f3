import RowQuery.Engine.Jobs
import RowQuery.Engine.Workspace

/-!
Actions taken apart: what an action does to a state is what its first part does to it, and then what
its second part does to the state that the first one leaves.
-/

namespace RowQuery

variable {σ ε α β : Type}

theorem run_bind (x : ExceptT ε (StateM σ) α) (f : α → ExceptT ε (StateM σ) β) (s : σ) :
    (x >>= f) s = match x s with
      | (.ok a, s) => f a s
      | (.error e, s) => (.error e, s) := by
  cases h : x s with
  | mk result s' =>
    change (ExceptT.bindCont f (x s).1) (x s).2 = _
    rw [h]
    cases result <;> rfl

theorem run_bind_ok {x : ExceptT ε (StateM σ) α} {s s' : σ} {a : α} (h : x s = (.ok a, s'))
    (f : α → ExceptT ε (StateM σ) β) : (x >>= f) s = f a s' := by
  rw [run_bind, h]

theorem run_bind_error {x : ExceptT ε (StateM σ) α} {s s' : σ} {e : ε} (h : x s = (.error e, s'))
    (f : α → ExceptT ε (StateM σ) β) : (x >>= f) s = (.error e, s') := by
  rw [run_bind, h]

theorem snd_bind_pure (x : ExceptT ε (StateM σ) α) (g : α → β) (s : σ) :
    ((x >>= fun a => pure (g a)) s).2 = (x s).2 := by
  rw [run_bind]
  cases x s with
  | mk result s' => cases result <;> rfl

@[simp] theorem run_modify (f : σ → σ) (s : σ) :
    (modify f : ExceptT ε (StateM σ) PUnit) s = (.ok ⟨⟩, f s) := rfl

/-- What `f` reads of the state is the same after the action, also when it fails. -/
def Keeps {τ : Type} (f : σ → τ) (x : ExceptT ε (StateM σ) α) : Prop := ∀ s, f (x s).2 = f s

namespace Keeps

variable {τ : Type} {f : σ → τ}

theorem bind {x : ExceptT ε (StateM σ) α} {next : α → ExceptT ε (StateM σ) β} (hx : Keeps f x)
    (hnext : ∀ a, Keeps f (next a)) : Keeps f (x >>= next) := by
  intro s
  rw [run_bind, ← hx s]
  cases x s with
  | mk result s' =>
    cases result with
    | error e => rfl
    | ok a => exact hnext a s'

theorem comp {υ : Type} {x : ExceptT ε (StateM σ) α} (hx : Keeps f x) (g : τ → υ) :
    Keeps (fun s => g (f s)) x :=
  fun s => congrArg g (hx s)

theorem pure (a : α) : Keeps f (Pure.pure a : ExceptT ε (StateM σ) α) := fun _ => rfl

end Keeps

theorem runEach_cons (job : ExceptT ε (StateM σ) α) (jobs : List (ExceptT ε (StateM σ) α)) (s : σ) :
    Jobs.runEach s (job :: jobs)
      = ((job s).1 :: (Jobs.runEach (job s).2 jobs).1, (Jobs.runEach (job s).2 jobs).2) := rfl

theorem runEach_induction {P : σ → Prop} {jobs : List (ExceptT ε (StateM σ) α)}
    (h : ∀ job ∈ jobs, ∀ s, P s → P (job s).2) {s : σ} (holds : P s) :
    P (Jobs.runEach s jobs).2 := by
  induction jobs generalizing s with
  | nil => exact holds
  | cons job jobs ih =>
    obtain ⟨head, tail⟩ := List.forall_mem_cons.1 h
    exact ih tail (head s holds)

theorem Keeps.runAll {τ : Type} {f : σ → τ} {jobs : List (ExceptT ε (StateM σ) α)}
    (h : ∀ job ∈ jobs, Keeps f job) : Keeps f (Jobs.runAll jobs) := by
  intro s
  have kept : ∀ job ∈ jobs, ∀ t, f t = f s → f (job t).2 = f s :=
    fun job hjob t same => (h job hjob t).trans same
  exact runEach_induction (P := fun t => f t = f s) kept rfl

end RowQuery
