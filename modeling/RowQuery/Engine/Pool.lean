import Mathlib.Logic.Relation
import RowQuery.Engine.Jobs

/-!
A pool of workers. Jobs are launched in their order and at most a bound of them run at a time; those
that run take their steps in any order, on a state that all of them share.
-/

namespace RowQuery

inductive Job (σ ε α : Type)
  | done : Except ε α → Job σ ε α
  | step : (σ → Job σ ε α × σ) → Job σ ε α

namespace Pool

variable {σ ε α : Type}

inductive Slot (σ ε α : Type)
  | waiting : Job σ ε α → Slot σ ε α
  | running : Job σ ε α → Slot σ ε α
  | finished : Except ε α → Slot σ ε α

def Slot.isWaiting : Slot σ ε α → Bool
  | waiting _ => true
  | _ => false

def Slot.isRunning : Slot σ ε α → Bool
  | running _ => true
  | _ => false

inductive Step (bound : Nat) : List (Slot σ ε α) × σ → List (Slot σ ε α) × σ → Prop
  | launch {before after job s} : (∀ slot ∈ before, slot.isWaiting = false) →
      before.countP Slot.isRunning < bound →
      Step bound (before ++ .waiting job :: after, s) (before ++ .running job :: after, s)
  | work {before after f s} :
      Step bound (before ++ .running (.step f) :: after, s)
        (before ++ .running (f s).1 :: after, (f s).2)
  | finish {before after result s} :
      Step bound (before ++ .running (.done result) :: after, s)
        (before ++ .finished result :: after, s)

/-- The jobs can run from one state to another so that they end with the given results. -/
def Runs (bound : Nat) (jobs : List (Job σ ε α)) (s : σ) (results : List (Except ε α)) (s' : σ) :
    Prop :=
  Relation.ReflTransGen (Step bound) (jobs.map .waiting, s) (results.map .finished, s')

end Pool

end RowQuery
