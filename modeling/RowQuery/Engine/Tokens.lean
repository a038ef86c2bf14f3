/-!
Cancellation tokens. A token may be derived from an earlier one, its parent; it is cancelled when it
or a token on the way to the root was cancelled.
-/

namespace RowQuery

structure TokenNode where
  flag : Bool := false
  parent : Option Nat := none
  deriving DecidableEq, Inhabited

structure Tokens where
  nodes : List TokenNode := []
  parent_lt : ∀ (i : Nat) (h : i < nodes.length) (p : Nat), nodes[i].parent = some p → p < i := by
    exact fun i h => absurd h (Nat.not_lt_zero i)

namespace Tokens

def size (t : Tokens) : Nat := t.nodes.length

def root (t : Tokens) : Tokens where
  nodes := t.nodes ++ [{}]
  parent_lt i h p hp := by
    rw [List.getElem_append] at hp
    split at hp
    · exact t.parent_lt i _ p hp
    · simp at hp

def derive (t : Tokens) (parent : Nat) : Tokens where
  nodes := t.nodes ++ [{ parent := if parent < t.nodes.length then some parent else none }]
  parent_lt i h p hp := by
    rw [List.getElem_append] at hp
    split at hp
    · exact t.parent_lt i _ p hp
    · simp at hp
      omega

def cancel (t : Tokens) (token : Nat) : Tokens where
  nodes := t.nodes.modify token fun node => { node with flag := true }
  parent_lt i h p hp := by
    rw [List.getElem_modify] at hp
    refine t.parent_lt i (by simpa using h) p ?_
    split at hp <;> simpa using hp

def isCancelled (t : Tokens) (token : Nat) : Bool :=
  if h : token < t.nodes.length then
    match hp : t.nodes[token].parent with
    | none => t.nodes[token].flag
    | some p => t.nodes[token].flag || t.isCancelled p
  else false
termination_by token
decreasing_by exact t.parent_lt token h p hp

end Tokens

end RowQuery
