import RowQuery.Pipeline.Run

/-!
Sending the rows of a pipeline to collectors, one for each unit that the last wide stage leaves.
Cancellation is looked for before a unit starts and before each row. A collector that was opened is
closed, also when its worker stops early.
-/

namespace RowQuery

/-- How rows are collected: `σ` is the state that collectors share, `γ` a collector and `β` what it
reports. A push gives the collector back also when it is refused. -/
structure Collector (σ γ β : Type) where
  store : σ → Store
  isCancelled : σ → Bool
  start : ExceptT RunError (StateM σ) γ
  push : γ → Row → StateM σ (γ × Except RunError Unit)
  close : γ → ExceptT RunError (StateM σ) (List β)

namespace Collector

variable {σ γ β : Type} (c : Collector σ γ β)

/-- Pushes the rows and closes. A refused push hides what closing says. -/
def pushAll (collector : γ) : List Row → ExceptT RunError (StateM σ) (List β)
  | [] => c.close collector
  | row :: rest => fun s =>
    if c.isCancelled s then
      match c.close collector s with
      | (.ok _, s) => (.error .cancelled, s)
      | (.error e, s) => (.error e, s)
    else
      match c.push collector row s with
      | ((collector, .ok _), s) => pushAll collector rest s
      | ((collector, .error e), s) => (.error e, (c.close collector s).2)

def runUnit (waiting : List Stage) (unit : SourceUnit) :
    ExceptT RunError (StateM σ) (List β) := fun s =>
  if c.isCancelled s then (.error .cancelled, s)
  else
    match unit.evaluate (c.store s) waiting with
    | .error e => (.error e, s)
    | .ok rows =>
      match c.start s with
      | (.error e, s) => (.error e, s)
      | (.ok collector, s) => c.pushAll collector rows s

def runUnits (units : List SourceUnit) (waiting : List Stage) :
    ExceptT RunError (StateM σ) (List β) := fun s =>
  match Jobs.runAll (units.map (c.runUnit waiting)) s with
  | (.ok reports, s) => (.ok reports.flatten, s)
  | (.error e, s) => (.error e, s)

def run (p : Pipeline) : ExceptT RunError (StateM σ) (List β) := fun s =>
  if c.isCancelled s then (.error .cancelled, s)
  else
    match p.prepare (c.store s) with
    | .error e => (.error e, s)
    | .ok (units, waiting) => c.runUnits units waiting s

end Collector

end RowQuery
