import RowQuery.Pipeline.Collect
import RowQuery.Proofs.Engine.Workspace
import RowQuery.Proofs.Outcome

/-!
What a run of collectors upholds: all that opening, pushing and closing uphold. What these three
leave alone is left alone by the run.
-/

namespace RowQuery.Collector

variable {σ γ β τ : Type} (c : Collector σ γ β)

theorem pushAll_cons {s : σ} (active : c.isCancelled s = false) (collector : γ) (row : Row)
    (rows : List Row) :
    c.pushAll collector (row :: rows) s = match c.push collector row s with
      | ((next, .ok _), s') => c.pushAll next rows s'
      | ((next, .error e), s') => (.error e, (c.close next s').2) := by
  have going : ¬ c.isCancelled s = true := by simp [active]
  rw [Collector.pushAll]
  exact if_neg going

theorem pushAll_cancelled {s : σ} (cancelled : c.isCancelled s = true) (collector : γ) (row : Row)
    (rows : List Row) :
    c.pushAll collector (row :: rows) s
      = ((c.close collector s).1.bind fun _ => .error .cancelled, (c.close collector s).2) := by
  rw [Collector.pushAll]
  refine (if_pos cancelled).trans ?_
  cases c.close collector s with
  | mk report s' => cases report <;> rfl

theorem runUnit_cancelled {s : σ} (cancelled : c.isCancelled s = true) (waiting : List Stage)
    (unit : SourceUnit) : c.runUnit waiting unit s = (.error .cancelled, s) := by
  rw [Collector.runUnit]
  exact if_pos cancelled

theorem runUnit_active {s : σ} (active : c.isCancelled s = false) (waiting : List Stage)
    (unit : SourceUnit) :
    c.runUnit waiting unit s = match unit.evaluate (c.store s) waiting with
      | .error e => (.error e, s)
      | .ok rows => match c.start s with
        | (.error e, s') => (.error e, s')
        | (.ok collector, s') => c.pushAll collector rows s' := by
  have going : ¬ c.isCancelled s = true := by simp [active]
  rw [Collector.runUnit]
  exact if_neg going

theorem runUnits_eq (units : List SourceUnit) (waiting : List Stage) (s : σ) :
    c.runUnits units waiting s
      = (List.flatten <$> Jobs.gather (Jobs.runEach s (units.map (c.runUnit waiting))).1,
      (Jobs.runEach s (units.map (c.runUnit waiting))).2) := by
  rw [Collector.runUnits, Jobs.runAll]
  cases Jobs.runEach s (units.map (c.runUnit waiting)) with
  | mk results s' =>
    dsimp only
    cases Jobs.gather results <;> rfl

theorem run_active {p : Pipeline} {s : σ} (active : c.isCancelled s = false)
    {units : List SourceUnit} {waiting : List Stage}
    (prepared : p.prepare (c.store s) = .ok (units, waiting)) :
    c.run p s = c.runUnits units waiting s := by
  have going : ¬ c.isCancelled s = true := by simp [active]
  rw [Collector.run]
  refine (if_neg going).trans ?_
  rw [prepared]

theorem run_eq_ok {p : Pipeline} {s s' : σ} {out : List β} (ran : c.run p s = (.ok out, s')) :
    c.isCancelled s = false ∧
    ∃ units waiting, ∃ reports : List (List β), p.prepare (c.store s) = .ok (units, waiting) ∧
      Jobs.runEach s (units.map (c.runUnit waiting)) = (reports.map .ok, s') ∧
      out = reports.flatten := by
  rw [Collector.run] at ran
  cases active : c.isCancelled s with
  | true =>
    rw [active, if_pos rfl] at ran
    cases ran
  | false =>
    rw [active, if_neg Bool.false_ne_true] at ran
    cases prepared : p.prepare (c.store s) with
    | error e =>
      rw [prepared] at ran
      cases ran
    | ok left =>
      obtain ⟨units, waiting⟩ := left
      rw [prepared] at ran
      dsimp only at ran
      rw [c.runUnits_eq, Prod.mk.injEq] at ran
      obtain ⟨reported, rfl⟩ := ran
      cases gathered : Jobs.gather (Jobs.runEach s (units.map (c.runUnit waiting))).1 with
      | error e =>
        rw [gathered] at reported
        cases reported
      | ok reports =>
        rw [gathered] at reported
        cases reported
        exact ⟨rfl, units, waiting, reports, rfl, Prod.ext (gather_eq_ok.1 gathered) rfl, rfl⟩

/-- Nothing that the collector does puts an end to `I`. It is opened and pushed to only while its
token is not cancelled. -/
structure Upholds (I : σ → Prop) : Prop where
  start : ∀ s, I s → c.isCancelled s = false → I (c.start s).2
  push : ∀ collector row s, I s → c.isCancelled s = false → I (c.push collector row s).2
  close : ∀ collector s, I s → I (c.close collector s).2

variable {c} {I : σ → Prop}

theorem Upholds.pushAll (h : c.Upholds I) (collector : γ) (rows : List Row) {s : σ} (holds : I s) :
    I (c.pushAll collector rows s).2 := by
  induction rows generalizing collector s with
  | nil => exact h.close collector s holds
  | cons row rows ih =>
    simp only [Collector.pushAll]
    cases hc : c.isCancelled s with
    | true =>
      have closed := h.close collector s holds
      rw [if_pos rfl]
      cases hr : c.close collector s with
      | mk result s' =>
        rw [hr] at closed
        cases result <;> exact closed
    | false =>
      have pushed := h.push collector row s holds hc
      rw [if_neg Bool.false_ne_true]
      cases hp : c.push collector row s with
      | mk taken s' =>
        obtain ⟨collector', result⟩ := taken
        rw [hp] at pushed
        cases result with
        | error e => exact h.close collector' s' pushed
        | ok _ => exact ih collector' pushed

theorem Upholds.runUnit (h : c.Upholds I) (waiting : List Stage) (unit : SourceUnit) {s : σ}
    (holds : I s) : I (c.runUnit waiting unit s).2 := by
  rw [Collector.runUnit]
  cases hc : c.isCancelled s with
  | true => exact holds
  | false =>
    rw [if_neg Bool.false_ne_true]
    cases unit.evaluate (c.store s) waiting with
    | error e => exact holds
    | ok rows =>
      have started := h.start s holds hc
      cases hs : c.start s with
      | mk result s' =>
        rw [hs] at started
        cases result with
        | error e => exact started
        | ok collector => exact h.pushAll collector rows started

theorem run_induction {P : σ → Prop}
    (units : ∀ waiting unit s, P s → P (c.runUnit waiting unit s).2) (p : Pipeline) {s : σ}
    (holds : P s) : P (c.run p s).2 := by
  rw [Collector.run]
  split
  · exact holds
  · cases p.prepare (c.store s) with
    | error e => exact holds
    | ok prepared =>
      obtain ⟨list, waiting⟩ := prepared
      have ran : P (Jobs.runEach s (list.map (c.runUnit waiting))).2 :=
        runEach_induction (List.forall_mem_map.2 fun unit _ => units waiting unit) holds
      change P (c.runUnits list waiting s).2
      rw [Collector.runUnits, Jobs.runAll]
      cases hr : Jobs.runEach s (list.map (c.runUnit waiting)) with
      | mk results s' =>
        rw [hr] at ran
        dsimp only
        cases Jobs.gather results <;> exact ran

theorem Upholds.run (h : c.Upholds I) (p : Pipeline) {s : σ} (holds : I s) : I (c.run p s).2 :=
  run_induction (fun waiting unit _ => h.runUnit waiting unit) p holds

variable (c) {f : σ → τ}

structure Keeps (f : σ → τ) : Prop where
  start : RowQuery.Keeps f c.start
  push : ∀ collector row s, f (c.push collector row s).2 = f s
  close : ∀ collector, RowQuery.Keeps f (c.close collector)

variable {c}

theorem Keeps.upholds (h : c.Keeps f) (x : τ) : c.Upholds fun s => f s = x where
  start s holds _ := (h.start s).trans holds
  push collector row s holds _ := (h.push collector row s).trans holds
  close collector s holds := (h.close collector s).trans holds

theorem Keeps.run (h : c.Keeps f) (p : Pipeline) : RowQuery.Keeps f (c.run p) :=
  fun s => (h.upholds (f s)).run p rfl

end RowQuery.Collector
