import RowQuery.Proofs.Outcome

/-!
Stages that may as well treat the rows part by part. Filters and maps do, whether or not they fail
on some row, and so does a row of stages that do.
-/

namespace RowQuery

variable {α β γ : Type}

/-- The whole list succeeds when its parts do, and then gives what they give, in their order. -/
structure PartWise (f : List α → Option (List β)) : Prop where
  nil : f [] = some []
  append (xs ys : List α) : f (xs ++ ys) = (f xs).bind fun as => (f ys).map (as ++ ·)

namespace PartWise

theorem some_id : PartWise (some : List α → Option (List α)) where
  nil := rfl
  append _ _ := rfl

theorem mapM (f : α → Option β) : PartWise (List.mapM f) where
  nil := rfl
  append xs ys := by
    rw [List.mapM_append]
    cases xs.mapM f <;> cases ys.mapM f <;> rfl

theorem bind {f : List α → Option (List β)} {g : List β → Option (List γ)} (hf : PartWise f)
    (hg : PartWise g) :
    PartWise fun xs => (f xs).bind g where
  nil := by simp [hf.nil, hg.nil]
  append xs ys := by
    rw [hf.append]
    cases f xs with
    | none => rfl
    | some as =>
      cases f ys with
      | none => cases h : g as <;> simp [h]
      | some bs => simp [hg.append]

/-- The parts may come from computations that fail: loading a part and treating it at once succeeds
when all parts load and the joined parts can be treated. -/
theorem flatten_mapM_bind {f : List β → Option (List γ)} (hf : PartWise f)
    (load : α → Option (List β)) (units : List α) :
    (units.mapM fun u => (load u).bind f).map List.flatten
      = ((units.mapM load).map List.flatten).bind f := by
  induction units with
  | nil => exact hf.nil.symm
  | cons u units ih =>
    rw [List.mapM_cons, List.mapM_cons]
    cases hu : load u with
    | none => rfl
    | some part =>
      cases hl : units.mapM load with
      | none =>
        rw [hl] at ih
        have none_rest : (units.mapM fun u => (load u).bind f) = none := Option.map_eq_none_iff.1 ih
        simp [none_rest]
      | some parts =>
        rw [hl] at ih
        change _ = f (part ++ parts.flatten)
        rw [hf.append, show f parts.flatten = _ from ih.symm]
        change ((f part).bind fun as => _).map _ = _
        cases f part with
        | none => rfl
        | some as => cases units.mapM fun u => (load u).bind f <;> rfl

end PartWise

theorem filterRows_append (keeps : Row → Eval Bool) (xs ys : List Row) :
    filterRows keeps (xs ++ ys) = do
      let kept ← filterRows keeps xs
      let rest ← filterRows keeps ys
      return kept ++ rest := by
  induction xs with
  | nil =>
    change filterRows keeps ys = filterRows keeps ys >>= fun rest => pure rest
    rw [bind_pure]
  | cons row xs ih =>
    rw [List.cons_append, filterRows, filterRows, ih]
    cases keeps row with
    | error e => rfl
    | ok kept =>
      cases filterRows keeps xs with
      | error e => rfl
      | ok as =>
        cases filterRows keeps ys with
        | error e => rfl
        | ok bs => cases kept <;> rfl

theorem partWise_filterRows (keeps : Row → Eval Bool) :
    PartWise fun rows => (filterRows keeps rows).toOption where
  nil := rfl
  append xs ys := by
    rw [filterRows_append]
    cases filterRows keeps xs <;> cases filterRows keeps ys <;> rfl

theorem toOption_filterRows (keeps : Row → Eval Bool) (rows : List Row) :
    (filterRows keeps rows).toOption =
    if ∀ row ∈ rows, (keeps row).toOption.isSome
      then some (rows.filter fun row => (keeps row).toOption = some true)
    else none := by
  induction rows with
  | nil => rfl
  | cons row rows ih =>
    rw [filterRows, toOption_bind]
    cases told : keeps row with
    | error fault => simp [told]
    | ok kept =>
      simp only [toOption_bind, ih, toOption_ok, Option.bind_some]
      by_cases rest : ∀ row ∈ rows, (keeps row).toOption.isSome
      · rw [if_pos rest, if_pos (List.forall_mem_cons.2 ⟨by rw [told]; rfl, rest⟩),
          List.filter_cons, told]
        cases kept <;> rfl
      · rw [if_neg rest, if_neg fun all => rest (List.forall_mem_cons.1 all).2]
        rfl

namespace Stage

def IsStandard : Stage → Prop
  | custom _ _ _ => False
  | _ => True

theorem IsStandard.partWise {stage : Stage} (standard : stage.IsStandard)
    (narrow : stage.scope = .narrow) : PartWise fun rows => (stage.eval rows).toOption := by
  cases stage with
  | filter keeps => simpa [eval] using partWise_filterRows keeps
  | map f => simpa [eval] using PartWise.mapM fun row => (f row).toOption
  | distinct => cases narrow
  | take count => cases narrow
  | sort keys => cases narrow
  | custom name scope f => cases standard

end Stage

theorem runStages_append (stages rest : List Stage) (rows : List Row) :
    runStages (stages ++ rest) rows = runStages stages rows >>= runStages rest := by
  induction stages generalizing rows with
  | nil => rfl
  | cons stage stages ih =>
    rw [List.cons_append, runStages, runStages, bind_assoc]
    congr 1
    funext rows
    exact ih rows

theorem partWise_runStages {stages : List Stage}
    (h : ∀ stage ∈ stages, PartWise fun rows => (stage.eval rows).toOption) :
    PartWise fun rows => (runStages stages rows).toOption := by
  induction stages with
  | nil => exact PartWise.some_id
  | cons stage stages ih =>
    obtain ⟨head, tail⟩ := List.forall_mem_cons.1 h
    simpa [runStages] using head.bind (ih tail)

end RowQuery
