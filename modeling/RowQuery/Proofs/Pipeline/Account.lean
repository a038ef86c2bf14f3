import RowQuery.Proofs.Engine.Tokens
import RowQuery.Proofs.Outcome
import RowQuery.Proofs.Pipeline.Visits

/-!
The account of a run of collectors: how the run ends, from what happens at its units, and what
cancellation leaves undone.
-/

namespace RowQuery.Collector

variable {σ γ β : Type} (c : Collector σ γ β)

/-- What `c` does to the tokens that it looks at is to make new ones and to cancel some. -/
structure Watches (tokens : σ → Tokens) (token : Nat) : Prop where
  isCancelled : ∀ s, c.isCancelled s = (tokens s).isCancelled token
  start : ∀ s, (tokens s).Later (tokens (c.start s).2)
  push : ∀ collector row s, (tokens s).Later (tokens (c.push collector row s).2)
  close : ∀ collector s, (tokens s).Later (tokens (c.close collector s).2)

/-- After the first entry that was made under a cancelled token there are only closings. -/
structure Quiet (r : Record σ β) : Prop where
  closing : ∀ entry ∈ r.log, entry.cancelled = true → ∃ n report, entry.event = .closed n report
  lasting : r.log.Pairwise fun entry later => entry.cancelled = true → later.cancelled = true
  known : ∀ entry ∈ r.log, entry.cancelled = true → c.isCancelled r.state = true

variable {c}

theorem Quiet.enter {r : Record σ β} (h : c.Quiet r) {event : Event β} {s : σ} {made : Nat}
    (stays : c.isCancelled r.state = true → c.isCancelled s = true)
    (closes : c.isCancelled r.state = true → ∃ n report, event = .closed n report) :
    c.Quiet { r.enter (c.isCancelled r.state) event s with made } where
  closing := by
    simp only [Record.enter_log, List.forall_mem_append, List.forall_mem_singleton]
    exact ⟨h.closing, closes⟩
  lasting := by
    simp only [Record.enter_log, List.pairwise_append, List.pairwise_singleton,
      List.forall_mem_singleton, true_and]
    exact ⟨h.lasting, h.known⟩
  known := by
    simp only [Record.enter_log, List.forall_mem_append, List.forall_mem_singleton]
    exact ⟨fun entry hentry cancelled => stays (h.known entry hentry cancelled), stays⟩

theorem Quiet.split {r : Record σ β} (h : c.Quiet r) {before after : List (Entry β)}
    {entry : Entry β} (split : r.log = before ++ entry :: after)
    (cancelled : entry.cancelled = true) :
    ∀ later ∈ entry :: after, ∃ n report, later.event = .closed n report := by
  have inside : ∀ later ∈ entry :: after, later ∈ r.log := fun later hlater => by
    rw [split]
    exact List.mem_append_right _ hlater
  have lasting := h.lasting
  rw [split] at lasting
  obtain ⟨following, -⟩ := List.pairwise_cons.1 (List.pairwise_append.1 lasting).2.1
  intro later hlater
  refine h.closing later (inside later hlater) ?_
  rcases List.mem_cons.1 hlater with rfl | hlater
  · exact cancelled
  · exact following later hlater cancelled

variable {tokens : σ → Tokens} {token : Nat}

namespace Watches

theorem stays (h : c.Watches tokens token) {s s' : σ} (later : (tokens s).Later (tokens s')) :
    c.isCancelled s = true → c.isCancelled s' = true := by
  rw [h.isCancelled, h.isCancelled]
  exact later.isCancelled

theorem quiet (h : c.Watches tokens token) : c.recorded.Upholds c.Quiet where
  start r holds active := by
    have stays := h.stays (h.start r.state)
    simp only [recorded]
    cases hs : c.start r.state with
    | mk result s =>
      rw [hs] at stays
      cases result with
      | ok collector =>
        exact holds.enter stays
          fun cancelled => absurd (active.symm.trans cancelled) Bool.false_ne_true
      | error e =>
        exact holds.enter stays
          fun cancelled => absurd (active.symm.trans cancelled) Bool.false_ne_true
  push collector row r holds active := by
    have stays := h.stays (h.push collector.2 row r.state)
    exact holds.enter stays fun cancelled => absurd (active.symm.trans cancelled) Bool.false_ne_true
  close collector r holds := by
    have stays := h.stays (h.close collector.2 r.state)
    exact holds.enter stays fun _ => ⟨_, _, rfl⟩

end Watches

variable (c tokens token)

/-- What was written down of a run over units from a state on. -/
structure Account (waiting : List Stage) (units : List SourceUnit) (s : σ) (visits : List (Visit β))
    (log : List (Entry β)) : Prop where
  events : log.map Entry.event = visits.flatMap Visit.events
  fits : List.Forall₂ (fun turn visit =>
    visit.Fits ((tokens turn.2).isCancelled token) (turn.1.evaluate (c.store turn.2) waiting))
    (c.turns waiting units s) visits
  pushed :
    List.Forall₂ (fun turn visit => ∀ rows, turn.1.evaluate (c.store turn.2) waiting = .ok rows →
    visit.events.filterMap Event.row? <+: rows) (c.turns waiting units s) visits
  /-- A collector that is opened is closed once, and then nothing more is done with it. -/
  closed : ∀ n, .opened n ∈ log.map Entry.event → ∃ before report after,
    log.map Entry.event = before ++ .closed n report :: after ∧
      (∀ report, .closed n report ∉ before) ∧ ∀ event ∈ after, event.collector? ≠ some n
  /-- Once the token is cancelled, collectors that are still open are closed, and nothing else is
  done. -/
  quiet : ∀ before entry after, log = before ++ entry :: after → entry.cancelled = true →
    ∀ later ∈ entry :: after, ∃ n report, later.event = .closed n report

variable {c tokens token}

theorem forall₂_reports {visits : List (Visit β)} {reports : List (List β)} :
    List.Forall₂ Visit.Reports visits reports ↔
      Jobs.gather (visits.map Visit.result) = .ok reports := by
  rw [gather_eq_ok, ← List.forall₂_eq_eq_eq, List.forall₂_map_left_iff, List.forall₂_map_right_iff]
  constructor
  · exact List.Forall₂.imp fun visit report => (visit.reports_iff report).1
  · exact List.Forall₂.imp fun visit report => (visit.reports_iff report).2

theorem recorded_runUnits (watches : c.Watches tokens token) (waiting : List Stage)
    (units : List SourceUnit) (s : σ) :
    ∃ visits made log, c.recorded.runUnits units waiting { state := s }
        = ((c.runUnits units waiting s).1, ⟨(c.runUnits units waiting s).2, made, log⟩) ∧
      c.Account tokens token waiting units s visits log ∧
      ∀ out, (c.runUnits units waiting s).1 = .ok out ↔
        ∃ reports, out = reports.flatten ∧ List.Forall₂ Visit.Reports visits reports := by
  obtain ⟨visits, entries, made, ran, plain, events, fits, numbered⟩ :=
    c.recorded_runEach waiting units { state := s }
  have quiet :
      c.Quiet (Jobs.runEach { state := s } (units.map (c.recorded.runUnit waiting))).2 := by
    refine runEach_induction
      (List.forall_mem_map.2 fun unit _ r => watches.quiet.runUnit waiting unit) ?_
    exact ⟨by simp, .nil, by simp⟩
  rw [ran] at quiet
  refine ⟨visits, made, entries, ?_, ⟨events, ?_, ?_, ?_, fun _ _ _ => quiet.split⟩, fun out => ?_⟩
  · rw [runUnits, runUnits, Jobs.runAll, Jobs.runAll, ran]
    simp only [plain]
    cases Jobs.gather (visits.map Visit.result) <;> rfl
  · simpa only [watches.isCancelled] using fits
  · exact fits.imp fun turn visit fit rows found => Visit.Fits.pushed (found ▸ fit)
  · rw [events]
    exact fun n => numbered.closed
  · simp only [forall₂_reports]
    rw [runUnits, Jobs.runAll]
    simp only [plain]
    cases Jobs.gather (visits.map Visit.result) with
    | error e => simp
    | ok reports => simp [eq_comm]

/-- A run of collectors, as it is written down: it opens nothing when the token is already cancelled
or the rows cannot be computed up to the last wide stage. Else the units are visited in their order,
and it succeeds when nothing goes wrong at any of them. -/
theorem run_accounted (watches : c.Watches tokens token) (p : Pipeline) (s : σ) :
    ((tokens s).isCancelled token = true →
      c.run p s = (.error .cancelled, s) ∧
      c.recorded.run p { state := s } = (.error .cancelled, { state := s })) ∧
    ((tokens s).isCancelled token = false → ∀ e, p.prepare (c.store s) = .error e →
      c.run p s = (.error e, s) ∧ c.recorded.run p { state := s } = (.error e, { state := s })) ∧
    ((tokens s).isCancelled token = false →
      ∀ units waiting, p.prepare (c.store s) = .ok (units, waiting) →
      ∃ visits made log,
        c.recorded.run p { state := s } = ((c.run p s).1, ⟨(c.run p s).2, made, log⟩) ∧
        c.Account tokens token waiting units s visits log ∧
        ∀ out, (c.run p s).1 = .ok out ↔
          ∃ reports, out = reports.flatten ∧ List.Forall₂ Visit.Reports visits reports) := by
  have seen : c.recorded.isCancelled { state := s } = (tokens s).isCancelled token :=
    watches.isCancelled s
  refine ⟨fun cancelled => ?_, fun active e failed => ?_, fun active units waiting prepared => ?_⟩
  · rw [run, run, seen, watches.isCancelled, cancelled]
    exact ⟨rfl, rfl⟩
  · have failed' : p.prepare (c.recorded.store { state := s }) = .error e := failed
    rw [run, run, seen, watches.isCancelled, active, failed, failed']
    exact ⟨rfl, rfl⟩
  · have prepared' : p.prepare (c.recorded.store { state := s }) = .ok (units, waiting) := prepared
    rw [run, run, seen, watches.isCancelled, active, prepared, prepared']
    exact recorded_runUnits watches waiting units s

theorem run_accounted_tripwire :
    let row (i : Int64) : Row := NameMap.empty.insert "n" (.int i)
    let c : Collector Tokens (List Row) Row :=
      { store := fun _ => .memory {}
        isCancelled := fun t => t.isCancelled 1
        start := fun t => (.ok [], t)
        push := fun taken next t =>
          if next = row 2 then ((taken, .error .stopped), t)
          else if next = row 3 then ((taken ++ [next], .ok ()), t.cancel 0)
          else ((taken ++ [next], .ok ()), t)
        close := fun taken t => (.ok taken, t) }
    let t : Tokens := (Tokens.root {}).derive 0
    let units := [[row 1], [row 2, row 4], [row 3, row 4], [row 1]].map SourceUnit.rows
    let p : Pipeline := .new (.memory [[row 1], [row 2, row 4], [row 3, row 4], [row 1]]) 4
    c.Watches id 1 ∧ t.isCancelled 1 = false ∧ p.prepare (c.store t) = .ok (units, []) ∧
      (c.run p t).1 = .error .stopped ∧
      ∃ visits made log,
        c.recorded.run p { state := t } = ((c.run p t).1, ⟨(c.run p t).2, made, log⟩) ∧
        c.Account id 1 [] units t visits log ∧ made = 3 ∧
        log.map Entry.event = [.opened 0, .pushed 0 (row 1) (.ok ()), .closed 0 (.ok [row 1]),
          .opened 1, .pushed 1 (row 2) (.error .stopped), .closed 1 (.ok []),
          .opened 2, .pushed 2 (row 3) (.ok ()), .closed 2 (.ok [row 3])] := by
  intro row c t units p
  have watches : c.Watches id 1 :=
    { isCancelled := fun _ => rfl
      start := fun s => .refl s
      push := by
        intro taken next s
        change s.Later (c.push taken next s).2
        simp only [c]
        split
        · exact .refl s
        · split
          · exact s.later_cancel 0
          · exact .refl s
      close := fun _ s => .refl s }
  have active : t.isCancelled 1 = false := by decide +kernel
  have prepared : p.prepare (c.store t) = .ok (units, []) := rfl
  obtain ⟨visits, made, log, ran, account, -⟩ :=
    (run_accounted watches p t).2.2 active units [] prepared
  have number : (c.recorded.run p { state := t }).2.made = 3 := by decide +kernel
  have events : (c.recorded.run p { state := t }).2.log.map Entry.event
    = [.opened 0, .pushed 0 (row 1) (.ok ()),
      .closed 0 (.ok [row 1]), .opened 1, .pushed 1 (row 2) (.error .stopped),
        .closed 1 (.ok []), .opened 2,
      .pushed 2 (row 3) (.ok ()), .closed 2 (.ok [row 3])] := by
    decide +kernel
  rw [ran] at number events
  exact ⟨watches, active, prepared, by decide +kernel, visits, made, log, ran, account, number,
    events⟩

end RowQuery.Collector
