import Mathlib.Data.List.Forall2
import RowQuery.Proofs.Pipeline.Collect

/-!
The visits of a run of collectors: what happens at one unit after the other, as it is seen by one
who writes down every opening, every push and every closing.
-/

namespace RowQuery.Collector

variable {σ γ β : Type}

/-- What is seen of collectors, which are numbered in the order in which they are made. -/
inductive Event (β : Type)
  | opened (collector : Nat) : Event β
  | unopened (fault : RunError) : Event β
  | pushed (collector : Nat) (row : Row) (result : Except RunError Unit) : Event β
  | closed (collector : Nat) (report : Except RunError (List β)) : Event β
  deriving DecidableEq

def Event.collector? : Event β → Option Nat
  | opened n | pushed n _ _ | closed n _ => some n
  | unopened _ => none

def Event.row? : Event β → Option Row
  | pushed _ row _ => some row
  | _ => none

structure Entry (β : Type) where
  cancelled : Bool
  event : Event β

structure Record (σ β : Type) where
  state : σ
  made : Nat := 0
  log : List (Entry β) := []

def Record.enter (r : Record σ β) (cancelled : Bool) (event : Event β) (s : σ) : Record σ β :=
  { r with state := s, log := r.log ++ [⟨cancelled, event⟩] }

@[simp] theorem Record.enter_state (r : Record σ β) (cancelled : Bool) (event : Event β) (s : σ) :
    (r.enter cancelled event s).state = s := rfl

@[simp] theorem Record.enter_made (r : Record σ β) (cancelled : Bool) (event : Event β) (s : σ) :
    (r.enter cancelled event s).made = r.made := rfl

@[simp] theorem Record.enter_log (r : Record σ β) (cancelled : Bool) (event : Event β) (s : σ) :
    (r.enter cancelled event s).log = r.log ++ [⟨cancelled, event⟩] := rfl

/-- The collector, and an entry for all that is done with it. -/
def recorded (c : Collector σ γ β) : Collector (Record σ β) (Nat × γ) β where
  store r := c.store r.state
  isCancelled r := c.isCancelled r.state
  start r :=
    match c.start r.state with
    | (.ok collector, s) =>
      (.ok (r.made, collector),
        { r.enter (c.isCancelled r.state) (.opened r.made) s with made := r.made + 1 })
    | (.error e, s) => (.error e, r.enter (c.isCancelled r.state) (.unopened e) s)
  push collector row r :=
    match c.push collector.2 row r.state with
    | ((next, result), s) =>
      (((collector.1, next), result),
        r.enter (c.isCancelled r.state) (.pushed collector.1 row result) s)
  close collector r :=
    match c.close collector.2 r.state with
    | (report, s) => (report, r.enter (c.isCancelled r.state) (.closed collector.1 report) s)

inductive Ending
  | complete : Ending
  | cancelled : Ending
  | refused (row : Row) (fault : RunError) : Ending

namespace Ending

def events (n : Nat) : Ending → List (Event β)
  | complete | cancelled => []
  | refused row fault => [.pushed n row (.error fault)]

def result (report : Except RunError (List β)) : Ending → Except RunError (List β)
  | complete => report
  | cancelled => report.bind fun _ => .error .cancelled
  | refused _ fault => .error fault

def Fits (rows taken : List Row) : Ending → Prop
  | complete => taken = rows
  | cancelled => ∃ row rest, rows = taken ++ row :: rest
  | refused row _ => ∃ rest, rows = taken ++ row :: rest

theorem Fits.cons {rows taken : List Row} {ending : Ending}
    (h : ending.Fits rows taken) (row : Row) : ending.Fits (row :: rows) (row :: taken) := by
  cases ending with
  | complete => exact congrArg (row :: ·) h
  | cancelled =>
    obtain ⟨next, rest, rfl⟩ := h
    exact ⟨next, rest, rfl⟩
  | refused last fault =>
    obtain ⟨rest, rfl⟩ := h
    exact ⟨rest, rfl⟩

end Ending

inductive Visit (β : Type)
  | passedOver : Visit β
  | unread (fault : RunError) : Visit β
  | unopened (fault : RunError) : Visit β
  | collected (collector : Nat) (taken : List Row) (ending : Ending)
      (report : Except RunError (List β)) : Visit β

namespace Visit

def collector? : Visit β → Option Nat
  | collected n _ _ _ => some n
  | _ => none

def filling (n : Nat) (taken : List Row) (ending : Ending) (report : Except RunError (List β)) :
    List (Event β) :=
  taken.map (fun row => .pushed n row (.ok ())) ++ ending.events n ++ [.closed n report]

def events : Visit β → List (Event β)
  | passedOver | unread _ => []
  | unopened fault => [.unopened fault]
  | collected n taken ending report => .opened n :: filling n taken ending report

def result : Visit β → Except RunError (List β)
  | passedOver => .error .cancelled
  | unread fault | unopened fault => .error fault
  | collected _ _ ending report => ending.result report

/-- A unit is passed over when the token is cancelled as its turn comes, and only then. It gets no
collector when its rows cannot be computed; else it is asked for one, which takes the rows in their
order. -/
def Fits (cancelled : Bool) (rows : Except RunError (List Row)) : Visit β → Prop
  | passedOver => cancelled = true
  | unread fault => cancelled = false ∧ rows = .error fault
  | unopened _ => cancelled = false ∧ ∃ all, rows = .ok all
  | collected _ taken ending _ => cancelled = false ∧ ∃ all, rows = .ok all ∧ ending.Fits all taken

def Reports : Visit β → List β → Prop
  | collected _ _ .complete (.ok found), report => found = report
  | _, _ => False

theorem filterMap_filling (n : Nat) (taken : List Row) (ending : Ending)
    (report : Except RunError (List β)) :
    (filling n taken ending report).filterMap Event.row?
      = taken ++ (ending.events (β := β) n).filterMap Event.row? := by
  have pushes :
      (taken.map fun row => Event.pushed (β := β) n row (.ok ())).filterMap Event.row? = taken := by
    rw [List.filterMap_map]
    exact List.filterMap_some
  rw [filling, List.filterMap_append, List.filterMap_append, pushes]
  exact List.append_nil _

theorem Fits.pushed {visit : Visit β} {cancelled : Bool} {rows : List Row}
    (h : visit.Fits cancelled (.ok rows)) : visit.events.filterMap Event.row? <+: rows := by
  cases visit with
  | passedOver => exact List.nil_prefix
  | unread fault => exact List.nil_prefix
  | unopened fault => exact List.nil_prefix
  | collected n taken ending report =>
    obtain ⟨-, all, same, fits⟩ := h
    cases same
    change (filling n taken ending report).filterMap Event.row? <+: rows
    rw [filterMap_filling]
    cases ending with
    | complete =>
      cases fits
      exact ⟨[], by simp [Ending.events]⟩
    | cancelled =>
      obtain ⟨row, rest, rfl⟩ := fits
      exact ⟨row :: rest, by simp [Ending.events]⟩
    | refused row fault =>
      obtain ⟨rest, rfl⟩ := fits
      exact ⟨rest, by simp [Ending.events, Event.row?]⟩

theorem reports_iff (visit : Visit β) (report : List β) :
    visit.Reports report ↔ visit.result = .ok report := by
  cases visit with
  | passedOver => simp [Reports, result]
  | unread fault => simp [Reports, result]
  | unopened fault => simp [Reports, result]
  | collected n taken ending found =>
    cases ending with
    | complete => cases found <;> simp [Reports, result, Ending.result]
    | cancelled => cases found <;> simp [Reports, result, Ending.result, Except.bind]
    | refused row fault => simp [Reports, result, Ending.result]

end Visit

variable (c : Collector σ γ β)

theorem recorded_pushAll (n : Nat) (collector : γ) (rows : List Row) (r : Record σ β) :
    ∃ taken ending report, ∃ entries : List (Entry β),
      c.recorded.pushAll (n, collector) rows r
        = (ending.result report,
            { r with state := (c.pushAll collector rows r.state).2, log := r.log ++ entries }) ∧
      (c.pushAll collector rows r.state).1 = ending.result report ∧
      entries.map Entry.event = Visit.filling n taken ending report ∧ ending.Fits rows taken := by
  induction rows generalizing collector r with
  | nil =>
    cases hc : c.close collector r.state with
    | mk report s =>
      refine ⟨[], .complete, report, [⟨c.isCancelled r.state, .closed n report⟩], ?_, ?_, rfl, rfl⟩
      · simp [pushAll, recorded, hc, Record.enter, Ending.result]
      · simp [pushAll, hc, Ending.result]
  | cons row rows ih =>
    cases stop : c.isCancelled r.state with
    | true =>
      cases hc : c.close collector r.state with
      | mk report s =>
        refine ⟨[], .cancelled, report, [⟨true, .closed n report⟩], ?_, ?_, rfl, row, rows, rfl⟩
        · cases report <;>
            simp [pushAll, recorded, stop, hc, Record.enter, Ending.result, Except.bind]
        · cases report <;> simp [pushAll, stop, hc, Ending.result, Except.bind]
    | false =>
      cases hp : c.push collector row r.state with
      | mk pushed s =>
        obtain ⟨next, result⟩ := pushed
        cases result with
        | error e =>
          cases hc : c.close next s with
          | mk report s' =>
            refine ⟨[], .refused row e, report,
              [⟨false, .pushed n row (.error e)⟩, ⟨c.isCancelled s, .closed n report⟩], ?_, ?_,
                rfl, rows, rfl⟩
            · simp [pushAll, recorded, stop, hp, hc, Record.enter, Ending.result]
            · simp [pushAll, stop, hp, Ending.result]
        | ok done =>
          obtain ⟨taken, ending, report, entries, ran, plain, events, fits⟩ :=
            ih next (r.enter false (.pushed n row (.ok ())) s)
          refine ⟨row :: taken, ending, report, ⟨false, .pushed n row (.ok ())⟩ :: entries, ?_, ?_,
            ?_, fits.cons row⟩
          · have step : c.recorded.pushAll (n, collector) (row :: rows) r
                = c.recorded.pushAll (n, next) rows (r.enter false (.pushed n row (.ok ())) s) := by
              simp [pushAll, recorded, stop, hp]
            rw [step, ran]
            simp [pushAll, stop, hp, Record.enter]
          · simpa [pushAll, stop, hp] using plain
          · rw [List.map_cons, events]
            rfl

def Visit.count (visit : Visit β) : Nat := visit.collector?.toList.length

theorem recorded_runUnit (waiting : List Stage) (unit : SourceUnit) (r : Record σ β) :
    ∃ (visit : Visit β) (entries : List (Entry β)),
      c.recorded.runUnit waiting unit r
        = (visit.result, ⟨(c.runUnit waiting unit r.state).2, r.made + visit.count,
          r.log ++ entries⟩) ∧
      (c.runUnit waiting unit r.state).1 = visit.result ∧ entries.map Entry.event = visit.events ∧
      visit.Fits (c.isCancelled r.state) (unit.evaluate (c.store r.state) waiting) ∧
      ∀ n ∈ visit.collector?, n = r.made := by
  cases stop : c.isCancelled r.state with
  | true =>
    refine ⟨.passedOver, [], ?_, ?_, rfl, rfl, by simp [Visit.collector?]⟩
    · simp [runUnit, recorded, stop, Visit.result, Visit.count, Visit.collector?]
    · simp [runUnit, stop, Visit.result]
  | false =>
    cases he : unit.evaluate (c.store r.state) waiting with
    | error e =>
      refine ⟨.unread e, [], ?_, ?_, rfl, ⟨rfl, rfl⟩, by simp [Visit.collector?]⟩
      · simp [runUnit, recorded, stop, he, Visit.result, Visit.count, Visit.collector?]
      · simp [runUnit, stop, he, Visit.result]
    | ok rows =>
      cases hs : c.start r.state with
      | mk result s =>
        cases result with
        | error e =>
          refine ⟨.unopened e, [⟨false, .unopened e⟩], ?_, ?_, rfl,
            ⟨rfl, rows, rfl⟩, by simp [Visit.collector?]⟩
          · simp [runUnit, recorded, stop, he, hs, Record.enter, Visit.result, Visit.count,
              Visit.collector?]
          · simp [runUnit, stop, he, hs, Visit.result]
        | ok collector =>
          obtain ⟨taken, ending, report, entries, ran, plain, events, fits⟩ :=
            c.recorded_pushAll r.made collector rows
              { r.enter false (.opened r.made) s with made := r.made + 1 }
          refine ⟨.collected r.made taken ending report,
            ⟨false, .opened r.made⟩ :: entries, ?_, ?_, ?_,
            ⟨rfl, rows, rfl, fits⟩, by simp [Visit.collector?]⟩
          · have step : c.recorded.runUnit waiting unit r
                = c.recorded.pushAll (r.made, collector) rows
                    { r.enter false (.opened r.made) s with made := r.made + 1 } := by
              simp [runUnit, recorded, stop, he, hs]
            rw [step, ran]
            simp [runUnit, stop, he, hs, Record.enter, Visit.result, Visit.count, Visit.collector?]
          · simpa [runUnit, stop, he, hs, Visit.result] using plain
          · rw [List.map_cons, events]
            rfl

def turns (waiting : List Stage) : List SourceUnit → σ → List (SourceUnit × σ)
  | [], _ => []
  | unit :: rest, s => (unit, s) :: turns waiting rest (c.runUnit waiting unit s).2

theorem map_fst_turns (waiting : List Stage) (units : List SourceUnit) (s : σ) :
    (c.turns waiting units s).map Prod.fst = units := by
  induction units generalizing s with
  | nil => rfl
  | cons unit units ih => rw [turns, List.map_cons, ih]

def NumberedFrom : Nat → List (Visit β) → Prop
  | _, [] => True
  | first, visit :: rest =>
    (∀ n ∈ visit.collector?, n = first) ∧ NumberedFrom (first + visit.count) rest

theorem recorded_runEach (waiting : List Stage) (units : List SourceUnit) (r : Record σ β) :
    ∃ (visits : List (Visit β)) (entries : List (Entry β)) (made : Nat),
      Jobs.runEach r (units.map (c.recorded.runUnit waiting))
        = (visits.map Visit.result,
            ⟨(Jobs.runEach r.state (units.map (c.runUnit waiting))).2, made, r.log ++ entries⟩) ∧
      (Jobs.runEach r.state (units.map (c.runUnit waiting))).1 = visits.map Visit.result ∧
      entries.map Entry.event = visits.flatMap Visit.events ∧
      List.Forall₂ (fun turn visit => visit.Fits (c.isCancelled turn.2)
        (turn.1.evaluate (c.store turn.2) waiting))
        (c.turns waiting units r.state) visits ∧
      NumberedFrom r.made visits := by
  induction units generalizing r with
  | nil => exact ⟨[], [], r.made, by simp [Jobs.runEach], rfl, rfl, .nil, trivial⟩
  | cons unit units ih =>
    obtain ⟨visit, entries, ran, plain, events, fits, number⟩ := c.recorded_runUnit waiting unit r
    obtain ⟨visits, more, made, ranRest, plainRest, eventsRest, fitsRest, numbered⟩ :=
      ih ⟨(c.runUnit waiting unit r.state).2, r.made + visit.count, r.log ++ entries⟩
    refine ⟨visit :: visits, entries ++ more, made, ?_, ?_, ?_, .cons fits fitsRest,
      number, numbered⟩
    · simp only [List.map_cons, runEach_cons, ran, ranRest, List.append_assoc]
    · simp only [List.map_cons, runEach_cons, plain, plainRest]
    · rw [List.map_append, events, eventsRest, List.flatMap_cons]

namespace Visit

theorem mem_collector? {visit : Visit β} {event : Event β} (h : event ∈ visit.events) {n : Nat}
    (number : n ∈ event.collector?) : n ∈ visit.collector? := by
  cases visit with
  | passedOver => cases h
  | unread fault => cases h
  | unopened fault =>
    rw [List.mem_singleton.1 h] at number
    cases number
  | collected m taken ending report =>
    have same : event.collector? = some m := by
      simp only [events, filling, List.mem_cons, List.mem_append, List.mem_map, List.not_mem_nil,
        or_false] at h
      rcases h with rfl | (⟨row, _, rfl⟩ | h) | rfl
      · rfl
      · rfl
      · cases ending with
        | complete => cases h
        | cancelled => cases h
        | refused row fault => rw [List.mem_singleton.1 h]; rfl
      · rfl
    rw [same] at number
    exact number

theorem closed_not_mem (n : Nat) (taken : List Row) (ending : Ending)
    (report : Except RunError (List β)) :
    .closed n report ∉ .opened n :: (taken.map (fun row => .pushed n row (.ok ())) ++
      ending.events n) := by
  cases ending <;> simp [Ending.events]

end Visit

theorem NumberedFrom.le {visits : List (Visit β)} {first : Nat}
    (numbered : NumberedFrom first visits) {event : Event β}
    (h : event ∈ visits.flatMap Visit.events) {n : Nat} (number : n ∈ event.collector?) :
    first ≤ n := by
  induction visits generalizing first with
  | nil => cases h
  | cons visit visits ih =>
    rw [List.flatMap_cons] at h
    rcases List.mem_append.1 h with h | h
    · exact Nat.le_of_eq (numbered.1 n (Visit.mem_collector? h number)).symm
    · exact Nat.le_trans (Nat.le_add_right _ _) (ih numbered.2 h)

theorem NumberedFrom.apart {visit : Visit β} {visits : List (Visit β)} {first : Nat}
    (numbered : NumberedFrom first (visit :: visits)) {event later : Event β}
    (h : event ∈ visit.events) (hlater : later ∈ visits.flatMap Visit.events) {n : Nat}
    (number : n ∈ event.collector?) : n ∉ later.collector? := by
  intro number'
  have own := Visit.mem_collector? h number
  have one : visit.count = 1 := by
    rw [Visit.count, show visit.collector? = some n from own]
    rfl
  have first_eq := numbered.1 n own
  have least := numbered.2.le hlater number'
  omega

theorem NumberedFrom.closed {visits : List (Visit β)} {first : Nat}
    (numbered : NumberedFrom first visits) {n : Nat} (h : .opened n ∈ visits.flatMap Visit.events) :
    ∃ before report after, visits.flatMap Visit.events = before ++ .closed n report :: after ∧
      (∀ report, .closed n report ∉ before) ∧ ∀ event ∈ after, event.collector? ≠ some n := by
  induction visits generalizing first with
  | nil => cases h
  | cons visit visits ih =>
    rw [List.flatMap_cons] at h ⊢
    by_cases here : .opened n ∈ visit.events
    · have own : n ∈ visit.collector? := Visit.mem_collector? here rfl
      cases visit with
      | passedOver => cases own
      | unread fault => cases own
      | unopened fault => cases own
      | collected m taken ending report =>
        cases own
        refine ⟨.opened n :: (taken.map (fun row => .pushed n row (.ok ())) ++ ending.events n),
          report, visits.flatMap Visit.events, ?_,
          fun report => Visit.closed_not_mem n taken ending report, ?_⟩
        · simp [Visit.events, Visit.filling]
        · exact fun event hevent => numbered.apart here hevent rfl
    · have rest := (List.mem_append.1 h).resolve_left here
      obtain ⟨before, report, after, split, never, others⟩ := ih numbered.2 rest
      refine ⟨visit.events ++ before, report, after, by rw [split, List.append_assoc], ?_, others⟩
      intro report' hmem
      rcases List.mem_append.1 hmem with hvisit | hbefore
      · exact numbered.apart hvisit rest rfl rfl
      · exact never report' hbefore

end RowQuery.Collector
