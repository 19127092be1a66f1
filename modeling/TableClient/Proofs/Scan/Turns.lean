import Mathlib.Data.List.Basic
import TableClient.Proofs.Scan.Documents
import TableClient.Proofs.Scan.Step

/-!
# Calls of a paced scan

A run is any number of calls of `nextPage`, one after another. A call may fail and be made again;
what happens between two calls is left open, so each call meets a world of its own (`turns`). The
answer to the last request of a call that returns items holds an accepted page (`answers`).
-/

namespace TableClient.PacedScan

variable {κ σ : Type}

/-! ## Calls -/

/-- A call of `nextPage`: the session that it meets, how it ends and the session that it leaves. -/
structure Turn (κ σ : Type) where
  before : Session (PacedScan κ) σ
  outcome : Except ClientError (Option (List Item))
  after : Session (PacedScan κ) σ

namespace Turn

variable (t : Turn κ σ)

/-- What happened during the call. -/
def events : List Event :=
  t.after.world.history.drop t.before.world.history.length

/-- The items that the call returns, if it returns a page. -/
def items? : Option (List Item) :=
  match t.outcome with
  | .ok page => page
  | .error _ => none

/-- The answer that holds the page, if the call returns one. -/
def answer? : Option Json :=
  if t.items?.isSome then lastAnswer? t.events else none

variable {t}

theorem events_eq {events : List Event}
    (h : t.after.world.history = t.before.world.history ++ events) : t.events = events := by
  rw [Turn.events, h, List.drop_left]

theorem answer?_of_items?_eq_none (h : t.items? = none) : t.answer? = none := by
  rw [answer?, h]
  rfl

theorem answer?_of_items?_eq_some {items : List Item} (h : t.items? = some items) :
    t.answer? = lastAnswer? t.events := by
  rw [answer?, h]
  rfl

end Turn

/-- The items of a page. -/
def pageItems (document : Json) : List Item :=
  match (Wire.read document : Except WireError ScanOutput) with
  | .ok page => page.items
  | .error _ => []

section History

variable (past : List (Turn κ σ))

/-- All that happened. -/
def log : List Event :=
  past.flatMap Turn.events

/-- The items that were returned. -/
def returned : List Item :=
  past.flatMap fun t ↦ t.items?.getD []

/-- The answers whose pages were accepted. -/
def answers : List Json :=
  past.filterMap Turn.answer?

/-- The items of all accepted pages. -/
def offered : List Item :=
  (answers past).flatMap pageItems

/-- The scan after calls that began with it. -/
def reached (s : PacedScan κ) : PacedScan κ :=
  past.getLast?.elim s (·.after.own)

/-! ## What a call adds -/

variable (t : Turn κ σ)

theorem log_append : log (past ++ [t]) = log past ++ t.events := by
  rw [log, List.flatMap_append, List.flatMap_singleton]
  rfl

theorem returned_append : returned (past ++ [t]) = returned past ++ t.items?.getD [] := by
  rw [returned, List.flatMap_append, List.flatMap_singleton]
  rfl

theorem answers_append : answers (past ++ [t]) = answers past ++ t.answer?.toList := by
  rw [answers, List.filterMap_append]
  cases h : t.answer? with
  | none => simp [h, answers]
  | some document => simp [h, answers]

theorem answers_cons : answers (t :: past) = t.answer?.toList ++ answers past := by
  rw [answers, List.filterMap_cons]
  cases t.answer? <;> rfl

theorem offered_append :
    offered (past ++ [t]) = offered past ++ t.answer?.toList.flatMap pageItems := by
  rw [offered, answers_append, List.flatMap_append]
  rfl

theorem reached_cons (s : PacedScan κ) : reached (t :: past) s = reached past t.after.own := by
  cases past with
  | nil => rfl
  | cons t' past => rfl

variable {t}

theorem returned_append_of_none (h : t.items? = none) : returned (past ++ [t]) = returned past := by
  rw [returned_append, h]
  exact List.append_nil _

theorem returned_append_of_some {items : List Item} (h : t.items? = some items) :
    returned (past ++ [t]) = returned past ++ items := by
  rw [returned_append, h]
  rfl

theorem answers_append_of_none (h : t.items? = none) : answers (past ++ [t]) = answers past := by
  rw [answers_append, Turn.answer?_of_items?_eq_none h]
  exact List.append_nil _

theorem answers_append_of_some {document : Json} (h : t.answer? = some document) :
    answers (past ++ [t]) = answers past ++ [document] := by
  rw [answers_append, h]
  rfl

end History

/-! ## Runs -/

variable [CapacityUnits κ]

/-- A call of the scan in a world. -/
def turn (env : Environment σ) (s : PacedScan κ) (world : World σ) : Turn κ σ :=
  let ends := (nextPage env).outcomeIn ⟨s, world⟩
  ⟨⟨s, world⟩, ends.1, ends.2⟩

/-- Calls of a scan, one after another. -/
def turns (env : Environment σ) (s : PacedScan κ) : List (World σ) → List (Turn κ σ)
  | [] => []
  | world :: worlds =>
    let t := turn env s world
    t :: turns env t.after.own worlds

/-- What one call gives and leaves in force holds of every call of a run. -/
theorem forall_mem_turns {env : Environment σ} {I : PacedScan κ → Prop} {P : Turn κ σ → Prop}
    (hstep : ∀ s world, I s → P (turn env s world) ∧ I (turn env s world).after.own)
    {s : PacedScan κ} (hs : I s) (worlds : List (World σ)) : ∀ t ∈ turns env s worlds, P t := by
  induction worlds generalizing s with
  | nil =>
    intro t ht
    cases ht
  | cons world worlds ih =>
    obtain ⟨hP, hI⟩ := hstep s world hs
    intro t ht
    rcases List.mem_cons.mp ht with rfl | ht
    · exact hP
    · exact ih hI t ht

/-- How a call of a scan that is done goes, how one that fails and how one that has a page. -/
theorem turn_cases (env : Environment σ) (s : PacedScan κ) (world : World σ) :
    let t := turn env s world
    (s.done = true ∧ t.outcome = .ok none ∧ t.after = t.before) ∨
    (s.done = false ∧ (∃ e, t.outcome = .error e) ∧ Stays t.before t.after t.events) ∨
    (s.done = false ∧ ∃ items document, t.outcome = .ok (some items) ∧
      Takes t.before t.after t.events document items) := by
  intro t
  have hcalls : Calls t.before t.outcome t.after := nextPage_calls env ⟨s, world⟩
  cases houtcome : t.outcome with
  | error e =>
    rw [houtcome] at hcalls
    obtain ⟨hdone, events, hstays⟩ := hcalls
    have hevents := Turn.events_eq hstays.history
    exact .inr (.inl ⟨hdone, ⟨e, rfl⟩, hevents ▸ hstays⟩)
  | ok page =>
    rw [houtcome] at hcalls
    cases page with
    | none =>
      obtain ⟨hdone, hafter⟩ := hcalls
      exact .inl ⟨hdone, rfl, hafter⟩
    | some items =>
      obtain ⟨hdone, events, document, htakes⟩ := hcalls
      have hevents := Turn.events_eq htakes.history
      exact .inr (.inr ⟨hdone, items, document, rfl, hevents ▸ htakes⟩)

theorem turn_eq {env : Environment σ} {s : PacedScan κ} {world : World σ}
    {outcome : Except ClientError (Option (List Item))} {after : Session (PacedScan κ) σ}
    (houtcome : (turn env s world).outcome = outcome) (hafter : (turn env s world).after = after) :
    turn env s world = ⟨⟨s, world⟩, outcome, after⟩ := by
  rw [← houtcome, ← hafter]
  rfl

/-- A call of a scan that is done does nothing. -/
theorem turn_of_done (env : Environment σ) {s : PacedScan κ} (world : World σ)
    (hdone : s.done = true) : turn env s world = ⟨⟨s, world⟩, .ok none, ⟨s, world⟩⟩ := by
  obtain ⟨-, houtcome, hafter⟩ | ⟨hnot, -⟩ | ⟨hnot, -⟩ := turn_cases env s world
  · exact turn_eq houtcome hafter
  · cases hdone.symm.trans hnot
  · cases hdone.symm.trans hnot

theorem turn_after_of_done (env : Environment σ) {s : PacedScan κ} (world : World σ)
    (hdone : s.done = true) : (turn env s world).after = ⟨s, world⟩ :=
  congrArg Turn.after (turn_of_done env world hdone)

theorem turn_events_of_done (env : Environment σ) {s : PacedScan κ} (world : World σ)
    (hdone : s.done = true) : (turn env s world).events = [] := by
  refine Turn.events_eq ?_
  rw [turn_after_of_done env world hdone, List.append_nil]
  rfl

/-- A call of a scan that is not done fetches. -/
theorem turn_fetched (env : Environment σ) {s : PacedScan κ} (world : World σ)
    (hdone : s.done = false) :
    let t := turn env s world
    ∃ r, t.outcome = r.map some ∧
      Fetched env (s.pacing.scanStart.getD world.clock) s.retriesLeft (begun t.before) r t.after :=
  nextPage_fetched env hdone

theorem turn_budget (env : Environment σ) (s : PacedScan κ) (world : World σ) :
    (turn env s world).after.own.budget = s.budget := by
  by_cases hdone : s.done = true
  · rw [turn_after_of_done env world hdone]
  · obtain ⟨r, -, hfetched⟩ := turn_fetched env world (Bool.eq_false_iff.mpr hdone)
    exact hfetched.budget_scanStart.1

theorem reached_budget (env : Environment σ) (s : PacedScan κ) (worlds : List (World σ)) :
    (reached (turns env s worlds) s).budget = s.budget := by
  induction worlds generalizing s with
  | nil => rfl
  | cons world worlds ih => rw [turns, reached_cons, ih, turn_budget]

/-- All that a call sends is the request for the page that the scan is at. -/
theorem asks_of_mem_turn_events {env : Environment σ} {s : PacedScan κ} {world : World σ}
    {event : Event} (hevent : event ∈ (turn env s world).events) :
    s.done = false ∧ s.Asks event := by
  obtain ⟨hdone, -, -⟩ | ⟨hdone, -, hstays⟩ | ⟨hdone, items, document, -, htakes⟩ :=
    turn_cases env s world
  · rw [turn_events_of_done env world hdone] at hevent
    cases hevent
  · exact ⟨hdone, hstays.asks event hevent⟩
  · obtain ⟨between, page, hstays, -⟩ := htakes
    exact ⟨hdone, hstays.asks event hevent⟩

end TableClient.PacedScan
