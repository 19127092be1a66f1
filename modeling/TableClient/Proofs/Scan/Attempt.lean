import TableClient.Proofs.Client.Ensures
import TableClient.Scan.Run

/-!
# Attempts at a page

What a call of a paced scan does, step by step and with nothing left out. An attempt is given up
when the time of the scan is over or its request is refused; otherwise it paces itself, sends the
request and hears an answer (`Attempts`). A call makes another attempt after a throttled answer, as
often as it may, and ends as the last one does (`Fetched`). This is the one place where the program
is taken apart; whatever else is said of a call is an induction over `Fetched`.
-/

namespace TableClient
namespace PacedScan

variable {κ σ : Type}

/-! ## Sessions between the steps -/

/-- The time of the scan, counted from its start, is not over. -/
def OnTime (start : ℕ) (s : Session (PacedScan κ) σ) : Prop :=
  ∀ timeout, s.own.budget.timeout = some timeout → s.world.clock - start ≤ timeout.nanos

/-- The session in which the start of the scan is known. -/
def begun (s : Session (PacedScan κ) σ) : Session (PacedScan κ) σ :=
  { s with own := s.own.withPacing (fun p =>
      { p with scanStart := some (p.scanStart.getD s.world.clock) }) }

/-- The session in which the request is sent: after the sleep that the budget wants, with a window
begun where one is due. -/
def paced [CapacityUnits κ] (env : Environment σ) (s : Session (PacedScan κ) σ) :
    Session (PacedScan κ) σ :=
  match s.own.pacing.pace s.own.budget s.world.clock with
  | .proceed => s
  | .newWindow => { s with own := s.own.withPacing (·.resetWindow s.world.clock) }
  | .sleep duration =>
    let world := s.world.sleep env duration
    { own := s.own.withPacing (·.resetWindow world.clock), world }

/-- The session after a request. -/
def asked (env : Environment σ) (s : Session (PacedScan κ) σ) (input : ScanInput) :
    Session (PacedScan κ) σ :=
  { s with world := (s.world.call env .scan (Wire.write input)).2 }

/-- The session with no throttled answers since the last page. -/
def calmed (s : Session (PacedScan κ) σ) : Session (PacedScan κ) σ :=
  { s with own := s.own.withPacing (fun p => { p with consecutiveThrottles := 0 }) }

/-- The session with a throttled answer counted. -/
def throttled (s : Session (PacedScan κ) σ) : Session (PacedScan κ) σ :=
  { s with own := s.own.withPacing (fun p =>
      { p with consecutiveThrottles := p.consecutiveThrottles + 1 }) }

/-- The session after the sleep that follows a throttled answer. -/
def backedOff (env : Environment σ) (s : Session (PacedScan κ) σ) : Session (PacedScan κ) σ :=
  let s := throttled s
  let pause := s.own.budget.backoff s.own.pacing.consecutiveThrottles
  { s with world := s.world.sleep env pause.nanos }

/-- What an answer is to an attempt: a page, a reason to try again, or a failure. -/
def heard : Except ServiceError Json → Except ClientError (Except ServiceError ScanOutput)
  | .ok document =>
    match (Wire.read document : Except WireError ScanOutput) with
    | .ok page => .ok (.ok page)
    | .error e => .error (.serialization e)
  | .error e => if e.isThrottling then .ok (.error e) else .error (.service e)

theorem heard_eq_page_iff {answer : Except ServiceError Json} {page : ScanOutput} :
    heard answer = .ok (.ok page) ↔
      ∃ document, answer = .ok document ∧ Wire.read document = .ok page := by
  cases answer with
  | error e =>
    rw [heard]
    split <;> simp
  | ok document =>
    rw [heard]
    cases hread : (Wire.read document : Except WireError ScanOutput) with
    | error e => simp [hread]
    | ok page' => simp [hread]

theorem heard_eq_throttled_iff {answer : Except ServiceError Json} {e : ServiceError} :
    heard answer = .ok (.error e) ↔ answer = .error e ∧ e.isThrottling = true := by
  cases answer with
  | error e' =>
    rw [heard]
    by_cases hthrottling : e'.isThrottling = true
    · rw [if_pos hthrottling]
      constructor
      · intro h
        obtain rfl := Except.error.inj (Except.ok.inj h)
        exact ⟨rfl, hthrottling⟩
      · rintro ⟨he, -⟩
        rw [Except.error.inj he]
    · rw [if_neg hthrottling]
      constructor
      · intro h
        cases h
      · rintro ⟨he, hthrottling'⟩
        rw [Except.error.inj he] at hthrottling
        exact absurd hthrottling' hthrottling
  | ok document =>
    rw [heard.eq_def]
    dsimp only
    split <;> simp

/-! ## One attempt -/

variable [CapacityUnits κ]

/-- How an attempt goes: its outcome and the session that it leaves. -/
inductive Attempts (env : Environment σ) (start : ℕ) (before : Session (PacedScan κ) σ) :
    Except ClientError (Except ServiceError ScanOutput) → Session (PacedScan κ) σ → Prop
  | late {timeout : Duration} (htimeout : before.own.budget.timeout = some timeout)
      (hlate : timeout.nanos < before.world.clock - start) :
      Attempts env start before (.error (.scanTimeout timeout)) before
  | refused {e : ClientError} (hontime : OnTime start before)
      (hrequest : Request.scan (paced env before).own.table (paced env before).own.config
        (paced env before).own.pageOptions = .error e) :
      Attempts env start before (.error e) (paced env before)
  | answered {input : ScanInput} (hontime : OnTime start before)
      (hrequest : Request.scan (paced env before).own.table (paced env before).own.config
        (paced env before).own.pageOptions = .ok input) :
      Attempts env start before
        (heard ((paced env before).world.call env .scan (Wire.write input)).1)
        (asked env (paced env before) input)

/-- How a page is taken: it is refused if its cost is not known and has to be. -/
inductive Accepts (before : Session (PacedScan κ) σ) (page : ScanOutput) :
    Except ClientError (List Item) → Session (PacedScan κ) σ → Prop
  | costless (hcost : before.own.cost? page = none) :
      Accepts before page (.error .missingConsumedCapacity) (calmed before)
  | charged {cost : κ} (hcost : before.own.cost? page = some cost) :
      Accepts before page (.ok (before.own.wanted page))
        { calmed before with own := (calmed before).own.advance page cost }

omit [CapacityUnits κ] in
theorem checkDeadline_cases (start : ℕ) (before : Session (PacedScan κ) σ) :
    (checkDeadline start : Step κ σ Unit).Ensures before fun r after ↦ after = before ∧
      ((r = .ok () ∧ OnTime start before) ∨
        ∃ timeout, r = .error (.scanTimeout timeout) ∧
          before.own.budget.timeout = some timeout ∧
          timeout.nanos < before.world.clock - start) := by
  simp only [checkDeadline, Client.ensures_now_bind_iff, Client.ensures_own_bind_iff]
  cases htimeout : before.own.budget.timeout with
  | none =>
    refine ⟨rfl, .inl ⟨rfl, fun timeout h ↦ ?_⟩⟩
    cases htimeout.symm.trans h
  | some timeout =>
    dsimp only
    split
    · next hlate => exact ⟨rfl, .inr ⟨timeout, rfl, rfl, hlate⟩⟩
    · next hontime =>
      refine ⟨rfl, .inl ⟨rfl, fun timeout' h ↦ ?_⟩⟩
      obtain rfl := Option.some.inj (htimeout.symm.trans h)
      exact Nat.not_lt.mp hontime

theorem keepPace_paced (env : Environment σ) (before : Session (PacedScan κ) σ) :
    (keepPace env : Step κ σ Unit).Ensures before fun r after ↦
      r = .ok () ∧ after = paced env before := by
  simp only [keepPace, Client.ensures_own_bind_iff, Client.ensures_now_bind_iff, paced]
  cases before.own.pacing.pace before.own.budget before.world.clock with
  | proceed | newWindow | sleep duration => exact ⟨rfl, rfl⟩

theorem attempt_attempts (env : Environment σ) (start : ℕ) (before : Session (PacedScan κ) σ) :
    (attempt env start : Step κ σ (Except ServiceError ScanOutput)).Ensures before
      (Attempts env start before) := by
  rw [attempt]
  refine (checkDeadline_cases start before).bind ?_ ?_
  · rintro _ between ⟨hbetween, ⟨-, hontime⟩ | ⟨timeout, hr, -⟩⟩
    · rw [hbetween]
      refine (keepPace_paced env before).bind ?_ ?_
      · rintro _ _ ⟨-, rfl⟩
        rw [Client.ensures_own_bind_iff, Client.ensures_bind_iff, Client.ensures_check_iff]
        cases hrequest : Request.scan (paced env before).own.table (paced env before).own.config
            (paced env before).own.pageOptions with
        | error e => exact .refused hontime hrequest
        | ok input =>
          dsimp only
          rw [Client.ensures_bind_iff, Client.ensures_outcome_iff, Client.ensures_send_iff]
          have hanswered := Attempts.answered hontime hrequest
          generalize ((paced env before).world.call env .scan (Wire.write input)).1 = answer
            at hanswered ⊢
          cases answer with
          | error e =>
            by_cases hthrottling : e.isThrottling = true
            · simp only [heard, Client.received, if_pos hthrottling] at hanswered ⊢
              exact hanswered
            · simp only [heard, Client.received, if_neg hthrottling] at hanswered ⊢
              exact hanswered
          | ok document =>
            cases hread : (Wire.read document : Except WireError ScanOutput) with
            | error e | ok page =>
              simp only [heard, Client.received, hread] at hanswered ⊢
              exact hanswered
      · rintro e _ ⟨hr, -⟩
        cases hr
    · cases hr
  · rintro e _ ⟨rfl, ⟨hr, -⟩ | ⟨timeout, hr, htimeout, hlate⟩⟩
    · cases hr
    · obtain rfl := Except.error.inj hr
      exact .late htimeout hlate

theorem accept_accepts (page : ScanOutput) (before : Session (PacedScan κ) σ) :
    (accept page : Step κ σ (List Item)).Ensures before (Accepts before page) := by
  rw [accept, Client.ensures_update_bind_iff, Client.ensures_own_bind_iff]
  split
  · next hcost => exact .costless hcost
  · next cost hcost =>
    rw [Client.ensures_update_bind_iff, Client.ensures_pure_iff]
    exact .charged hcost

omit [CapacityUnits κ] in
theorem ensures_countThrottle_bind_iff {α : Type} {next : ℕ → Step κ σ α}
    {before : Session (PacedScan κ) σ}
    {post : Except ClientError α → Session (PacedScan κ) σ → Prop} :
    (countThrottle >>= next).Ensures before post ↔
      (next (throttled before).own.pacing.consecutiveThrottles).Ensures (throttled before) post :=
  Client.ensures_bind_iff

/-! ## One call -/

/-- How a call goes that may make so many further attempts: each throttled answer but the last is
followed by a sleep and another attempt. -/
inductive Fetched (env : Environment σ) (start : ℕ) :
    ℕ → Session (PacedScan κ) σ → Except ClientError (List Item) → Session (PacedScan κ) σ → Prop
  | failed {retries : ℕ} {before after : Session (PacedScan κ) σ} {e : ClientError}
      (hattempt : Attempts env start before (.error e) after) :
      Fetched env start retries before (.error e) after
  | page {retries : ℕ} {before between after : Session (PacedScan κ) σ} {page : ScanOutput}
      {r : Except ClientError (List Item)}
      (hattempt : Attempts env start before (.ok (.ok page)) between)
      (haccept : Accepts between page r after) :
      Fetched env start retries before r after
  | exhausted {before between : Session (PacedScan κ) σ} {e : ServiceError}
      (hattempt : Attempts env start before (.ok (.error e)) between) :
      Fetched env start 0 before
        (.error (.exhausted (throttled between).own.pacing.consecutiveThrottles e))
        (throttled between)
  | again {retries : ℕ} {before between after : Session (PacedScan κ) σ} {e : ServiceError}
      {r : Except ClientError (List Item)}
      (hattempt : Attempts env start before (.ok (.error e)) between)
      (hrest : Fetched env start retries (backedOff env between) r after) :
      Fetched env start (retries + 1) before r after

theorem fetch_fetched (env : Environment σ) (start retries : ℕ)
    (before : Session (PacedScan κ) σ) :
    (fetch env start retries : Step κ σ (List Item)).Ensures before
      (Fetched env start retries before) := by
  induction retries generalizing before with
  | zero =>
    refine (attempt_attempts env start before).bind ?_ fun e after hattempt ↦ .failed hattempt
    intro outcome between hattempt
    cases outcome with
    | ok page => exact (accept_accepts page between).imp fun r after ↦ .page hattempt
    | error e =>
      rw [ensures_countThrottle_bind_iff]
      exact .exhausted hattempt
  | succ retries ih =>
    refine (attempt_attempts env start before).bind ?_ fun e after hattempt ↦ .failed hattempt
    intro outcome between hattempt
    cases outcome with
    | ok page => exact (accept_accepts page between).imp fun r after ↦ .page hattempt
    | error e =>
      rw [ensures_countThrottle_bind_iff, Client.ensures_own_bind_iff,
        Client.ensures_sleep_bind_iff]
      exact (ih (backedOff env between)).imp fun r after ↦ .again hattempt

/-- A call of a scan that is not done fetches. -/
theorem nextPage_fetched (env : Environment σ) {before : Session (PacedScan κ) σ}
    (hdone : before.own.done = false) :
    (nextPage env : Step κ σ (Option (List Item))).Ensures before fun outcome after ↦
      ∃ r, outcome = r.map some ∧
        Fetched env (before.own.pacing.scanStart.getD before.world.clock) before.own.retriesLeft
          (begun before) r after := by
  rw [nextPage, Client.ensures_own_bind_iff, if_neg (Bool.eq_false_iff.mp hdone)]
  simp only [startTime, bind_assoc, pure_bind, Client.ensures_now_bind_iff,
    Client.ensures_own_bind_iff, Client.ensures_update_bind_iff, Client.ensures_map_iff]
  refine (fetch_fetched env _ _ _).imp fun r after hfetched ↦ ?_
  exact ⟨r, rfl, hfetched⟩

/-! ## What stays -/

theorem paced_own (env : Environment σ) (s : Session (PacedScan κ) σ) :
    ∃ windowStart consumedInWindow, (paced env s).own =
      s.own.withPacing fun p ↦ { p with windowStart, consumedInWindow } := by
  rw [paced]
  cases s.own.pacing.pace s.own.budget s.world.clock with
  | proceed => exact ⟨s.own.pacing.windowStart, s.own.pacing.consumedInWindow, rfl⟩
  | newWindow | sleep duration => exact ⟨_, _, rfl⟩

/-- An attempt changes nothing of the scan but its window. -/
theorem Attempts.own {env : Environment σ} {start : ℕ} {before after : Session (PacedScan κ) σ}
    {r : Except ClientError (Except ServiceError ScanOutput)}
    (h : Attempts env start before r after) :
    ∃ windowStart consumedInWindow, after.own =
      before.own.withPacing fun p ↦ { p with windowStart, consumedInWindow } := by
  cases h with
  | late => exact ⟨before.own.pacing.windowStart, before.own.pacing.consumedInWindow, rfl⟩
  | refused | answered => exact paced_own env before

/-- A call changes neither the budget nor the start of the scan. -/
theorem Fetched.budget_scanStart {env : Environment σ} {start retries : ℕ}
    {before after : Session (PacedScan κ) σ} {r : Except ClientError (List Item)}
    (h : Fetched env start retries before r after) :
    after.own.budget = before.own.budget ∧
      after.own.pacing.scanStart = before.own.pacing.scanStart := by
  induction h with
  | failed hattempt | exhausted hattempt =>
    obtain ⟨windowStart, consumed, hown⟩ := hattempt.own
    simp [throttled, hown, withPacing]
  | page hattempt haccept =>
    obtain ⟨windowStart, consumed, hown⟩ := hattempt.own
    cases haccept with
    | costless | charged => simp [calmed, hown, withPacing, advance, Pacing.charge]
  | again hattempt hrest ih =>
    obtain ⟨windowStart, consumed, hown⟩ := hattempt.own
    rw [ih.1, ih.2]
    simp [backedOff, throttled, hown, withPacing]

/-- The sleep before a request, if the budget wants one. -/
def paceEvents (s : Session (PacedScan κ) σ) : List Event :=
  match s.own.pacing.pace s.own.budget s.world.clock with
  | .sleep duration => [.sleep s.world.clock duration]
  | .proceed | .newWindow => []

theorem paced_history (env : Environment σ) (s : Session (PacedScan κ) σ) :
    (paced env s).world.history = s.world.history ++ paceEvents s := by
  rw [paced, paceEvents]
  cases s.own.pacing.pace s.own.budget s.world.clock with
  | proceed | newWindow => exact (List.append_nil _).symm
  | sleep duration => rfl

end PacedScan
end TableClient
