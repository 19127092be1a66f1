import TableClient.Proofs.Client.Operations
import TableClient.Proofs.Request.Limit
import TableClient.Proofs.Scan.Complete
import TableClient.Proofs.Scan.Responses
import TableClient.Proofs.Scan.Tries

/-!
# What the check at the start of a paced scan says

A paced scan is checked at its start by building the request of its options. The requests for its
pages differ from that one in their start, which is not checked, and in their limit, which is. So
the check of the limit is made on a limit that is never sent (`turns_relimit`), and the limit that
is sent may still be too large. It only goes down, so if the first page can be asked for, so can
every later one (`turn_requestable`); if not, no page is ever asked for (`turn_unrequestable`).
-/

namespace TableClient

theorem isRefusal_of_heard {answer : Except ServiceError Json} {e : ClientError}
    (h : PacedScan.heard answer = .error e) : e.isRefusal = false := by
  cases answer with
  | error failure =>
    rw [PacedScan.heard] at h
    split at h
    · cases h
    · obtain rfl := Except.error.inj h
      rfl
  | ok document =>
    rw [PacedScan.heard] at h
    cases hread : (Wire.read document : Except WireError ScanOutput) with
    | ok page =>
      rw [hread] at h
      cases h
    | error failure =>
      rw [hread] at h
      obtain rfl := Except.error.inj h
      rfl

/-- The options with another limit in their request. -/
def PacedScanOptions.relimit (limit : Option UInt32) (o : PacedScanOptions) : PacedScanOptions :=
  { o with scan := { o.scan with limit } }

namespace PacedScan

variable {κ σ : Type}

/-! ## Requests that can be built -/

/-- The request for the page that the scan is at can be built. -/
def Requestable (s : PacedScan κ) : Prop :=
  ∃ input, Request.scan s.table s.config s.pageOptions = .ok input

section Requestable

variable {s s' : PacedScan κ}

/-- It is checked for what the options say, and for its limit. -/
theorem requestable_iff : s.Requestable ↔
    (∃ opening, Request.opening s.table s.config s.scan = .ok opening) ∧
      Request.Sendable (some s.pageLimit) :=
  Request.exists_scan_iff

theorem SamePlace.requestable_iff (h : SamePlace s s') : s'.Requestable ↔ s.Requestable := by
  rw [Requestable, h.request_eq, Requestable]

/-- The limit of the next page does not go up. -/
theorem Requestable.of_advance [CapacityUnits κ] (h : s.Requestable) (page : ScanOutput)
    (cost : κ) : (s.advance page cost).Requestable := by
  obtain ⟨hopening, hlimit⟩ := PacedScan.requestable_iff.mp h
  refine PacedScan.requestable_iff.mpr ⟨hopening, ?_⟩
  rw [Request.sendable_some_iff] at hlimit ⊢
  have hle : (s.advance page cost).pageLimit.toNat ≤ s.pageLimit.toNat := by
    rw [pageLimit_toNat, pageLimit_toNat, advance_remaining]
    cases s.remaining with
    | none => exact Nat.le_refl _
    | some n =>
      change min s.pageSize.toNat (n - (s.wanted page).length) ≤ min s.pageSize.toNat n
      omega
  omega

end Requestable

/-! ## Calls of a scan whose next page can be asked for -/

variable [CapacityUnits κ]

section Calls

variable {env : Environment σ} {start retries : ℕ} {before after : Session (PacedScan κ) σ}
  {s : PacedScan κ}

theorem samePlace_paced (env : Environment σ) (s : Session (PacedScan κ) σ) :
    SamePlace s.own (paced env s).own := by
  obtain ⟨windowStart, consumed, hown⟩ := paced_own env s
  exact ⟨_, hown⟩

theorem Attempts.samePlace {r : Except ClientError (Except ServiceError ScanOutput)}
    (h : Attempts env start before r after) : SamePlace before.own after.own := by
  obtain ⟨windowStart, consumed, hown⟩ := h.own
  exact ⟨_, hown⟩

theorem Attempts.isRefusal_eq_false {e : ClientError}
    (h : Attempts env start before (.error e) after) (hrequest : before.own.Requestable) :
    e.isRefusal = false := by
  generalize hr : (.error e : Except ClientError (Except ServiceError ScanOutput)) = r at h
  cases h with
  | late =>
    obtain rfl := Except.error.inj hr
    rfl
  | refused _ hrefused =>
    obtain ⟨input, hinput⟩ := (samePlace_paced env before).requestable_iff.mpr hrequest
    cases hinput.symm.trans hrefused
  | answered => exact isRefusal_of_heard hr.symm

/-- Whatever its attempts meet, the call does not end with a refusal. -/
theorem Fetched.isRefusal_eq_false {r : Except ClientError (List Item)}
    (h : Fetched env start retries before r after) (hrequest : before.own.Requestable) :
    ∀ e, r = .error e → e.isRefusal = false := by
  -- a throttled attempt leaves the scan at its page, for which the request can still be built
  induction h with
  | failed hattempt =>
    intro e he
    obtain rfl := Except.error.inj he
    exact hattempt.isRefusal_eq_false hrequest
  | page hattempt haccept =>
    intro e he
    cases haccept with
    | costless =>
      obtain rfl := Except.error.inj he
      rfl
    | charged => cases he
  | exhausted hattempt =>
    intro e he
    obtain rfl := Except.error.inj he
    rfl
  | @again _ _ between _ _ _ hattempt hrest ih =>
    have hplace : SamePlace _ (backedOff env between).own :=
      hattempt.samePlace.withPacing fun p ↦
        { p with consecutiveThrottles := p.consecutiveThrottles + 1 }
    exact ih (hplace.requestable_iff.mpr hrequest)

/-- What a call gives and leaves in force when its page can be asked for. -/
theorem turn_requestable (env : Environment σ) (world : World σ) (h : s.Requestable) :
    (∀ e, (turn env s world).outcome = .error e → e.isRefusal = false) ∧
      (turn env s world).after.own.Requestable := by
  obtain ⟨-, houtcome, hafter⟩ | ⟨hdone, -, hstays⟩ | ⟨-, items, document, houtcome, htakes⟩ :=
    turn_cases env s world
  · refine ⟨fun e he ↦ ?_, ?_⟩
    · cases he.symm.trans houtcome
    · rw [hafter]
      exact h
  · refine ⟨fun e he ↦ ?_, ?_⟩
    · obtain ⟨r, houtcome, hfetched⟩ := turn_fetched env world hdone
      refine hfetched.isRefusal_eq_false h e ?_
      rw [he] at houtcome
      cases r with
      | error e' => exact congrArg _ (Except.error.inj houtcome.symm)
      | ok items => cases houtcome
    · exact (SamePlace.requestable_iff hstays.place).mpr h
  · refine ⟨fun e he ↦ ?_, ?_⟩
    · cases he.symm.trans houtcome
    · obtain ⟨between, page, hstays, -, -, cost, hafter, -⟩ := htakes
      rw [hafter]
      exact ((SamePlace.requestable_iff hstays.place).mpr h).of_advance page cost

/-! ## Calls of a scan whose next page cannot be asked for -/

/-- How a call ends that sends nothing because its request is refused. -/
def GivesUp (s : PacedScan κ) (refusal : ClientError) (t : Turn κ σ) : Prop :=
  (∀ time op params answer, .call time op params answer ∉ t.events) ∧
    (t.outcome = .error refusal ∨
      ∃ timeout, s.budget.timeout = some timeout ∧ t.outcome = .error (.scanTimeout timeout))

theorem Attempts.of_refused {refusal : ClientError}
    (hrefused : Request.scan before.own.table before.own.config before.own.pageOptions =
      .error refusal) {r : Except ClientError (Except ServiceError ScanOutput)}
    (h : Attempts env start before r after) :
    (OnTime start before ∧ r = .error refusal) ∨
      ∃ timeout, before.own.budget.timeout = some timeout ∧ r = .error (.scanTimeout timeout) ∧
        timeout.nanos < before.world.clock - start := by
  have hpaced := (samePlace_paced env before).request_eq.trans hrefused
  cases h with
  | late htimeout hlate => exact .inr ⟨_, htimeout, rfl, hlate⟩
  | refused hontime hrefused' =>
    obtain rfl := Except.error.inj (hpaced.symm.trans hrefused')
    exact .inl ⟨hontime, rfl⟩
  | answered _ hrequest => cases hpaced.symm.trans hrequest

/-- So the call ends with its first attempt. -/
theorem Fetched.of_refused {refusal : ClientError}
    (hrefused : Request.scan before.own.table before.own.config before.own.pageOptions =
      .error refusal) {r : Except ClientError (List Item)}
    (h : Fetched env start retries before r after) :
    (OnTime start before ∧ r = .error refusal) ∨
      ∃ timeout, before.own.budget.timeout = some timeout ∧ r = .error (.scanTimeout timeout) ∧
        timeout.nanos < before.world.clock - start := by
  cases h with
  | failed hattempt =>
    obtain ⟨hontime, hr⟩ | ⟨timeout, htimeout, hr, hlate⟩ := hattempt.of_refused hrefused
    · exact .inl ⟨hontime, congrArg _ (Except.error.inj hr)⟩
    · exact .inr ⟨timeout, htimeout, congrArg _ (Except.error.inj hr), hlate⟩
  | page hattempt | exhausted hattempt | again hattempt =>
    obtain ⟨-, hr⟩ | ⟨timeout, -, hr, -⟩ := hattempt.of_refused hrefused
    · cases hr
    · cases hr

/-- Such a call sends nothing, and leaves the scan at the page that cannot be asked for. -/
theorem turn_unrequestable (env : Environment σ) (world : World σ) {refusal : ClientError}
    (hdone : s.done = false)
    (hrefused : Request.scan s.table s.config s.pageOptions = .error refusal) :
    s.GivesUp refusal (turn env s world) ∧ SamePlace s (turn env s world).after.own ∧
      (s.pacing.scanStart = none → (turn env s world).outcome = .error refusal) := by
  obtain ⟨r, houtcome, hfetched⟩ := turn_fetched env world hdone
  have hended := hfetched.of_refused hrefused
  have hsent : ∀ time op params answer,
      .call time op params answer ∉ (turn env s world).events := by
    intro time op params answer hevent
    obtain ⟨-, -, input, hinput, -⟩ := asks_of_mem_turn_events hevent
    cases hinput.symm.trans hrefused
  have hplace : SamePlace s (turn env s world).after.own := by
    obtain ⟨hnot, -⟩ | ⟨-, -, hstays⟩ | ⟨-, items, document, hitems, -⟩ := turn_cases env s world
    · cases hdone.symm.trans hnot
    · exact hstays.place
    · rw [hitems] at houtcome
      obtain ⟨-, rfl⟩ | ⟨timeout, -, rfl, -⟩ := hended
      · cases houtcome
      · cases houtcome
  refine ⟨⟨hsent, ?_⟩, hplace, fun hfirst ↦ ?_⟩
  · obtain ⟨-, rfl⟩ | ⟨timeout, htimeout, rfl, -⟩ := hended
    · exact .inl houtcome
    · exact .inr ⟨timeout, htimeout, houtcome⟩
  · obtain ⟨-, rfl⟩ | ⟨timeout, -, -, hlate⟩ := hended
    · exact houtcome
    -- the time of the scan counts from this call
    · rw [hfirst, Option.getD_none] at hlate
      change timeout.nanos < world.clock - world.clock at hlate
      rw [Nat.sub_self] at hlate
      exact absurd hlate (Nat.not_lt_zero _)

/-- Nor does any later one. -/
theorem turns_unrequestable (env : Environment σ) {refusal : ClientError} (hdone : s.done = false)
    (hrefused : Request.scan s.table s.config s.pageOptions = .error refusal)
    (worlds : List (World σ)) : ∀ t ∈ turns env s worlds, s.GivesUp refusal t := by
  refine forall_mem_turns (I := SamePlace s) ?_ ⟨s.pacing, rfl⟩ worlds
  rintro _ world ⟨pacing, rfl⟩
  obtain ⟨hgivesUp, ⟨pacing', hafter⟩, -⟩ :=
    turn_unrequestable (s := { s with pacing }) env world hdone hrefused
  exact ⟨hgivesUp, pacing', hafter⟩

/-! ## The limit of the options -/

/-- The scan with another limit in the request of its options. -/
def relimit (limit : Option UInt32) (s : PacedScan κ) : PacedScan κ :=
  { s with scan := { s.scan with limit } }

/-- The session of that scan. -/
def relimited (limit : Option UInt32) (s : Session (PacedScan κ) σ) : Session (PacedScan κ) σ :=
  { s with own := s.own.relimit limit }

/-- The same call of that scan. -/
def Turn.relimit (limit : Option UInt32) (t : Turn κ σ) : Turn κ σ :=
  ⟨relimited limit t.before, t.outcome, relimited limit t.after⟩

theorem paced_relimited (env : Environment σ) (limit : Option UInt32)
    (s : Session (PacedScan κ) σ) :
    paced env (relimited limit s) = relimited limit (paced env s) := by
  have hpace : (relimited limit s).own.pacing.pace (relimited limit s).own.budget
      (relimited limit s).world.clock = s.own.pacing.pace s.own.budget s.world.clock := rfl
  rw [paced, hpace, paced]
  cases s.own.pacing.pace s.own.budget s.world.clock with
  | proceed | newWindow | sleep => rfl

/-- The limit of the options is not looked at by an attempt. -/
theorem Attempts.relimit {r : Except ClientError (Except ServiceError ScanOutput)}
    (h : Attempts env start before r after) (limit : Option UInt32) :
    Attempts env start (relimited limit before) r (relimited limit after) := by
  cases h with
  | late htimeout hlate => exact .late htimeout hlate
  | refused hontime hrequest =>
    rw [← paced_relimited]
    refine .refused hontime ?_
    rw [paced_relimited]
    exact hrequest
  | @answered input hontime hrequest =>
    have hanswered : Attempts env start (relimited limit before)
        (heard ((paced env (relimited limit before)).world.call env .scan (Wire.write input)).1)
        (asked env (paced env (relimited limit before)) input) := by
      refine .answered hontime ?_
      rw [paced_relimited]
      exact hrequest
    rw [paced_relimited] at hanswered
    exact hanswered

theorem Accepts.relimit {page : ScanOutput} {r : Except ClientError (List Item)}
    (h : Accepts before page r after) (limit : Option UInt32) :
    Accepts (relimited limit before) page r (relimited limit after) := by
  cases h with
  | costless hcost => exact .costless hcost
  | charged hcost => exact .charged hcost

theorem Fetched.relimit {r : Except ClientError (List Item)}
    (h : Fetched env start retries before r after) (limit : Option UInt32) :
    Fetched env start retries (relimited limit before) r (relimited limit after) := by
  induction h with
  | failed hattempt => exact .failed (hattempt.relimit limit)
  | page hattempt haccept => exact .page (hattempt.relimit limit) (haccept.relimit limit)
  | exhausted hattempt => exact .exhausted (hattempt.relimit limit)
  | again hattempt hrest ih => exact .again (hattempt.relimit limit) ih

theorem turn_relimit (env : Environment σ) (limit : Option UInt32) (s : PacedScan κ)
    (world : World σ) : turn env (s.relimit limit) world = (turn env s world).relimit limit := by
  by_cases hdone : s.done = true
  · rw [turn_of_done env world hdone, turn_of_done (s := s.relimit limit) env world hdone]
    rfl
  · have hdone : s.done = false := Bool.eq_false_iff.mpr hdone
    obtain ⟨r, houtcome, hfetched⟩ := turn_fetched env world hdone
    obtain ⟨r', houtcome', hfetched'⟩ :=
      turn_fetched (s := s.relimit limit) env world hdone
    obtain ⟨rfl, hafter⟩ := hfetched'.unique (hfetched.relimit limit)
    rw [turn_eq houtcome' hafter, ← houtcome]
    rfl

theorem turns_relimit (env : Environment σ) (limit : Option UInt32) (s : PacedScan κ)
    (worlds : List (World σ)) :
    turns env (s.relimit limit) worlds = (turns env s worlds).map (Turn.relimit limit) := by
  induction worlds generalizing s with
  | nil => rfl
  | cons world worlds ih =>
    rw [turns, turns, List.map_cons, turn_relimit]
    exact congrArg _ (ih _)

end Calls

/-! ## The start -/

section Start

variable {table : TableDescriptor} {config : ClientConfig} {o : PacedScanOptions}
  {s₀ : PacedScan κ}

/-- The check at the start looks at the limit of the options. -/
theorem exists_start_iff : (∃ s₀ : PacedScan κ, start table config o = .ok s₀) ↔
    o.budget.rate ≠ 0 ∧ o.pageSize ≠ some 0 ∧
      (∃ opening, Request.opening table config o.scan = .ok opening) ∧
      Request.Sendable o.scan.limit := by
  have hchecked (level : ReturnConsumedCapacity) :
      (∃ opening, Request.scan table config { o.scan with
        exclusiveStartKey := none, returnConsumedCapacity := some level } = .ok opening) ↔
      (∃ opening, Request.opening table config o.scan = .ok opening) ∧
        Request.Sendable o.scan.limit :=
    Request.exists_scan_iff.trans (and_congr_left' (Request.exists_opening_capacity_iff _))
  simp only [start_eq_ok_iff]
  rw [← hchecked (o.scan.returnConsumedCapacity.getD .total)]
  constructor
  · rintro ⟨-, hrate, hsize, hopening, rfl⟩
    exact ⟨hrate, hsize, hopening⟩
  · rintro ⟨hrate, hsize, hopening⟩
    exact ⟨_, hrate, hsize, hopening, rfl⟩

theorem start_relimit (h : start table config o = .ok s₀) {limit : Option UInt32}
    (hlimit : Request.Sendable limit) :
    start table config (o.relimit limit) = .ok (s₀.relimit limit) := by
  obtain ⟨hrate, hsize, hopening, rfl⟩ := start_eq_ok_iff.mp h
  refine start_eq_ok_iff.mpr ⟨hrate, hsize, ?_, rfl⟩
  exact Request.exists_scan_iff.mpr ⟨(Request.exists_scan_iff.mp hopening).1, hlimit⟩

/-- The request for any page is checked for no more than its limit once the scan has started. -/
theorem requestable_iff_of_start (h : start table config o = .ok s₀) (remaining : Option ℕ)
    (cursor : Option Key) (done : Bool) (pacing : Pacing κ) :
    let s := { s₀ with remaining, cursor, done, pacing }
    s.Requestable ↔ Request.Sendable (some s.pageLimit) := by
  have hopening := (Request.exists_scan_iff.mp (opening_of_start h)).1
  exact requestable_iff.trans (and_iff_right hopening)

theorem refused_of_start (h : start table config o = .ok s₀)
    (hlimit : ¬Request.Sendable (some s₀.pageLimit)) :
    s₀.done = false ∧ Request.scan s₀.table s₀.config s₀.pageOptions =
      .error (.validation (.limitTooLarge s₀.pageLimit)) := by
  obtain ⟨opening, hopening⟩ := (Request.exists_scan_iff.mp (opening_of_start h)).1
  refine ⟨?_, (Request.scan_eq_error_iff (o := s₀.pageOptions) hopening).mpr ⟨_, rfl, hlimit, rfl⟩⟩
  -- nothing is wanted of a scan that is done at its start, and the limit zero can be sent
  obtain ⟨-, -, -, hs₀⟩ := start_eq_ok_iff.mp h
  refine Bool.eq_false_iff.mpr fun hdone ↦ hlimit ?_
  have hwanted : o.limit = some 0 := by
    rw [hs₀] at hdone
    exact of_decide_eq_true hdone
  have hremaining : s₀.remaining = some 0 := by
    rw [hs₀, hwanted]
    rfl
  rw [Request.sendable_some_iff, pageLimit_toNat, hremaining, Option.elim_some, Nat.min_zero]
  decide

end Start

end PacedScan

/-- The start of a paced scan checks everything but the limit of its pages; in its place the limit
of the options is checked, which has no other effect. A scan that has started can ask for a page
exactly if the limit of that page can be sent. If this is so for the first page, no call is ever
refused; if not, the first call is, and nothing is ever sent. -/
theorem paced_scan_checked_up_to_page_limit {κ σ : Type} [CapacityUnits κ]
    (table : TableDescriptor) (config : ClientConfig) (o : PacedScanOptions) :
    ((∃ s₀ : PacedScan κ, PacedScan.start table config o = .ok s₀) ↔
      o.budget.rate ≠ 0 ∧ o.pageSize ≠ some 0 ∧
        (∃ opening, Request.opening table config o.scan = .ok opening) ∧
        Request.Sendable o.scan.limit) ∧
    ∀ s₀ : PacedScan κ, PacedScan.start table config o = .ok s₀ →
      (∀ remaining cursor done pacing,
        let s : PacedScan κ := { s₀ with remaining, cursor, done, pacing }
        s.Requestable ↔ Request.Sendable (some s.pageLimit)) ∧
      ∀ (env : Environment σ) (worlds : List (World σ)),
        (Request.Sendable (some s₀.pageLimit) →
          ∀ t ∈ PacedScan.turns env s₀ worlds, ∀ e, t.outcome = .error e → e.isRefusal = false) ∧
        (¬Request.Sendable (some s₀.pageLimit) →
          (∀ world, (PacedScan.turn env s₀ world).outcome =
            .error (.validation (.limitTooLarge s₀.pageLimit))) ∧
          ∀ t ∈ PacedScan.turns env s₀ worlds,
            s₀.GivesUp (.validation (.limitTooLarge s₀.pageLimit)) t) ∧
        ∀ limit, Request.Sendable limit → ∃ s₀' : PacedScan κ,
          PacedScan.start table config (o.relimit limit) = .ok s₀' ∧
          (PacedScan.turns env s₀' worlds).map (fun t ↦ (t.outcome, t.events)) =
            (PacedScan.turns env s₀ worlds).map fun t ↦ (t.outcome, t.events) := by
  refine ⟨PacedScan.exists_start_iff, fun s₀ hstart ↦ ?_⟩
  have hrequestable := PacedScan.requestable_iff_of_start hstart
  refine ⟨hrequestable, fun env worlds ↦ ⟨fun hlimit ↦ ?_, fun hlimit ↦ ?_, fun limit hlimit ↦ ?_⟩⟩
  · have hfirst : s₀.Requestable := (hrequestable _ _ _ _).mpr hlimit
    exact PacedScan.forall_mem_turns (fun s world ↦ PacedScan.turn_requestable env world) hfirst
      worlds
  · obtain ⟨hdone, hrefused⟩ := PacedScan.refused_of_start hstart hlimit
    have hfirst : s₀.pacing.scanStart = none := by
      rw [(PacedScan.budget_of_start hstart).2]
      rfl
    refine ⟨fun world ↦ ?_, PacedScan.turns_unrequestable env hdone hrefused worlds⟩
    obtain ⟨-, -, houtcome⟩ := PacedScan.turn_unrequestable env world hdone hrefused
    exact houtcome hfirst
  · refine ⟨_, PacedScan.start_relimit hstart hlimit, ?_⟩
    rw [PacedScan.turns_relimit, List.map_map]
    rfl

/-! ## Limits that are too large -/

/-- A scan for three units in each second, with this limit in its request and pages of this
size. -/
private def sized (limit : Option UInt32) (pageSize : UInt32) : PacedScanOptions where
  scan := { limit }
  pageSize := some pageSize
  budget := ScanBudget.ofConfig {} 3

private def sizedScan (limit : Option UInt32) (pageSize : UInt32) : PacedScan Float where
  table := ⟨"things", ⟨"id", none⟩, [], []⟩
  config := {}
  scan := { limit, returnConsumedCapacity := some .total }
  pageSize
  budget := ScanBudget.ofConfig {} 3
  remaining := none
  cursor := none
  done := false
  pacing := .initial

/-- A service that has nothing. -/
private def emptyTable : Environment Unit where
  reply _ _ _ := (⟨0, .ok (.object [])⟩, ())
  oversleep _ _ := (0, ())

/-- A limit that is never sent has the scan refused, and one that is to be sent does not. -/
theorem start_refuses_unsent_limit_and_accepts_page_size :
    (PacedScan.start ⟨"things", ⟨"id", none⟩, [], []⟩ {} (sized (some 4294967295) 1) :
      Checked (PacedScan Float)) = .error (.validation (.limitTooLarge 4294967295)) ∧
    PacedScan.start ⟨"things", ⟨"id", none⟩, [], []⟩ {} (sized (some 7) 1) =
      .ok (sizedScan (some 7) 1) ∧
    PacedScan.start ⟨"things", ⟨"id", none⟩, [], []⟩ {} (sized none 4294967295) =
      .ok (sizedScan none 4294967295) ∧
    (PacedScan.turn emptyTable (sizedScan none 4294967295) { service := () }).outcome =
      .error (.validation (.limitTooLarge 4294967295)) :=
  ⟨rfl, rfl, rfl, rfl⟩

/-- With a small page size the limit of the request makes no difference. -/
theorem small_pages_never_refused :
    PacedScan.start ⟨"things", ⟨"id", none⟩, [], []⟩ {} (sized (some 7) 1) =
      .ok (sizedScan (some 7) 1) ∧
    (∀ t ∈ PacedScan.turns emptyTable (sizedScan (some 7) 1)
      [{ service := () }, { service := () }], ∀ e, t.outcome = .error e → e.isRefusal = false) ∧
    ∃ s₀ : PacedScan Float,
      PacedScan.start ⟨"things", ⟨"id", none⟩, [], []⟩ {} (sized none 1) = .ok s₀ ∧
      (PacedScan.turn emptyTable s₀ { service := () }).events =
        (PacedScan.turn emptyTable (sizedScan (some 7) 1) { service := () }).events := by
  have hstart : PacedScan.start ⟨"things", ⟨"id", none⟩, [], []⟩ {} (sized (some 7) 1) =
      .ok (sizedScan (some 7) 1) := rfl
  obtain ⟨-, hrun⟩ := (paced_scan_checked_up_to_page_limit ⟨"things", ⟨"id", none⟩, [], []⟩ {}
    (sized (some 7) 1)).2 _ hstart
  refine ⟨hstart, (hrun emptyTable _).1 (Request.sendable_some_iff.mpr (by decide)), ?_⟩
  obtain ⟨s₀, hstart', hsame⟩ :=
    (hrun emptyTable [{ service := () }]).2.2 none fun n h ↦ nomatch h
  refine ⟨s₀, hstart', ?_⟩
  exact congrArg Prod.snd (List.cons.inj hsame).1

end TableClient
