import TableClient.Proofs.Scan.Attempt

/-!
# What one call of a paced scan does

Everything that a call does before it has a page changes only the pacing of the scan: it sleeps and
sends the one request for the next page, as often as it must (`Stays`). A page that it returns is
the answer to the last of these requests, and only then the scan moves on (`Takes`).
-/

namespace TableClient.PacedScan

variable {κ σ : Type}

/-! ## Staying at a page -/

/-- What the scan may do to get its next page: sleep, or send the request for it. -/
def Asks (s : PacedScan κ) : Event → Prop
  | .sleep _ _ => True
  | .call _ op params _ => op = .scan ∧
      ∃ input, Request.scan s.table s.config s.pageOptions = .ok input ∧ params = Wire.write input

/-- Between two sessions these events happened, all for the next page, and nothing but the pacing of
the scan changed. -/
structure Stays (before after : Session (PacedScan κ) σ) (events : List Event) : Prop where
  place : ∃ pacing, after.own = { before.own with pacing }
  history : after.world.history = before.world.history ++ events
  asks : ∀ event ∈ events, before.own.Asks event

namespace Stays

variable {before between after : Session (PacedScan κ) σ} {events events' : List Event}

theorem refl (before : Session (PacedScan κ) σ) : Stays before before [] :=
  ⟨⟨before.own.pacing, rfl⟩, (List.append_nil _).symm, by simp⟩

theorem trans (h : Stays before between events) (h' : Stays between after events') :
    Stays before after (events ++ events') := by
  obtain ⟨pacing, hplace⟩ := h.place
  obtain ⟨pacing', hplace'⟩ := h'.place
  refine ⟨⟨pacing', by rw [hplace', hplace]⟩, ?_, ?_⟩
  · rw [h'.history, h.history, List.append_assoc]
  · intro event hevent
    rcases List.mem_append.mp hevent with hevent | hevent
    · exact h.asks event hevent
    · have hasks := h'.asks event hevent
      rw [hplace] at hasks
      exact hasks

/-- A change of the pacing. -/
theorem withPacing (before : Session (PacedScan κ) σ) (f : Pacing κ → Pacing κ) :
    Stays before { before with own := before.own.withPacing f } [] :=
  ⟨⟨f before.own.pacing, rfl⟩, (List.append_nil _).symm, by simp⟩

/-- A sleep. -/
theorem sleep (before : Session (PacedScan κ) σ) (env : Environment σ) (duration : ℕ) :
    Stays before { before with world := before.world.sleep env duration }
      [.sleep before.world.clock duration] := by
  refine ⟨⟨before.own.pacing, rfl⟩, rfl, fun event hevent ↦ ?_⟩
  rw [List.mem_singleton.mp hevent]
  trivial

/-- The request for the next page. -/
theorem call (before : Session (PacedScan κ) σ) (env : Environment σ) {input : ScanInput}
    (hinput : Request.scan before.own.table before.own.config before.own.pageOptions = .ok input) :
    Stays before
      { before with world := (before.world.call env .scan (Wire.write input)).2 }
      [.call before.world.clock .scan (Wire.write input)
        (before.world.call env .scan (Wire.write input)).1] := by
  refine ⟨⟨before.own.pacing, rfl⟩, rfl, fun event hevent ↦ ?_⟩
  rw [List.mem_singleton.mp hevent]
  exact ⟨rfl, input, hinput, rfl⟩

/-- What an attempt does before it sends its request. -/
theorem paced [CapacityUnits κ] (env : Environment σ) (before : Session (PacedScan κ) σ) :
    Stays before (PacedScan.paced env before) (paceEvents before) := by
  rw [PacedScan.paced, paceEvents]
  cases before.own.pacing.pace before.own.budget before.world.clock with
  | proceed => exact .refl before
  | newWindow => exact .withPacing before _
  | sleep duration => exact (Stays.sleep before env duration).trans (.withPacing _ _)

end Stays

/-! ## Taking a page -/

/-- What came back last, if the last thing that happened is a call that did not fail. -/
def lastAnswer? (events : List Event) : Option Json :=
  match events.getLast? with
  | some (.call _ _ _ (.ok document)) => some document
  | _ => none

theorem lastAnswer?_append {events events' : List Event} {document : Json}
    (h : lastAnswer? events' = some document) :
    lastAnswer? (events ++ events') = some document := by
  rw [lastAnswer?] at h
  split at h
  · next hlast =>
    rw [lastAnswer?, List.getLast?_append, hlast]
    exact h
  · cases h

variable [CapacityUnits κ]

/-- An attempt that has a page has it from its last event. -/
theorem Attempts.stays {env : Environment σ} {start : ℕ} {before after : Session (PacedScan κ) σ}
    {r : Except ClientError (Except ServiceError ScanOutput)}
    (h : Attempts env start before r after) :
    ∃ events, Stays before after events ∧ ∀ page, r = .ok (.ok page) →
      ∃ document, lastAnswer? events = some document ∧ Wire.read document = .ok page := by
  cases h with
  | late => exact ⟨[], .refl before, fun page h ↦ by cases h⟩
  | refused => exact ⟨_, .paced env before, fun page h ↦ by cases h⟩
  | answered hontime hinput =>
    refine ⟨_, (Stays.paced env before).trans (.call _ env hinput), fun page h ↦ ?_⟩
    obtain ⟨document, hanswer, hread⟩ := heard_eq_page_iff.mp h
    refine ⟨document, lastAnswer?_append ?_, hread⟩
    rw [hanswer]
    rfl

/-- From a session the scan goes on with a page. -/
def MovesOn (before after : Session (PacedScan κ) σ) (page : ScanOutput) (items : List Item) :
    Prop :=
  ∃ cost, after = { before with own := before.own.advance page cost } ∧
    items = before.own.wanted page

/-- The scan stays at its page until an answer holds it, and goes on with it. -/
def Takes (before after : Session (PacedScan κ) σ) (events : List Event) (document : Json)
    (items : List Item) : Prop :=
  ∃ between page, Stays before between events ∧ lastAnswer? events = some document ∧
    Wire.read document = .ok page ∧ MovesOn between after page items

theorem Takes.of_stays {before between after : Session (PacedScan κ) σ}
    {events events' : List Event} {document : Json} {items : List Item}
    (h : Stays before between events) (htakes : Takes between after events' document items) :
    Takes before after (events ++ events') document items := by
  obtain ⟨between', page, hstays, hlast, hread, hmoves⟩ := htakes
  exact ⟨between', page, h.trans hstays, lastAnswer?_append hlast, hread, hmoves⟩

theorem Takes.history {before after : Session (PacedScan κ) σ} {events : List Event}
    {document : Json} {items : List Item} (h : Takes before after events document items) :
    after.world.history = before.world.history ++ events := by
  obtain ⟨between, page, hstays, -, -, cost, rfl, -⟩ := h
  exact hstays.history

/-- Items come from a page that is taken; after a failure the scan still stays at its page. -/
def Fetches (before : Session (PacedScan κ) σ) (r : Except ClientError (List Item))
    (after : Session (PacedScan κ) σ) : Prop :=
  match r with
  | .ok items => ∃ events document, Takes before after events document items
  | .error _ => ∃ events, Stays before after events

theorem Fetches.of_stays {before between after : Session (PacedScan κ) σ} {events : List Event}
    {r : Except ClientError (List Item)} (h : Stays before between events)
    (hfetches : Fetches between r after) : Fetches before r after := by
  cases r with
  | ok items =>
    obtain ⟨events', document, htakes⟩ := hfetches
    exact ⟨_, document, .of_stays h htakes⟩
  | error e =>
    obtain ⟨events', hstays⟩ := hfetches
    exact ⟨_, h.trans hstays⟩

/-- What a call fetches, from the place where the scan was. -/
theorem Fetched.fetches {env : Environment σ} {start retries : ℕ}
    {before after : Session (PacedScan κ) σ} {r : Except ClientError (List Item)}
    (h : Fetched env start retries before r after) : Fetches before r after := by
  -- a throttled answer leaves the scan at its page, so what follows starts from the same place
  induction h with
  | failed hattempt =>
    obtain ⟨events, hstays, -⟩ := hattempt.stays
    exact ⟨events, hstays⟩
  | @page _ _ between _ page _ hattempt haccept =>
    obtain ⟨events, hstays, hpage⟩ := hattempt.stays
    obtain ⟨document, hlast, hread⟩ := hpage page rfl
    have hcalmed : Stays _ (calmed between) (events ++ []) := hstays.trans (.withPacing between _)
    rw [List.append_nil] at hcalmed
    cases haccept with
    | costless => exact ⟨events, hcalmed⟩
    | charged => exact ⟨events, document, calmed between, page, hcalmed, hlast, hread, _, rfl, rfl⟩
  | @exhausted _ between _ hattempt =>
    obtain ⟨events, hstays, -⟩ := hattempt.stays
    have hthrottled : Stays between (throttled between) [] := .withPacing between _
    exact ⟨_, hstays.trans hthrottled⟩
  | @again _ _ between _ _ _ hattempt hrest ih =>
    obtain ⟨events, hstays, -⟩ := hattempt.stays
    have hthrottled : Stays between (throttled between) [] := .withPacing between _
    exact .of_stays ((hstays.trans hthrottled).trans (.sleep _ env _)) ih

/-- Nothing happens once the scan is done; before that a page is taken or the scan stays at it. -/
def Calls (before : Session (PacedScan κ) σ) (r : Except ClientError (Option (List Item)))
    (after : Session (PacedScan κ) σ) : Prop :=
  match r with
  | .ok none => before.own.done = true ∧ after = before
  | .ok (some items) => before.own.done = false ∧
      ∃ events document, Takes before after events document items
  | .error _ => before.own.done = false ∧ ∃ events, Stays before after events

theorem nextPage_calls (env : Environment σ) (before : Session (PacedScan κ) σ) :
    (nextPage env : Step κ σ (Option (List Item))).Ensures before (Calls before) := by
  by_cases hdone : before.own.done = true
  · rw [nextPage, Client.ensures_own_bind_iff, if_pos hdone]
    exact ⟨hdone, rfl⟩
  · have hdone : before.own.done = false := Bool.eq_false_iff.mpr hdone
    refine (nextPage_fetched env hdone).imp fun outcome after h ↦ ?_
    obtain ⟨r, houtcome, hfetched⟩ := h
    have hbegun : Stays before (begun before) [] := .withPacing before _
    have hfetches := Fetches.of_stays hbegun hfetched.fetches
    rw [houtcome]
    cases r with
    | ok items => exact ⟨hdone, hfetches⟩
    | error e => exact ⟨hdone, hfetches⟩

end TableClient.PacedScan
