import TableClient.Proofs.Client.Metadata
import TableClient.Proofs.Http.Response
import TableClient.Proofs.Scan.Turns

/-!
# Scans over HTTP

A service over HTTP answers each request with a response, and the client reads an answer from it.
The responses are kept as they come, so what a call of a paced scan makes of them can be told from
the responses themselves (`Judges`): it makes another attempt after a response that asks for it, as
long as it may, and every other response is its last one.
-/

namespace TableClient

/-! ## Services over HTTP -/

/-- A service over HTTP: its responses and how long they take, and how much longer than asked a
sleep lasts. -/
structure Http.Service (σ : Type) where
  respond : Operation → Json → σ → (ℕ × Http.Response) × σ
  oversleep : ℕ → σ → ℕ × σ

/-- The surroundings of a client of the service. All responses are kept, the first first. -/
def Http.Service.environment {σ : Type} (service : Http.Service σ) :
    Environment (σ × List Http.Response) where
  reply op params s :=
    let ((latency, response), next) := service.respond op params s.1
    (⟨latency, response.answer⟩, (next, s.2 ++ [response]))
  oversleep duration s :=
    let (more, next) := service.oversleep duration s.1
    (more, (next, s.2))

namespace PacedScan

variable {κ σ : Type}

/-- The responses that have come. -/
def responses (s : Session (PacedScan κ) (σ × List Http.Response)) : List Http.Response :=
  s.world.service.2

/-- The responses that came during a call. -/
def Turn.responses (t : Turn κ (σ × List Http.Response)) : List Http.Response :=
  (PacedScan.responses t.after).drop (PacedScan.responses t.before).length

/-- From one session to another these responses have come, each the answer to a call. -/
def Hears (before after : Session (PacedScan κ) (σ × List Http.Response))
    (rs : List Http.Response) : Prop :=
  responses after = responses before ++ rs ∧
    ∃ events, after.world.history = before.world.history ++ events ∧
      events.filterMap Event.answer? = rs.map (·.answer)

section Hears

variable {before between after : Session (PacedScan κ) (σ × List Http.Response)}
  {rs rs' : List Http.Response}

theorem Hears.refl (s : Session (PacedScan κ) (σ × List Http.Response)) : Hears s s [] :=
  ⟨(List.append_nil _).symm, [], (List.append_nil _).symm, rfl⟩

theorem Hears.trans (h : Hears before between rs) (h' : Hears between after rs') :
    Hears before after (rs ++ rs') := by
  obtain ⟨hrs, events, hevents, hanswers⟩ := h
  obtain ⟨hrs', events', hevents', hanswers'⟩ := h'
  refine ⟨?_, events ++ events', ?_, ?_⟩
  · rw [hrs', hrs, List.append_assoc]
  · rw [hevents', hevents, List.append_assoc]
  · rw [List.filterMap_append, hanswers, hanswers', List.map_append]

theorem hears_sleep (service : Http.Service σ) (duration : ℕ)
    (s : Session (PacedScan κ) (σ × List Http.Response)) :
    Hears s { s with world := s.world.sleep service.environment duration } [] :=
  ⟨(List.append_nil _).symm, _, rfl, rfl⟩

/-- A call is answered with what the client reads in the response. -/
theorem hears_asked (service : Http.Service σ)
    (s : Session (PacedScan κ) (σ × List Http.Response)) (input : ScanInput) :
    ∃ response : Http.Response, Hears s (asked service.environment s input) [response] ∧
      (s.world.call service.environment .scan (Wire.write input)).1 = response.answer :=
  ⟨_, ⟨rfl, _, rfl, rfl⟩, rfl⟩

theorem hears_paced [CapacityUnits κ] (service : Http.Service σ)
    (s : Session (PacedScan κ) (σ × List Http.Response)) :
    Hears s (paced service.environment s) [] := by
  rw [paced]
  cases s.own.pacing.pace s.own.budget s.world.clock with
  | proceed => exact .refl s
  | newWindow => exact ⟨(List.append_nil _).symm, [], (List.append_nil _).symm, rfl⟩
  | sleep duration => exact hears_sleep service duration s

end Hears

/-! ## What a call makes of the responses -/

section Made

variable [CapacityUnits κ]

/-- What a scan makes of an answer that does not have it ask again: of a page whose cost is known,
or need not be, the items that are wanted. -/
def made (s : PacedScan κ) : Except ServiceError Json → Except ClientError (List Item)
  | .error failure => .error (.service failure)
  | .ok document =>
    match (Wire.read document : Except WireError ScanOutput) with
    | .error fault => .error (.serialization fault)
    | .ok page =>
      if (s.cost? page).isSome then .ok (s.wanted page) else .error .missingConsumedCapacity

variable {s : PacedScan κ} {answer : Except ServiceError Json}

theorem made_of_page {document : Json} {page : ScanOutput} (hread : Wire.read document = .ok page) :
    s.made (.ok document) =
      if (s.cost? page).isSome then .ok (s.wanted page) else .error .missingConsumedCapacity := by
  rw [made, hread]

theorem made_eq_ok_iff {items : List Item} : s.made answer = .ok items ↔
    ∃ document page, answer = .ok document ∧ Wire.read document = .ok page ∧
      (s.cost? page).isSome = true ∧ items = s.wanted page := by
  constructor
  · intro h
    rw [made.eq_def] at h
    split at h
    · cases h
    · next document =>
      split at h
      · cases h
      · next page hread =>
        by_cases hcost : (s.cost? page).isSome = true
        · rw [if_pos hcost] at h
          exact ⟨document, page, rfl, hread, hcost, (Except.ok.inj h).symm⟩
        · rw [if_neg hcost] at h
          cases h
  · rintro ⟨document, page, rfl, hread, hcost, rfl⟩
    rw [made_of_page hread, if_pos hcost]

/-- An answer that fails its attempt. -/
theorem made_of_heard {e : ClientError} (h : heard answer = .error e) :
    s.made answer = .error e := by
  rw [heard.eq_def] at h
  rw [made.eq_def]
  split at h
  · next document =>
    dsimp only
    split at h
    · cases h
    · next fault hread =>
      rw [hread]
      exact congrArg Except.error (Except.error.inj h)
  · split at h
    · cases h
    · exact congrArg Except.error (Except.error.inj h)

theorem Accepts.made_eq {before after : Session (PacedScan κ) σ} {document : Json}
    {page : ScanOutput} {r : Except ClientError (List Item)} (h : Accepts before page r after)
    (hread : Wire.read document = .ok page) : before.own.made (.ok document) = r := by
  rw [made_of_page hread]
  cases h with
  | costless hcost => rw [hcost, Option.isSome_none, if_neg Bool.false_ne_true]
  | charged hcost => rw [hcost, Option.isSome_some, if_pos rfl]

end Made

/-- Why nothing is sent at this time, in a scan that began at `start`. -/
inductive Unsent (s : PacedScan κ) (start clock : ℕ) : Except ClientError (List Item) → Prop
  | late {timeout : Duration} (htimeout : s.budget.timeout = some timeout)
      (hlate : timeout.nanos < clock - start) : Unsent s start clock (.error (.scanTimeout timeout))
  | refused {e : ClientError} (hrequest : Request.scan s.table s.config s.pageOptions = .error e) :
      Unsent s start clock (.error e)

/-- What a call makes of the responses that come during it, where the scan began at `start` and so
many further attempts may be made: how it ends, and at what time. -/
inductive Judges [CapacityUnits κ] (s : PacedScan κ) (start : ℕ) :
    ℕ → List Http.Response → Except ClientError (List Item) → ℕ → Prop
  | unsent {retries clock : ℕ} {outcome : Except ClientError (List Item)}
      (hunsent : Unsent s start clock outcome) : Judges s start retries [] outcome clock
  | again {retries clock : ℕ} {r : Http.Response} {rs : List Http.Response} {input : ScanInput}
      {outcome : Except ClientError (List Item)}
      (hrequest : Request.scan s.table s.config s.pageOptions = .ok input) (hasks : r.AsksRetry)
      (hrest : Judges s start retries rs outcome clock) :
      Judges s start (retries + 1) (r :: rs) outcome clock
  | exhausted {clock attempts : ℕ} {r : Http.Response} {e : ServiceError} (hasks : r.AsksRetry)
      (hanswer : r.answer = .error e) :
      Judges s start 0 [r] (.error (.exhausted attempts e)) clock
  | ended {retries clock : ℕ} {r : Http.Response} {outcome : Except ClientError (List Item)}
      (hasks : ¬r.AsksRetry) (hmade : s.made r.answer = outcome) :
      Judges s start retries [r] outcome clock

/-- A response that does not have its attempt end as throttled does not ask for repetition. -/
theorem not_asksRetry_of_heard {r : Http.Response}
    (h : ∀ e, heard r.answer ≠ .ok (.error e)) : ¬r.AsksRetry := by
  intro hasks
  obtain ⟨failure, hanswer, hthrottling⟩ := Http.Response.asksRetry_iff.mp hasks
  exact h failure (heard_eq_throttled_iff.mpr ⟨hanswer, hthrottling⟩)

/-- The scan has not moved on: all that may differ is its pacing. -/
def SamePlace (s s' : PacedScan κ) : Prop :=
  ∃ pacing, s' = { s with pacing }

section SamePlace

variable {s s' : PacedScan κ}

theorem SamePlace.withPacing (h : SamePlace s s') (f : Pacing κ → Pacing κ) :
    SamePlace s (s'.withPacing f) := by
  obtain ⟨pacing, rfl⟩ := h
  exact ⟨f pacing, rfl⟩

theorem SamePlace.request_eq (h : SamePlace s s') :
    Request.scan s'.table s'.config s'.pageOptions =
      Request.scan s.table s.config s.pageOptions := by
  obtain ⟨pacing, rfl⟩ := h
  rfl

theorem SamePlace.budget_eq (h : SamePlace s s') : s'.budget = s.budget := by
  obtain ⟨pacing, rfl⟩ := h
  rfl

theorem SamePlace.made_eq [CapacityUnits κ] (h : SamePlace s s') : s'.made = s.made := by
  obtain ⟨pacing, rfl⟩ := h
  rfl

end SamePlace

section Fetched

variable [CapacityUnits κ] {service : Http.Service σ} {s : PacedScan κ} {start retries : ℕ}
  {before after : Session (PacedScan κ) (σ × List Http.Response)}

/-- An attempt of a scan at this place: it hears one response, or none if it is given up. -/
theorem Attempts.hears {r : Except ClientError (Except ServiceError ScanOutput)}
    (h : Attempts service.environment start before r after) (hplace : SamePlace s before.own) :
    SamePlace s after.own ∧
    ((∃ response input, Hears before after [response] ∧ r = heard response.answer ∧
      Request.scan s.table s.config s.pageOptions = .ok input) ∨
    Hears before after [] ∧
      ((∃ timeout, s.budget.timeout = some timeout ∧ r = .error (.scanTimeout timeout) ∧
        timeout.nanos < before.world.clock - start ∧ after = before) ∨
      ∃ e, r = .error e ∧ Request.scan s.table s.config s.pageOptions = .error e)) := by
  have hpaced : SamePlace s (paced service.environment before).own := by
    obtain ⟨windowStart, consumed, hown⟩ := paced_own service.environment before
    rw [hown]
    exact hplace.withPacing _
  have hrequest := hpaced.request_eq
  cases h with
  | late htimeout hlate =>
    rw [hplace.budget_eq] at htimeout
    exact ⟨hplace, .inr ⟨.refl before, .inl ⟨_, htimeout, rfl, hlate, rfl⟩⟩⟩
  | refused hontime hrefused =>
    exact ⟨hpaced, .inr ⟨hears_paced service before, .inr ⟨_, rfl, hrequest.symm.trans hrefused⟩⟩⟩
  | @answered input hontime hasked =>
    obtain ⟨response, hhears, hanswer⟩ :=
      hears_asked service (paced service.environment before) input
    refine ⟨hpaced, .inl ⟨response, input, (hears_paced service before).trans hhears, ?_,
      hrequest.symm.trans hasked⟩⟩
    rw [hanswer]

/-- An attempt that is answered with a throttled answer. -/
theorem Attempts.hears_throttled {e : ServiceError}
    (h : Attempts service.environment start before (.ok (.error e)) after)
    (hplace : SamePlace s before.own) :
    SamePlace s after.own ∧ ∃ response input,
      Hears before after [response] ∧ response.answer = .error e ∧ response.AsksRetry ∧
      Request.scan s.table s.config s.pageOptions = .ok input := by
  obtain ⟨hafter, ⟨response, input, hhears, hheard, hrequest⟩ |
    ⟨-, ⟨timeout, -, hr, -⟩ | ⟨e, hr, -⟩⟩⟩ := h.hears hplace
  · obtain ⟨hanswer, hthrottling⟩ := heard_eq_throttled_iff.mp hheard.symm
    exact ⟨hafter, response, input, hhears, hanswer,
      Http.Response.asksRetry_iff.mpr ⟨e, hanswer, hthrottling⟩, hrequest⟩
  · cases hr
  · cases hr

/-- What a call makes of the responses that it hears. It hears none only if the time of the scan was
over before, or if the request is refused. -/
theorem Fetched.judges {r : Except ClientError (List Item)}
    (h : Fetched service.environment start retries before r after)
    (hplace : SamePlace s before.own) :
    ∃ rs, Hears before after rs ∧ Judges s start retries rs r after.world.clock ∧
      (rs = [] → Unsent s start before.world.clock r) := by
  induction h with
  | @failed retries before after e hattempt =>
    obtain ⟨-, ⟨response, input, hhears, hheard, -⟩ |
      ⟨hhears, ⟨timeout, htimeout, hr, hlate, hafter⟩ | ⟨e, hr, hrequest⟩⟩⟩ := hattempt.hears hplace
    · refine ⟨_, hhears, .ended (not_asksRetry_of_heard fun failure hthrottled ↦ ?_)
        (made_of_heard hheard.symm), fun hnil ↦ ?_⟩
      · cases hheard.trans hthrottled
      · cases hnil
    · obtain rfl := Except.error.inj hr
      refine ⟨_, hhears, .unsent (.late htimeout ?_), fun _ ↦ .late htimeout hlate⟩
      rw [hafter]
      exact hlate
    · obtain rfl := Except.error.inj hr
      exact ⟨_, hhears, .unsent (.refused hrequest), fun _ ↦ .refused hrequest⟩
  | @page retries before between after page r hattempt haccept =>
    obtain ⟨hbetween, ⟨response, input, hhears, hheard, -⟩ |
      ⟨-, ⟨timeout, -, hr, -⟩ | ⟨e, hr, -⟩⟩⟩ := hattempt.hears hplace
    · obtain ⟨document, hanswer, hread⟩ := heard_eq_page_iff.mp hheard.symm
      have hmade := haccept.made_eq hread
      rw [hbetween.made_eq, ← hanswer] at hmade
      refine ⟨_, ?_, .ended (not_asksRetry_of_heard fun failure hthrottled ↦ ?_) hmade,
        fun hnil ↦ ?_⟩
      · cases haccept <;> exact hhears
      · cases hheard.trans hthrottled
      · cases hnil
    · cases hr
    · cases hr
  | exhausted hattempt =>
    obtain ⟨-, response, input, hhears, hanswer, hasks, -⟩ := hattempt.hears_throttled hplace
    refine ⟨_, hhears, .exhausted hasks hanswer, fun hnil ↦ ?_⟩
    cases hnil
  | @again retries before between after e r hattempt hrest ih =>
    obtain ⟨hbetween, response, input, hhears, hanswer, hasks, hrequest⟩ :=
      hattempt.hears_throttled hplace
    have hplace' : SamePlace s (throttled between).own := hbetween.withPacing fun p ↦
      { p with consecutiveThrottles := p.consecutiveThrottles + 1 }
    obtain ⟨rs, hrs, hjudges, -⟩ := ih hplace'
    have hcounted : Hears before (throttled between) [response] := hhears
    have hslept : Hears (throttled between) (backedOff service.environment between) [] :=
      hears_sleep service _ (throttled between)
    refine ⟨_, hcounted.trans (hslept.trans hrs), .again hrequest hasks hjudges, fun hnil ↦ ?_⟩
    cases hnil

end Fetched

/-! ## What the responses tell -/

section Judges

variable [CapacityUnits κ] {s : PacedScan κ} {start retries clock : ℕ}
  {earlier later : List Http.Response} {r : Http.Response}
  {outcome : Except ClientError (List Item)}

theorem Judges.tail (h : Judges s start retries (r :: later) outcome clock) (hlater : later ≠ []) :
    r.AsksRetry ∧ ∃ retries', retries = retries' + 1 ∧
      Judges s start retries' later outcome clock := by
  cases h with
  | again hrequest hasks hrest => exact ⟨hasks, _, rfl, hrest⟩
  | exhausted | ended => exact absurd rfl hlater

/-- What is made of one response does not depend on the ones before, but for their number. -/
theorem Judges.drop (h : Judges s start retries (earlier ++ r :: later) outcome clock) :
    ∃ retries', retries = earlier.length + retries' ∧
      Judges s start retries' (r :: later) outcome clock := by
  induction earlier generalizing retries with
  | nil => exact ⟨retries, (Nat.zero_add _).symm, h⟩
  | cons _ earlier ih =>
    obtain ⟨-, retries', rfl, hrest⟩ := h.tail (by simp)
    obtain ⟨retries'', rfl, hdrop⟩ := ih hrest
    refine ⟨retries'', ?_, hdrop⟩
    rw [List.length_cons]
    omega

/-- The last response either asks for another attempt, which is not made any more, or it ends the
call. -/
theorem Judges.last (h : Judges s start retries [r] outcome clock) :
    (r.AsksRetry ∧
      ((retries = 0 ∧ ∃ attempts e, r.answer = .error e ∧
        outcome = .error (.exhausted attempts e)) ∨
      (0 < retries ∧ ∃ timeout, s.budget.timeout = some timeout ∧ timeout.nanos < clock - start ∧
        outcome = .error (.scanTimeout timeout)))) ∨
    (¬r.AsksRetry ∧ s.made r.answer = outcome) := by
  cases h with
  | again hrequest hasks hrest =>
    refine .inl ⟨hasks, .inr ⟨Nat.succ_pos _, ?_⟩⟩
    rcases hrest with ⟨⟨htimeout, hlate⟩ | hrefused⟩
    · exact ⟨_, htimeout, hlate, rfl⟩
    -- the request was sent before, so it is not refused now
    · cases hrequest.symm.trans hrefused
  | exhausted hasks hanswer => exact .inl ⟨hasks, .inl ⟨rfl, _, _, hanswer, rfl⟩⟩
  | ended hasks hmade => exact .inr ⟨hasks, hmade⟩

/-- A page that was taken is the one of the last response. -/
theorem Judges.of_ok {rs : List Http.Response} {items : List Item}
    (h : Judges s start retries rs (.ok items) clock) :
    ∃ earlier r, rs = earlier ++ [r] ∧ s.made r.answer = .ok items := by
  generalize hok : (.ok items : Except ClientError (List Item)) = outcome at h
  induction h with
  | unsent hunsent => rcases hunsent with _ | _ <;> cases hok
  | exhausted => cases hok
  | again hrequest hasks hrest ih =>
    obtain ⟨earlier, r, rfl, hmade⟩ := ih hok
    exact ⟨_ :: earlier, r, rfl, hmade⟩
  | @ended _ _ r _ _ hmade => exact ⟨[], r, rfl, hmade⟩

end Judges

/-- What a call makes of the responses that come during it, in a scan that began at `start`. -/
structure GoesByResponses [CapacityUnits κ] (s : PacedScan κ) (start : ℕ)
    (t : Turn κ (σ × List Http.Response)) : Prop where
  /-- All that is sent is the request for the page that the scan is at. -/
  requests : ∀ event ∈ t.events, s.Asks event
  answers : t.events.filterMap Event.answer? = t.responses.map (·.answer)
  /-- Unless the scan is done, nothing comes only if the time of the scan is over when the call is
  made, or if the request cannot be built. -/
  sends : s.done = false → t.responses = [] →
    ∃ r, t.outcome = r.map some ∧ Unsent s start t.before.world.clock r
  repeated : ∀ earlier r later, t.responses = earlier ++ r :: later → later ≠ [] → r.AsksRetry
  /-- A response that asks for another attempt is the last one only if there were too many of them,
  or if the time of the scan is over. -/
  notRepeated : ∀ earlier r, t.responses = earlier ++ [r] → r.AsksRetry →
    (earlier.length = s.retriesLeft ∧ ∃ attempts e, r.answer = .error e ∧
      t.outcome = .error (.exhausted attempts e)) ∨
    (earlier.length < s.retriesLeft ∧ ∃ timeout, s.budget.timeout = some timeout ∧
      timeout.nanos < t.after.world.clock - start ∧ t.outcome = .error (.scanTimeout timeout))
  accepted : ∀ items, t.outcome = .ok (some items) → ∃ earlier r document page,
    t.responses = earlier ++ [r] ∧ r.ChecksumHolds ∧ (200 ≤ r.status ∧ r.status < 300) ∧
      r.HasDocument document ∧ Wire.read document = .ok page ∧ items = s.wanted page
  /-- Every other response ends the call with what the scan makes of it. -/
  other : ∀ earlier r, t.responses = earlier ++ [r] → ¬r.AsksRetry →
    t.outcome = (s.made r.answer).map some
  failed : ∀ e, t.outcome = .error e → SamePlace s t.after.own
  damaged : ∀ r ∈ t.responses, ¬r.ChecksumHolds → ∃ earlier failure,
    t.responses = earlier ++ [r] ∧ r.answer = .error failure ∧
      t.outcome = .error (.service failure)
  status : ∀ r ∈ t.responses, r.ChecksumHolds → ∀ failure, r.answer = .error failure →
    failure.status = r.status

section Turn

variable [CapacityUnits κ] {s : PacedScan κ} {start : ℕ} {t : Turn κ (σ × List Http.Response)}

omit [CapacityUnits κ] in
theorem Turn.responses_eq {rs : List Http.Response} (h : Hears t.before t.after rs) :
    t.responses = rs := by
  rw [Turn.responses, h.1, List.drop_left]

omit [CapacityUnits κ] in
theorem Turn.answers_eq {rs : List Http.Response} (h : Hears t.before t.after rs) :
    t.events.filterMap Event.answer? = rs.map (·.answer) := by
  obtain ⟨-, events, hevents, hanswers⟩ := h
  rw [Turn.events_eq hevents, hanswers]

/-- A damaged response is the last one, and its failure is that of the call. -/
theorem Judges.of_damaged {retries clock : ℕ} {rs : List Http.Response} {r : Http.Response}
    {outcome : Except ClientError (List Item)} (h : Judges s start retries rs outcome clock)
    (hr : r ∈ rs) (hdamaged : ¬r.ChecksumHolds) : ∃ earlier failure,
      rs = earlier ++ [r] ∧ r.answer = .error failure ∧ outcome = .error (.service failure) := by
  have hasks : ¬r.AsksRetry := fun hasks ↦ hdamaged hasks.checksum
  obtain ⟨earlier, later, rfl⟩ := List.append_of_mem hr
  obtain ⟨retries', -, hdrop⟩ := h.drop
  by_cases hlater : later = []
  · rw [hlater] at hdrop ⊢
    obtain ⟨hasks', -⟩ | ⟨-, hmade⟩ := hdrop.last
    · exact absurd hasks' hasks
    · obtain ⟨failure, hanswer⟩ := Http.Response.exists_answer_of_damaged hdamaged
      rw [hanswer] at hmade
      exact ⟨earlier, failure, rfl, hanswer, hmade.symm⟩
  · exact absurd (hdrop.tail hlater).1 hasks

/-- A call of a scan that is done hears nothing. -/
theorem goesByResponses_of_done (hdone : s.done = true) (hevents : t.events = [])
    (hresponses : t.responses = []) (houtcome : t.outcome = .ok none) :
    GoesByResponses s start t where
  requests := by
    rw [hevents]
    exact List.forall_mem_nil _
  answers := by
    rw [hevents, hresponses]
    rfl
  sends hnot := by cases hdone.symm.trans hnot
  repeated earlier r later hrs := by simp [hresponses] at hrs
  notRepeated earlier r hrs := by simp [hresponses] at hrs
  accepted items hitems := by cases houtcome.symm.trans hitems
  other earlier r hrs := by simp [hresponses] at hrs
  failed e he := by cases houtcome.symm.trans he
  damaged := by
    rw [hresponses]
    exact List.forall_mem_nil _
  status := by
    rw [hresponses]
    exact List.forall_mem_nil _

/-- A call that fetches goes by its responses. -/
theorem goesByResponses_of_judges {r : Except ClientError (List Item)}
    (hrequests : ∀ event ∈ t.events, s.Asks event)
    (hanswers : t.events.filterMap Event.answer? = t.responses.map (·.answer))
    (hfailed : ∀ e, t.outcome = .error e → SamePlace s t.after.own)
    (houtcome : t.outcome = r.map some)
    (hjudges : Judges s start s.retriesLeft t.responses r t.after.world.clock)
    (hsends : t.responses = [] → Unsent s start t.before.world.clock r) :
    GoesByResponses s start t where
  requests := hrequests
  answers := hanswers
  failed := hfailed
  sends _ hnone := ⟨r, houtcome, hsends hnone⟩
  repeated := by
    intro earlier r' later hresponses hlater
    rw [hresponses] at hjudges
    obtain ⟨retries', -, hdrop⟩ := hjudges.drop
    exact (hdrop.tail hlater).1
  notRepeated := by
    intro earlier r' hresponses hasks
    rw [hresponses] at hjudges
    obtain ⟨retries', hretries, hdrop⟩ := hjudges.drop
    obtain ⟨-, ⟨hzero, attempts, e, hanswer, hr⟩ | ⟨hpos, timeout, htimeout, hlate, hr⟩⟩ |
      ⟨hnot, -⟩ := hdrop.last
    · refine .inl ⟨by omega, attempts, e, hanswer, ?_⟩
      rw [houtcome, hr]
      rfl
    · refine .inr ⟨by omega, timeout, htimeout, hlate, ?_⟩
      rw [houtcome, hr]
      rfl
    · exact absurd hasks hnot
  accepted := by
    intro items hitems
    obtain ⟨items', hr, hsome⟩ := Except.map_eq_ok_iff.mp (houtcome.symm.trans hitems)
    obtain rfl := Option.some.inj hsome
    rw [hr] at hjudges
    obtain ⟨earlier, r', hresponses, hmade⟩ := hjudges.of_ok
    obtain ⟨document, page, hanswer, hread, -, hwanted⟩ := made_eq_ok_iff.mp hmade
    obtain ⟨hholds, hdocument, hsuccess⟩ := Http.Response.answer_eq_ok_iff.mp hanswer
    exact ⟨earlier, r', document, page, hresponses, hholds,
      Http.Response.isSuccess_iff.mp hsuccess, hdocument, hread, hwanted⟩
  other := by
    intro earlier r' hresponses hnot
    rw [hresponses] at hjudges
    obtain ⟨retries', hretries, hdrop⟩ := hjudges.drop
    obtain ⟨hasks, -⟩ | ⟨-, hmade⟩ := hdrop.last
    · exact absurd hasks hnot
    · rw [houtcome, hmade]
  damaged := by
    intro r' hr' hdamaged
    obtain ⟨earlier, failure, hresponses, hanswer, hr⟩ := hjudges.of_damaged hr' hdamaged
    refine ⟨earlier, failure, hresponses, hanswer, ?_⟩
    rw [houtcome, hr]
    rfl
  status r' _ hholds failure hanswer := Http.Response.status_of_answer hholds hanswer

end Turn

end PacedScan

/-- **From responses to retries.** A call of a paced scan over HTTP sends its request if it is in
time, and asks for its page again exactly after the responses that ask for it, as long as it may. It
takes a page only from an undamaged response whose status is a success. Every other response ends
the call with its failure, which tells its status unless the response is damaged, and leaves the
scan where it was. -/
theorem scan_goes_by_responses {κ σ : Type} [CapacityUnits κ] (service : Http.Service σ)
    (s : PacedScan κ) (world : World (σ × List Http.Response)) :
    PacedScan.GoesByResponses s (s.pacing.scanStart.getD world.clock)
      (PacedScan.turn service.environment s world) := by
  by_cases hdone : s.done = true
  · have hafter := PacedScan.turn_after_of_done service.environment world hdone
    refine PacedScan.goesByResponses_of_done hdone
      (PacedScan.turn_events_of_done service.environment world hdone) ?_ ?_
    · refine PacedScan.Turn.responses_eq ?_
      rw [hafter]
      exact .refl _
    · obtain ⟨-, houtcome, -⟩ | ⟨hnot, -⟩ | ⟨hnot, -⟩ :=
        PacedScan.turn_cases service.environment s world
      · exact houtcome
      · cases hdone.symm.trans hnot
      · cases hdone.symm.trans hnot
  · obtain ⟨r, houtcome, hfetched⟩ :=
      PacedScan.turn_fetched service.environment world (Bool.eq_false_iff.mpr hdone)
    obtain ⟨rs, hhears, hjudges, hsends⟩ := hfetched.judges ⟨_, rfl⟩
    have hresponses := PacedScan.Turn.responses_eq
      (t := PacedScan.turn service.environment s world) hhears
    refine PacedScan.goesByResponses_of_judges
      (fun event hevent ↦ (PacedScan.asks_of_mem_turn_events hevent).2) ?_ ?_ houtcome ?_ ?_
    · rw [hresponses]
      exact PacedScan.Turn.answers_eq hhears
    · intro e he
      obtain ⟨hdone', -⟩ | ⟨-, -, hstays⟩ | ⟨-, items, document, hitems, -⟩ :=
        PacedScan.turn_cases service.environment s world
      · exact absurd hdone' hdone
      · exact hstays.place
      · cases hitems.symm.trans he
    · rw [hresponses]
      exact hjudges
    · rw [hresponses]
      exact hsends

/-! ## A throttled page -/

private def responseOf (status : ℕ) (checksum : Option String) (text : String) : Http.Response :=
  ⟨status, checksum, text.toUTF8.data.toList⟩

/-- A service that is busy at first, each response after a window. -/
private def busyService : Http.Service Bool where
  respond _ _ busy :=
    ((paceWindow,
      if busy then responseOf 400 none "\x7b\"__type\":\"scan#ThrottlingException\"\x7d"
      else responseOf 200 (some "1918574907")
        "\x7b\"Items\":[\x7b\"id\":\x7b\"S\":\"a\"\x7d\x7d]\x7d"), false)
  oversleep _ busy := (0, busy)

private def patientScan : PacedScan Float where
  table := ⟨"things", ⟨"id", none⟩, [], []⟩
  config := {}
  scan := {}
  pageSize := 5
  budget := { ScanBudget.ofConfig {} 5 with allowWithoutConsumedCapacity := true }
  remaining := none
  cursor := none
  done := false
  pacing := .initial

/-- The first response asks for another attempt, whose page is taken. -/
theorem throttled_page_taken_later :
    let t := PacedScan.turn busyService.environment patientScan { service := (true, []) }
    ∃ first last, t.responses = [first, last] ∧ first.AsksRetry ∧ last.ChecksumHolds ∧
      t.items? = some [[("id", .string "a")]] := by
  intro t
  have hgoes := scan_goes_by_responses busyService patientScan { service := (true, []) }
  have hstatus : t.responses.map (·.status) = [400, 200] := by decide +kernel
  have hitems : t.items? = some [[("id", .string "a")]] := by decide +kernel
  obtain ⟨first, last, hresponses⟩ : ∃ first last, t.responses = [first, last] := by
    refine List.length_eq_two.mp ?_
    rw [← List.length_map (·.status), hstatus]
    rfl
  have houtcome : t.outcome = .ok (some [[("id", .string "a")]]) := by
    rw [PacedScan.Turn.items?] at hitems
    split at hitems
    · next houtcome => rw [houtcome, hitems]
    · cases hitems
  obtain ⟨earlier, r, document, page, htaken, hholds, -⟩ := hgoes.accepted _ houtcome
  obtain ⟨-, hlast⟩ := List.append_inj' (htaken.symm.trans hresponses : _ = [first] ++ [last]) rfl
  rw [List.singleton_inj.mp hlast] at hholds
  refine ⟨first, last, hresponses, ?_, hholds, hitems⟩
  exact hgoes.repeated [] first [last] hresponses (List.cons_ne_nil last [])

end TableClient
