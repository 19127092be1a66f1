import Mathlib.Data.List.DropRight
import TableClient.Proofs.Scan.Deadline
import TableClient.Proofs.Scan.Tries

/-!
# Throttled answers

A paced scan counts the throttled answers since its last page, however many calls they came to and
whatever else went wrong in between (`throttlesSincePage`). The count says how long the scan sleeps
after a throttled answer and when it gives up. It grows with each throttled answer and the budget
bounds it, so a call gets few of them (`Retries`), and one that begins over the bound gets one.
-/

namespace TableClient

namespace Event

/-- A throttled answer came back. -/
def isThrottled : Event → Bool
  | .call _ _ _ (.error e) => e.isThrottling
  | _ => false

/-- A page came back. -/
def hasPage : Event → Bool
  | .call _ _ _ (.ok document) => (Wire.read document : Except WireError ScanOutput).isOk
  | _ => false

end Event

namespace PacedScan

variable {κ σ α : Type}

/-! ## Counting answers -/

/-- How many throttled answers there were since the last page, or since the start. -/
def throttlesSincePage (events : List Event) : ℕ :=
  (events.rtakeWhile fun event ↦ !event.hasPage).countP Event.isThrottled

theorem throttlesSincePage_concat (events : List Event) (event : Event) :
    throttlesSincePage (events ++ [event]) = if event.hasPage then 0
      else throttlesSincePage events + if event.isThrottled then 1 else 0 := by
  rw [throttlesSincePage, List.rtakeWhile_concat]
  cases event.hasPage with
  | true => rfl
  | false => exact List.countP_append.trans (congrArg _ List.countP_singleton)

theorem throttlesSincePage_sleep (events : List Event) (time duration : ℕ) :
    throttlesSincePage (events ++ [.sleep time duration]) = throttlesSincePage events :=
  throttlesSincePage_concat events _

theorem throttlesSincePage_throttled (events : List Event) {e : ServiceError}
    (hthrottling : e.isThrottling = true) (time : ℕ) (op : Operation) (params : Json) :
    throttlesSincePage (events ++ [.call time op params (.error e)]) =
      throttlesSincePage events + 1 := by
  rw [throttlesSincePage_concat, Event.isThrottled, hthrottling]
  rfl

theorem countP_isThrottled_le (events : List Event) :
    events.countP Event.isThrottled ≤ (requestTimes events).length := by
  rw [requestTimes, List.length_filterMap_eq_countP]
  refine List.countP_mono_left fun event _ hthrottled ↦ ?_
  cases event with
  | call => rfl
  | sleep => cases hthrottled

/-- What may happen before a request: one sleep, or nothing. -/
def Pause (events : List Event) : Prop :=
  events = [] ∨ ∃ time duration, events = [.sleep time duration]

theorem pause_paceEvents [CapacityUnits κ] (s : Session (PacedScan κ) σ) :
    Pause (paceEvents s) := by
  rw [paceEvents]
  split
  · exact .inr ⟨_, _, rfl⟩
  · exact .inl rfl
  · exact .inl rfl

namespace Pause

variable {pause : List Event}

theorem throttlesSincePage_append (h : Pause pause) (events : List Event) :
    throttlesSincePage (events ++ pause) = throttlesSincePage events := by
  obtain rfl | ⟨time, duration, rfl⟩ := h
  · rw [List.append_nil]
  · exact throttlesSincePage_sleep events time duration

/-- A throttled answer and the sleep after it count as one. -/
theorem throttlesSincePage_again (h : Pause pause) {events : List Event} {count : ℕ}
    (hcount : throttlesSincePage events = count) {e : ServiceError}
    (hthrottling : e.isThrottling = true) (time begun duration : ℕ) (op : Operation)
    (params : Json) :
    throttlesSincePage (events ++
      (pause ++ [.call time op params (.error e)] ++ [.sleep begun duration])) = count + 1 := by
  rw [← List.append_assoc, throttlesSincePage_sleep, ← List.append_assoc,
    throttlesSincePage_throttled _ hthrottling, h.throttlesSincePage_append, hcount]

/-- A request among events that begin with a pause: it is the first one, or a later one. -/
theorem append_eq (h : Pause pause) {event : Event} {rest earlier later : List Event} {time : ℕ}
    {op : Operation} {params : Json} {answer : Except ServiceError Json}
    (heq : pause ++ event :: rest = earlier ++ .call time op params answer :: later) :
    (earlier = pause ∧ event = .call time op params answer ∧ rest = later) ∨
      ∃ between, earlier = pause ++ event :: between ∧
        rest = between ++ .call time op params answer :: later := by
  obtain ⟨between, rfl, hcall⟩ | ⟨between, hpause, hcall⟩ := List.append_eq_append_iff.mp heq
  · cases between with
    | nil =>
      obtain ⟨rfl, rfl⟩ := List.cons.inj hcall
      exact .inl ⟨List.append_nil _, rfl, rfl⟩
    | cons event' between =>
      obtain ⟨rfl, hrest⟩ := List.cons.inj hcall
      exact .inr ⟨between, rfl, hrest⟩
  · cases between with
    | nil =>
      obtain ⟨rfl, rfl⟩ := List.cons.inj hcall
      exact .inl ⟨((List.append_nil _).symm.trans hpause.symm), rfl, rfl⟩
    | cons event' between =>
      -- the request would be in the pause
      obtain ⟨rfl, -⟩ := List.cons.inj hcall
      obtain rfl | ⟨begun, duration, rfl⟩ := h
      · simp at hpause
      · simp [List.cons_eq_append_iff] at hpause

end Pause

/-! ## The shape of a call -/

/-- A call does not end because of too many throttled answers. -/
def NotExhausted (r : Except ClientError α) : Prop :=
  ∀ attempts last, r ≠ .error (.exhausted attempts last)

/-- What a call does that has this request to send, if it can be built, and begins after so many
throttled answers since the last page; how it ends, and the count then. -/
inductive Retries (budget : ScanBudget) (request : Option Json) :
    ℕ → List Event → Except ClientError α → ℕ → Prop
  | late {count : ℕ} {timeout : Duration} (htimeout : budget.timeout = some timeout) :
      Retries budget request count [] (.error (.scanTimeout timeout)) count
  | unasked {count : ℕ} {pause : List Event} {r : Except ClientError α} (hpause : Pause pause)
      (hrequest : request = none) (hr : NotExhausted r) :
      Retries budget request count pause r count
  | failed {count time : ℕ} {pause : List Event} {params : Json} {answer : Except ServiceError Json}
      {r : Except ClientError α} (hpause : Pause pause) (hrequest : request = some params)
      (hthrottled : (Event.call time .scan params answer).isThrottled = false)
      (hpage : (Event.call time .scan params answer).hasPage = false) (hr : NotExhausted r) :
      Retries budget request count (pause ++ [.call time .scan params answer]) r count
  | page {count time : ℕ} {pause : List Event} {params : Json} {answer : Except ServiceError Json}
      {r : Except ClientError α} (hpause : Pause pause) (hrequest : request = some params)
      (hpage : (Event.call time .scan params answer).hasPage = true) (hr : NotExhausted r) :
      Retries budget request count (pause ++ [.call time .scan params answer]) r 0
  | exhausted {count time : ℕ} {pause : List Event} {params : Json} {e : ServiceError}
      (hpause : Pause pause) (hrequest : request = some params)
      (hthrottling : e.isThrottling = true)
      (hbound : budget.maxConsecutiveExceptions.toNat < count + 1) :
      Retries budget request count (pause ++ [.call time .scan params (.error e)])
        (.error (.exhausted (count + 1) e)) (count + 1)
  | again {count time begun count' : ℕ} {pause rest : List Event} {params : Json}
      {e : ServiceError} {r : Except ClientError α} (hpause : Pause pause)
      (hrequest : request = some params) (hthrottling : e.isThrottling = true)
      (hbound : count + 1 ≤ budget.maxConsecutiveExceptions.toNat)
      (hrest : Retries budget request (count + 1) rest r count') :
      Retries budget request count
        (pause ++ .call time .scan params (.error e) ::
          .sleep begun (budget.backoff (count + 1)).nanos :: rest) r count'

/-- What follows on a throttled answer to a request, the `count`th since the last page. -/
inductive FollowsThrottle (budget : ScanBudget) (params : Json) (count : ℕ) (e : ServiceError) :
    List Event → Except ClientError α → Prop
  | exhausted (hbound : budget.maxConsecutiveExceptions.toNat < count) :
      FollowsThrottle budget params count e [] (.error (.exhausted count e))
  | late {begun : ℕ} {timeout : Duration} (hbound : count ≤ budget.maxConsecutiveExceptions.toNat)
      (htimeout : budget.timeout = some timeout) :
      FollowsThrottle budget params count e [.sleep begun (budget.backoff count).nanos]
        (.error (.scanTimeout timeout))
  | again {begun time : ℕ} {pause rest : List Event} {answer : Except ServiceError Json}
      {r : Except ClientError α} (hbound : count ≤ budget.maxConsecutiveExceptions.toNat)
      (hpause : Pause pause) :
      FollowsThrottle budget params count e
        (.sleep begun (budget.backoff count).nanos ::
          (pause ++ .call time .scan params answer :: rest)) r

namespace Retries

variable {budget : ScanBudget} {request : Option Json} {count count' : ℕ} {events : List Event}
  {r : Except ClientError α}

/-- The count is right after the call if it was before. -/
theorem count_eq (h : Retries budget request count events r count') {before : List Event}
    (hcount : throttlesSincePage before = count) :
    throttlesSincePage (before ++ events) = count' := by
  -- what came before grows with each attempt, so the induction is for any such events
  induction h generalizing before with
  | late =>
    rw [List.append_nil]
    exact hcount
  | unasked hpause =>
    rw [hpause.throttlesSincePage_append]
    exact hcount
  | failed hpause _ hthrottled hpage =>
    rw [← List.append_assoc, throttlesSincePage_concat, hpause.throttlesSincePage_append,
      hthrottled, hpage, hcount]
    rfl
  | page hpause _ hpage =>
    rw [← List.append_assoc, throttlesSincePage_concat, hpage]
    rfl
  | exhausted hpause _ hthrottling =>
    rw [← List.append_assoc, throttlesSincePage_throttled _ hthrottling,
      hpause.throttlesSincePage_append, hcount]
  | again hpause _ hthrottling _ _ ih =>
    rw [List.append_cons, List.append_cons, ← List.append_assoc]
    exact ih (hpause.throttlesSincePage_again hcount hthrottling ..)

/-- A call that gives up does so at its last event, a throttled answer beyond the bound. -/
theorem of_exhausted (h : Retries budget request count events r count') {attempts : ℕ}
    {e : ServiceError} (hr : r = .error (.exhausted attempts e)) :
    (∃ time op params, events.getLast? = some (.call time op params (.error e))) ∧
      e.isThrottling = true ∧ attempts = count' ∧
      budget.maxConsecutiveExceptions.toNat < attempts := by
  induction h with
  | late => cases hr
  | unasked _ _ hnot | failed _ _ _ _ hnot | page _ _ _ hnot => exact (hnot attempts e hr).elim
  | exhausted hpause _ hthrottling hbound =>
    obtain ⟨rfl, rfl⟩ := ClientError.exhausted.inj (Except.error.inj hr)
    exact ⟨⟨_, _, _, List.getLast?_concat⟩, hthrottling, rfl, hbound⟩
  | again _ _ _ _ _ ih =>
    obtain ⟨⟨time, op, params, hlast⟩, hexhausted⟩ := ih hr
    refine ⟨⟨time, op, params, ?_⟩, hexhausted⟩
    rw [List.append_cons, List.append_cons, List.getLast?_append, hlast]
    rfl

/-- A call with a request sends it first, or is late. -/
theorem begins {params : Json} (h : Retries budget (some params) count events r count') :
    (events = [] ∧ ∃ timeout, budget.timeout = some timeout ∧ r = .error (.scanTimeout timeout)) ∨
      ∃ pause time answer rest, Pause pause ∧
        events = pause ++ .call time .scan params answer :: rest := by
  cases h with
  | late htimeout => exact .inl ⟨rfl, _, htimeout, rfl⟩
  | unasked _ hrequest => cases hrequest
  | failed hpause hrequest | page hpause hrequest | exhausted hpause hrequest
  | again hpause hrequest =>
    obtain rfl := Option.some.inj hrequest
    exact .inr ⟨_, _, _, _, hpause, rfl⟩

/-- What follows on each throttled answer. -/
theorem followsThrottle (h : Retries budget request count events r count') {before : List Event}
    (hcount : throttlesSincePage before = count) {earlier later : List Event} {time : ℕ}
    {op : Operation} {params : Json} {e : ServiceError}
    (hevents : events = earlier ++ .call time op params (.error e) :: later)
    (hthrottling : e.isThrottling = true) :
    FollowsThrottle budget params (throttlesSincePage (before ++ earlier) + 1) e later r := by
  induction h generalizing before earlier with
  | late => simp at hevents
  | unasked hpause =>
    obtain rfl | ⟨time, duration, rfl⟩ := hpause
    · simp at hevents
    · simp [List.cons_eq_append_iff] at hevents
  | failed hpause _ hthrottled =>
    -- the only answer is not a throttled one
    obtain ⟨-, heq, -⟩ | ⟨between, -, hnil⟩ := hpause.append_eq hevents
    · rw [heq, Event.isThrottled, hthrottling] at hthrottled
      cases hthrottled
    · simp at hnil
  | page hpause _ hpage =>
    obtain ⟨-, heq, -⟩ | ⟨between, -, hnil⟩ := hpause.append_eq hevents
    · rw [heq] at hpage
      cases hpage
    · simp at hnil
  | exhausted hpause _ _ hbound =>
    obtain ⟨rfl, heq, rfl⟩ | ⟨between, -, hnil⟩ := hpause.append_eq hevents
    · obtain ⟨-, -, -, he⟩ := Event.call.inj heq
      rw [Except.error.inj he, hpause.throttlesSincePage_append, hcount]
      exact .exhausted hbound
    · simp at hnil
  | again hpause hrequest hthrottling' hbound hrest ih =>
    obtain ⟨rfl, heq, rfl⟩ | ⟨between, rfl, hbetween⟩ := hpause.append_eq hevents
    · -- the answer is that of this attempt: the rest says whether there is a next one in time
      obtain ⟨-, -, rfl, -⟩ := Event.call.inj heq
      rw [hpause.throttlesSincePage_append, hcount]
      rw [hrequest] at hrest
      obtain ⟨rfl, timeout, htimeout, rfl⟩ | ⟨pause, time, answer, rest, hpause, rfl⟩ :=
        hrest.begins
      · exact .late hbound htimeout
      · exact .again hbound hpause
    · -- the answer is one of the later attempts
      cases between with
      | nil => cases (List.cons.inj hbetween).1
      | cons event between =>
        obtain ⟨rfl, hlater⟩ := List.cons.inj hbetween
        rw [List.append_cons, List.append_cons, ← List.append_assoc]
        exact ih (hpause.throttlesSincePage_again hcount hthrottling' ..) hlater

/-- A call sends few requests: the throttled answers that the scan still bears bound them. -/
theorem length_requestTimes_le (h : Retries budget request count events r count') :
    (requestTimes events).length ≤
      max 1 (budget.maxConsecutiveExceptions.toNat + 1 - count) := by
  have hpause {pause : List Event} (hpause : Pause pause) : requestTimes pause = [] := by
    obtain rfl | ⟨time, duration, rfl⟩ := hpause <;> rfl
  induction h with
  | late => exact Nat.zero_le _
  | unasked hp =>
    rw [hpause hp]
    exact Nat.zero_le _
  | failed hp | page hp | exhausted hp =>
    rw [requestTimes_append, hpause hp]
    exact Nat.le_max_left _ _
  | again hp _ _ hbound _ ih =>
    rw [requestTimes_append, hpause hp]
    refine Nat.le_trans (Nat.succ_le_succ ih) ?_
    -- the count is still within the bound, which therefore allows a request after this one
    omega

end Retries

/-! ## What a call does -/

/-- The parameters of the request for the next page, if it can be built. -/
def request? (s : PacedScan κ) : Option Json :=
  (Request.scan s.table s.config s.pageOptions).toOption.map Wire.write

theorem notExhausted_of_heard {answer : Except ServiceError Json} {e : ClientError}
    (h : heard answer = .error e) : NotExhausted (.error e : Except ClientError α) := by
  rintro attempts last heq
  obtain rfl := Except.error.inj heq
  rw [heard.eq_def] at h
  split at h
  · split at h <;> cases h
  · split at h <;> cases h

section Answer

variable {time : ℕ} {op : Operation} {params : Json} {answer : Except ServiceError Json}

theorem hasPage_eq_true_iff :
    (Event.call time op params answer).hasPage = true ↔ ∃ page, heard answer = .ok (.ok page) := by
  simp only [heard_eq_page_iff]
  cases answer with
  | error e => simp [Event.hasPage]
  | ok document =>
    cases hread : (Wire.read document : Except WireError ScanOutput) <;>
      simp [Event.hasPage, hread, Except.isOk, Except.toBool]

theorem isThrottled_eq_true_iff :
    (Event.call time op params answer).isThrottled = true ↔
      ∃ e, heard answer = .ok (.error e) := by
  simp only [heard_eq_throttled_iff]
  cases answer with
  | error e => simp [Event.isThrottled]
  | ok document => simp [Event.isThrottled]

end Answer

section Call

variable [CapacityUnits κ] {env : Environment σ} {start retries : ℕ}
  {before after : Session (PacedScan κ) σ}

/-- An attempt is late, or its request cannot be built, or it pauses and hears an answer. -/
theorem Attempts.log {r : Except ClientError (Except ServiceError ScanOutput)}
    (h : Attempts env start before r after) :
    ∃ events, after.world.history = before.world.history ++ events ∧
      ((events = [] ∧ ∃ timeout, before.own.budget.timeout = some timeout ∧
        r = .error (.scanTimeout timeout)) ∨
      (Pause events ∧ ∃ e, r = .error e ∧
        Request.scan before.own.table before.own.config before.own.pageOptions = .error e) ∨
      ∃ pause time params answer, Pause pause ∧ request? before.own = some params ∧
        events = pause ++ [.call time .scan params answer] ∧ r = heard answer) := by
  obtain ⟨windowStart, consumedInWindow, hown⟩ := paced_own env before
  have hsame : Request.scan (paced env before).own.table (paced env before).own.config
      (paced env before).own.pageOptions =
        Request.scan before.own.table before.own.config before.own.pageOptions := by
    rw [hown]
    rfl
  cases h with
  | late htimeout => exact ⟨[], (List.append_nil _).symm, .inl ⟨rfl, _, htimeout, rfl⟩⟩
  | refused _ hrequest =>
    rw [hsame] at hrequest
    exact ⟨_, paced_history env before, .inr (.inl ⟨pause_paceEvents before, _, rfl, hrequest⟩)⟩
  | @answered input _ hrequest =>
    rw [hsame] at hrequest
    refine ⟨_, ?_, .inr (.inr ⟨_, (paced env before).world.clock, Wire.write input, _,
      pause_paceEvents before, ?_, rfl, rfl⟩)⟩
    · rw [← List.append_assoc, ← paced_history env before]
      rfl
    · rw [request?, hrequest]
      rfl

/-- An attempt with an outcome has heard it. -/
theorem Attempts.answered_log {outcome : Except ServiceError ScanOutput}
    (h : Attempts env start before (.ok outcome) after) :
    ∃ pause time params answer, Pause pause ∧ request? before.own = some params ∧
      heard answer = .ok outcome ∧ after.world.history =
        before.world.history ++ (pause ++ [.call time .scan params answer]) := by
  obtain ⟨_, hevents, ⟨-, timeout, -, hr⟩ | ⟨-, e, hr, -⟩ |
    ⟨pause, time, params, answer, hpause, hrequest, rfl, hr⟩⟩ := h.log
  · cases hr
  · cases hr
  · exact ⟨pause, time, params, answer, hpause, hrequest, hr.symm, hevents⟩

/-- An attempt that is answered with a throttled answer, from which the scan goes on. -/
theorem Attempts.throttled_log {e : ServiceError}
    (h : Attempts env start before (.ok (.error e)) after) :
    e.isThrottling = true ∧ ∃ pause time params, Pause pause ∧ request? before.own = some params ∧
      after.world.history =
        before.world.history ++ (pause ++ [.call time .scan params (.error e)]) := by
  obtain ⟨pause, time, params, answer, hpause, hrequest, hheard, hevents⟩ := h.answered_log
  obtain ⟨rfl, hthrottling⟩ := heard_eq_throttled_iff.mp hheard
  exact ⟨hthrottling, pause, time, params, hpause, hrequest, hevents⟩

theorem Attempts.throttled_own {e : ServiceError}
    (h : Attempts env start before (.ok (.error e)) after) :
    ∃ windowStart consumedInWindow, (throttled after).own = before.own.withPacing fun p ↦ { p with
      windowStart, consumedInWindow, consecutiveThrottles := p.consecutiveThrottles + 1 } := by
  obtain ⟨windowStart, consumedInWindow, hown⟩ := h.own
  refine ⟨windowStart, consumedInWindow, ?_⟩
  rw [throttled, hown]
  rfl

theorem Attempts.backedOff_history {e : ServiceError}
    (h : Attempts env start before (.ok (.error e)) after) :
    (backedOff env after).world.history = after.world.history ++ [.sleep after.world.clock
      (before.own.budget.backoff (before.own.pacing.consecutiveThrottles + 1)).nanos] := by
  obtain ⟨windowStart, consumedInWindow, hown⟩ := h.throttled_own
  rw [backedOff, hown]
  rfl

/-- An attempt that has a page. -/
theorem Attempts.page_log {page : ScanOutput}
    (h : Attempts env start before (.ok (.ok page)) after) :
    ∃ pause time params answer, Pause pause ∧ request? before.own = some params ∧
      (Event.call time .scan params answer).hasPage = true ∧
      after.world.history =
        before.world.history ++ (pause ++ [.call time .scan params answer]) := by
  obtain ⟨pause, time, params, answer, hpause, hrequest, hheard, hevents⟩ := h.answered_log
  exact ⟨pause, time, params, answer, hpause, hrequest, hasPage_eq_true_iff.mpr ⟨page, hheard⟩,
    hevents⟩

/-- An attempt that ends its call. -/
theorem Attempts.retries_of_error {e : ClientError} (h : Attempts env start before (.error e) after)
    (hrefused : ∀ e, Request.scan before.own.table before.own.config before.own.pageOptions =
      .error e → NotExhausted (.error e : Except ClientError α)) :
    ∃ events, after.world.history = before.world.history ++ events ∧
      Retries before.own.budget (request? before.own) before.own.pacing.consecutiveThrottles events
        (.error e : Except ClientError α) before.own.pacing.consecutiveThrottles := by
  obtain ⟨events, hevents, ⟨rfl, timeout, htimeout, hr⟩ | ⟨hpause, e', hr, hrequest⟩ |
    ⟨pause, time, params, answer, hpause, hrequest, rfl, hr⟩⟩ := h.log
  · obtain rfl := Except.error.inj hr
    exact ⟨[], hevents, .late htimeout⟩
  · obtain rfl := Except.error.inj hr
    refine ⟨events, hevents, .unasked hpause ?_ (hrefused e hrequest)⟩
    rw [request?, hrequest]
    rfl
  · have hthrottled : (Event.call time .scan params answer).isThrottled = false := by
      rw [Bool.eq_false_iff, Ne, isThrottled_eq_true_iff, ← hr]
      rintro ⟨e, h⟩
      cases h
    have hpage : (Event.call time .scan params answer).hasPage = false := by
      rw [Bool.eq_false_iff, Ne, hasPage_eq_true_iff, ← hr]
      rintro ⟨page, h⟩
      cases h
    exact ⟨_, hevents, .failed hpause hrequest hthrottled hpage (notExhausted_of_heard hr.symm)⟩

/-- What a call does, from the count that it begins with. -/
theorem Fetched.exists_retries {r : Except ClientError (List Item)}
    (h : Fetched env start retries before r after) (hretries : retries = before.own.retriesLeft)
    (hrefused : ∀ e, Request.scan before.own.table before.own.config before.own.pageOptions =
      .error e → NotExhausted (.error e : Except ClientError (Option (List Item)))) :
    ∃ events, after.world.history = before.world.history ++ events ∧
      Retries before.own.budget (request? before.own) before.own.pacing.consecutiveThrottles events
        (r.map some) after.own.pacing.consecutiveThrottles := by
  rw [retriesLeft] at hretries
  induction h with
  | failed hattempt =>
    obtain ⟨windowStart, consumedInWindow, hown⟩ := hattempt.own
    rw [hown]
    exact hattempt.retries_of_error hrefused
  | page hattempt haccept =>
    obtain ⟨pause, time, params, answer, hpause, hrequest, hpage, hevents⟩ := hattempt.page_log
    cases haccept with
    | costless | charged =>
      refine ⟨_, hevents, .page hpause hrequest hpage fun attempts last h ↦ ?_⟩
      cases h
  | exhausted hattempt =>
    obtain ⟨windowStart, consumedInWindow, hown⟩ := hattempt.throttled_own
    obtain ⟨hthrottling, pause, time, params, hpause, hrequest, hevents⟩ := hattempt.throttled_log
    rw [hown]
    exact ⟨_, hevents, .exhausted hpause hrequest hthrottling (by omega)⟩
  | @again retries before between _ _ _ hattempt hrest ih =>
    obtain ⟨windowStart, consumedInWindow, hown⟩ := hattempt.throttled_own
    obtain ⟨hthrottling, pause, time, params, hpause, hrequest, hevents⟩ := hattempt.throttled_log
    have hpaused : (backedOff env between).own = (throttled between).own := rfl
    rw [hpaused, hown] at ih
    -- one retry less and one throttled answer more: the two keep adding up to the bound
    have hleft : retries = before.own.budget.maxConsecutiveExceptions.toNat -
        (before.own.pacing.consecutiveThrottles + 1) := by omega
    obtain ⟨events, hafter, hagain⟩ := ih hleft hrefused
    refine ⟨pause ++ .call time .scan params (.error _) :: .sleep between.world.clock
      (before.own.budget.backoff (before.own.pacing.consecutiveThrottles + 1)).nanos :: events, ?_,
      .again hpause hrequest hthrottling (by omega) hagain⟩
    rw [hafter, hattempt.backedOff_history, hevents]
    simp

/-! ## What the scan knows during a call -/

/-- The scan has counted the throttled answers since the last page: those before, and those since
the history was this. -/
def Counted (past : List Event) (history : List Event) (s : Session (PacedScan κ) σ) : Prop :=
  ∃ events, s.world.history = history ++ events ∧
    s.own.pacing.consecutiveThrottles = throttlesSincePage (past ++ events)

theorem Counted.backedOff {past history : List Event} {e : ServiceError}
    (h : Counted past history before)
    (hattempt : Attempts env start before (.ok (.error e)) after) :
    Counted past history (backedOff env after) := by
  obtain ⟨events, hevents, hcount⟩ := h
  obtain ⟨windowStart, consumedInWindow, hown⟩ := hattempt.throttled_own
  obtain ⟨hthrottling, pause, time, params, hpause, -, hhistory⟩ := hattempt.throttled_log
  refine ⟨events ++ (pause ++ [.call time .scan params (.error e)] ++ [.sleep after.world.clock
    (before.own.budget.backoff (before.own.pacing.consecutiveThrottles + 1)).nanos]), ?_, ?_⟩
  · rw [hattempt.backedOff_history, hhistory, hevents]
    simp only [List.append_assoc]
  · rw [← List.append_assoc, hpause.throttlesSincePage_again hcount.symm hthrottling,
      PacedScan.backedOff, hown]
    rfl

end Call

/-! ## All calls -/

section Calls

variable [CapacityUnits κ] {table : TableDescriptor} {config : ClientConfig} {o : PacedScanOptions}
  {s₀ s : PacedScan κ} {past : List (Turn κ σ)}

/-- The request for a page is refused for its limit only, as the scan has been checked before. -/
theorem InPlace.notExhausted_of_refused (h : InPlace o s₀ past s)
    (hstart : start table config o = .ok s₀) {e : ClientError}
    (hrefused : Request.scan s.table s.config s.pageOptions = .error e) :
    NotExhausted (.error e : Except ClientError α) := by
  obtain ⟨opening, hopening⟩ := opening_of_start hstart
  obtain ⟨remaining, cursor, done, pacing, rfl⟩ := h.same
  obtain rfl := Request.eq_limitTooLarge_of_scan_resume hopening hrefused
  intro attempts last heq
  cases Except.error.inj heq

theorem InPlace.budget_eq (h : InPlace o s₀ past s) (hstart : start table config o = .ok s₀) :
    s.budget = o.budget := by
  obtain ⟨remaining, cursor, done, pacing, rfl⟩ := h.same
  exact (budget_of_start hstart).1

theorem InPlace.turn_retries (h : InPlace o s₀ past s) (hstart : start table config o = .ok s₀)
    (env : Environment σ) (world : World σ) :
    ∃ request, Retries o.budget request s.pacing.consecutiveThrottles (turn env s world).events
      (turn env s world).outcome (turn env s world).after.own.pacing.consecutiveThrottles := by
  obtain ⟨hdone, houtcome, hafter⟩ | hdone :=
    (turn_cases env s world).imp_right (·.elim And.left And.left)
  · refine ⟨none, ?_⟩
    rw [turn_events_of_done env world hdone, houtcome, hafter]
    exact .unasked (.inl rfl) rfl fun attempts last heq ↦ by cases heq
  · obtain ⟨r, houtcome, hfetched⟩ := turn_fetched env world hdone
    obtain ⟨events, hevents, hretries⟩ :=
      hfetched.exists_retries rfl fun e hrefused ↦ h.notExhausted_of_refused hstart hrefused
    rw [Turn.events_eq hevents, houtcome, ← h.budget_eq hstart]
    exact ⟨_, hretries⟩

/-- What any calls preserve: the count is that of the throttled answers since the last page. -/
theorem InPlace.count_eq (h : InPlace o s₀ past s) (hstart : start table config o = .ok s₀)
    (hcount : s.pacing.consecutiveThrottles = throttlesSincePage (log past)) (env : Environment σ)
    (worlds : List (World σ)) :
    (reached (turns env s worlds) s).pacing.consecutiveThrottles =
      throttlesSincePage (log (past ++ turns env s worlds)) := by
  induction worlds generalizing past s with
  | nil =>
    rw [turns, List.append_nil]
    exact hcount
  | cons world worlds ih =>
    obtain ⟨request, hretries⟩ := h.turn_retries hstart env world
    rw [turns, reached_cons, ← List.singleton_append, ← List.append_assoc]
    refine ih (h.append_turn env world) ?_
    rw [log_append]
    exact (hretries.count_eq hcount.symm).symm

end Calls

end PacedScan

/-- **Throttled answers are counted, and retries end.** After any calls, and whenever an attempt of
a further call begins, the scan has counted the throttled answers since the last page. A call gives
up exactly if its last event is a throttled answer with which the count goes over the bound. Every
other throttled answer is followed by one sleep, as long as the count asks for, and by the same
request, unless the time of the scan is over. So the count with which a call begins bounds the
requests that it sends, whatever is answered.

The count is a natural number here. It is the one in the program's word of 32 bits if fewer than
`2 ^ 32` answers in a row are throttled, and a word can exceed the bound if that is less than
`2 ^ 32 - 1`; nothing is said of a program whose count has overflown. -/
theorem throttled_answers_counted_and_retries_end {κ σ : Type} [CapacityUnits κ]
    {table : TableDescriptor} {config : ClientConfig} {o : PacedScanOptions} {s₀ : PacedScan κ}
    (hstart : PacedScan.start table config o = .ok s₀) (env : Environment σ)
    (worlds : List (World σ)) (world : World σ) :
    let past := PacedScan.turns env s₀ worlds
    let s := PacedScan.reached past s₀
    let next := PacedScan.turn env s world
    let bound := o.budget.maxConsecutiveExceptions.toNat
    s.pacing.consecutiveThrottles = PacedScan.throttlesSincePage (PacedScan.log past) ∧
    (∀ s' ∈ next.tries env, PacedScan.Counted (PacedScan.log past) world.history s') ∧
    (∀ attempts e, next.outcome = .error (.exhausted attempts e) ↔
      (∃ time op params, next.events.getLast? = some (.call time op params (.error e))) ∧
        e.isThrottling = true ∧
        attempts = PacedScan.throttlesSincePage (PacedScan.log past ++ next.events) ∧
        bound < attempts) ∧
    (∀ earlier time op params e later,
      next.events = earlier ++ .call time op params (.error e) :: later → e.isThrottling = true →
        PacedScan.FollowsThrottle o.budget params
          (PacedScan.throttlesSincePage (PacedScan.log past ++ earlier) + 1) e later
          next.outcome) ∧
    next.events.countP Event.isThrottled ≤ (PacedScan.requestTimes next.events).length ∧
    (PacedScan.requestTimes next.events).length ≤
      max 1 (bound + 1 - s.pacing.consecutiveThrottles) := by
  intro past s next bound
  have hplace : PacedScan.InPlace o s₀ past s :=
    (PacedScan.inPlace_of_start hstart).append_turns env worlds
  have hcount : s.pacing.consecutiveThrottles =
      PacedScan.throttlesSincePage (PacedScan.log past) := by
    refine (PacedScan.inPlace_of_start hstart).count_eq hstart ?_ env worlds
    rw [(PacedScan.budget_of_start hstart).2]
    rfl
  obtain ⟨request, hretries⟩ := hplace.turn_retries hstart env world
  refine ⟨hcount, ?_, ?_, ?_, PacedScan.countP_isThrottled_le _, hretries.length_requestTimes_le⟩
  · intro s' hs'
    by_cases hdone : s.done = true
    · rw [PacedScan.turn_tries_of_done env world hdone] at hs'
      cases hs'
    · rw [PacedScan.turn_tries env world (Bool.eq_false_iff.mpr hdone)] at hs'
      refine PacedScan.forall_mem_tries (fun s' e between h ↦ h.backedOff) ⟨[], ?_, ?_⟩ s' hs'
      · exact (List.append_nil _).symm
      · rw [List.append_nil]
        exact hcount
  · intro attempts e
    constructor
    · intro houtcome
      obtain ⟨hlast, hthrottling, hattempts, hbound⟩ := hretries.of_exhausted houtcome
      rw [← hretries.count_eq hcount.symm] at hattempts
      exact ⟨hlast, hthrottling, hattempts, hbound⟩
    · rintro ⟨⟨time, op, params, hlast⟩, hthrottling, rfl, -⟩
      obtain ⟨earlier, hevents⟩ := List.getLast?_eq_some_iff.mp hlast
      have hfollows := hretries.followsThrottle hcount.symm hevents hthrottling
      rw [hevents, ← List.append_assoc, PacedScan.throttlesSincePage_throttled _ hthrottling]
      generalize next.outcome = outcome at hfollows
      cases hfollows
      rfl
  · intro earlier time op params e later hevents hthrottling
    exact hretries.followsThrottle hcount.symm hevents hthrottling

/-! ## A run that gives up twice -/

/-- A service that does not keep up. -/
private def overloaded : Environment Unit where
  reply _ _ _ := (⟨0, .error (.ofCode .throttling "")⟩, ())
  oversleep _ _ := (0, ())

private def impatient : PacedScanOptions where
  scan := {}
  budget := { ScanBudget.ofConfig {} 5 with maxConsecutiveExceptions := 1 }

private def impatientScan : PacedScan Float where
  table := ⟨"things", ⟨"id", none⟩, [], []⟩
  config := {}
  scan := { returnConsumedCapacity := some .total }
  pageSize := 5
  budget := impatient.budget
  remaining := none
  cursor := none
  done := false
  pacing := .initial

/-- The first call bears one throttled answer and gives up at the second one; the next call gives up
at once. -/
theorem overloaded_service_ends_calls :
    PacedScan.start ⟨"things", ⟨"id", none⟩, [], []⟩ {} impatient = .ok impatientScan ∧
      let past := PacedScan.turns overloaded impatientScan [{ service := () }]
      let next := PacedScan.turn overloaded (PacedScan.reached past impatientScan)
        { service := (), clock := paceWindow }
      PacedScan.throttlesSincePage (PacedScan.log past) = 2 ∧
      (PacedScan.requestTimes next.events).length ≤ 1 ∧
      next.outcome = .error (.exhausted 3 (.ofCode .throttling "")) := by
  have hstart : PacedScan.start ⟨"things", ⟨"id", none⟩, [], []⟩ {} impatient =
      .ok impatientScan := rfl
  obtain ⟨hcount, -, hexhausted, -, -, hrequests⟩ := throttled_answers_counted_and_retries_end
    hstart overloaded [{ service := () }] { service := (), clock := paceWindow }
  refine ⟨hstart, hcount.symm.trans rfl, hrequests, ?_⟩
  exact (hexhausted 3 _).mpr ⟨⟨paceWindow, .scan, _, rfl⟩, rfl, rfl, by decide⟩

end TableClient
