import TableClient.Proofs.Scan.Events
import TableClient.Proofs.Scan.Place

/-!
# The deadline of a paced scan

The time of a scan counts from its first call. Each attempt looks at the clock before anything else,
so once the time is over a call sends nothing. But an attempt that is in time may sleep to the end
of its window before it sends, and the clock is not looked at again: a request is late exactly if it
follows on such a sleep that went on beyond the deadline (`Punctual`).
-/

namespace TableClient

theorem Pacing.le_maxSleep_of_pace {κ : Type} [CapacityUnits κ] {p : Pacing κ}
    {budget : ScanBudget} {now duration : ℕ} (h : p.pace budget now = .sleep duration) :
    duration ≤ budget.maxSleep.nanos := by
  rw [pace] at h
  split at h
  · cases h
  · split at h
    · cases h
    · split at h
      · obtain rfl := Pace.sleep.inj h
        exact Nat.min_le_right _ _
      · cases h

namespace PacedScan

variable {κ σ : Type}

/-! ## Requests in time -/

/-- Each request is sent by the deadline, or at the end of a sleep that began by the deadline and
was to last no longer than `longest`. -/
def Punctual (env : Environment σ) (longest deadline : ℕ) (events : List Event) : Prop :=
  ∀ earlier time op params answer later,
    events = earlier ++ .call time op params answer :: later →
      time ≤ deadline ∨ ∃ before begun duration service,
        earlier = before ++ [.sleep begun duration] ∧ begun ≤ deadline ∧ duration ≤ longest ∧
          time = begun + duration + (env.oversleep duration service).1

/-- When the requests among some events were sent. -/
def requestTimes (events : List Event) : List ℕ :=
  events.filterMap fun
    | .call time _ _ _ => some time
    | .sleep _ _ => none

theorem mem_requestTimes {events : List Event} {time : ℕ} :
    time ∈ requestTimes events ↔ ∃ op params answer, .call time op params answer ∈ events := by
  rw [requestTimes, List.mem_filterMap]
  constructor
  · rintro ⟨event, hevent, htime⟩
    cases event with
    | sleep => cases htime
    | call time' op params answer =>
      obtain rfl := Option.some.inj htime
      exact ⟨op, params, answer, hevent⟩
  · rintro ⟨op, params, answer, hevent⟩
    exact ⟨_, hevent, rfl⟩

theorem requestTimes_append (events events' : List Event) :
    requestTimes (events ++ events') = requestTimes events ++ requestTimes events' :=
  List.filterMap_append

/-- A sleep that begins by the deadline ends after it, and a request is sent all the same. -/
def Oversleeps (deadline : ℕ) (events : List Event) : Prop :=
  ∃ earlier begun duration time op params answer later,
    events = earlier ++ .sleep begun duration :: .call time op params answer :: later ∧
      begun ≤ deadline ∧ deadline < time

namespace Punctual

variable {env : Environment σ} {longest deadline : ℕ} {events events' : List Event}

theorem nil : Punctual env longest deadline [] := by
  intro earlier time op params answer later h
  simp at h

theorem sleep (begun duration : ℕ) : Punctual env longest deadline [.sleep begun duration] := by
  intro earlier time op params answer later h
  simp [List.cons_eq_append_iff] at h

theorem append (h : Punctual env longest deadline events)
    (h' : Punctual env longest deadline events') :
    Punctual env longest deadline (events ++ events') := by
  intro earlier time op params answer later heq
  obtain ⟨between, rfl, hbetween⟩ | ⟨between, hbetween, hrest⟩ := List.append_eq_append_iff.mp heq
  · -- the request is one of the later events, and so is the sleep before it
    refine (h' _ _ _ _ _ _ hbetween).imp_right ?_
    rintro ⟨before, begun, duration, service, rfl, hslept⟩
    exact ⟨events ++ before, begun, duration, service, (List.append_assoc ..).symm, hslept⟩
  · cases between with
    | nil =>
      refine (h' [] _ _ _ _ _ hrest.symm).imp_right ?_
      rintro ⟨before, begun, duration, service, hnil, -⟩
      simp at hnil
    | cons event between =>
      obtain ⟨rfl, -⟩ := List.cons.inj hrest
      exact h _ _ _ _ _ _ hbetween

/-- Where requests are punctual, what makes one late is a sleep. -/
theorem forall_le_iff (h : Punctual env longest deadline events) :
    (∀ time ∈ requestTimes events, time ≤ deadline) ↔ ¬Oversleeps deadline events := by
  constructor
  · rintro hall ⟨earlier, begun, duration, time, op, params, answer, later, rfl, -, hlate⟩
    refine absurd (hall time (mem_requestTimes.mpr ?_)) (Nat.not_le.mpr hlate)
    exact ⟨op, params, answer, by simp⟩
  · intro hnone time hmem
    obtain ⟨op, params, answer, hmem⟩ := mem_requestTimes.mp hmem
    obtain ⟨earlier, later, rfl⟩ := List.append_of_mem hmem
    rcases h _ _ _ _ _ _ rfl with hle | ⟨before, begun, duration, service, rfl, hbegun, -⟩
    · exact hle
    · refine Nat.not_lt.mp fun hlate ↦ hnone ?_
      refine ⟨before, begun, duration, time, op, params, answer, later, ?_, hbegun, hlate⟩
      rw [List.append_assoc]
      rfl

end Punctual

/-! ## One call -/

variable [CapacityUnits κ] {env : Environment σ} {s : PacedScan κ} {start retries : ℕ}
  {timeout : Duration}

/-- An attempt in time sends its request by the deadline, or after the sleep to which the budget
puts it. -/
theorem punctual_of_onTime {before : Session (PacedScan κ) σ}
    (htimeout : before.own.budget.timeout = some timeout) (hontime : OnTime start before)
    (params : Json) (answer : Except ServiceError Json) :
    Punctual env before.own.budget.maxSleep.nanos (start + timeout.nanos)
      (paceEvents before ++ [.call (paced env before).world.clock .scan params answer]) := by
  have hclock : before.world.clock ≤ start + timeout.nanos := by
    have hle := hontime timeout htimeout
    omega
  intro earlier time op params' answer' later heq
  rw [paceEvents, paced] at heq
  cases hpace : before.own.pacing.pace before.own.budget before.world.clock with
  | proceed | newWindow =>
    obtain ⟨-, ⟨rfl, -⟩, -⟩ : earlier = [] ∧ (time = before.world.clock ∧ _) ∧ later = [] := by
      simpa [hpace, List.cons_eq_append_iff] using heq
    exact .inl hclock
  | sleep duration =>
    obtain ⟨rfl, ⟨rfl, -⟩, -⟩ : earlier = [.sleep before.world.clock duration] ∧
        (time = (before.world.sleep env duration).clock ∧ _) ∧ later = [] := by
      simpa [hpace, List.cons_eq_append_iff] using heq
    exact .inr ⟨[], before.world.clock, duration, before.world.service, rfl, hclock,
      Pacing.le_maxSleep_of_pace hpace, rfl⟩

/-- What a call sends before and after the deadline. -/
theorem turn_punctual (htimeout : s.budget.timeout = some timeout) (hdone : s.done = false)
    (env : Environment σ) (world : World σ) :
    Punctual env s.budget.maxSleep.nanos
      (s.pacing.scanStart.getD world.clock + timeout.nanos) (turn env s world).events := by
  refine turn_logs ⟨.nil, .sleep, .append, ?_⟩ hdone
  intro s' params hbudget hontime
  rw [← hbudget]
  exact punctual_of_onTime (hbudget ▸ htimeout) hontime params _

/-- An attempt that comes after the deadline is given up. -/
theorem Attempts.eq_of_late {before after : Session (PacedScan κ) σ}
    {r : Except ClientError (Except ServiceError ScanOutput)}
    (h : Attempts env start before r after) (htimeout : before.own.budget.timeout = some timeout)
    (hlate : start + timeout.nanos < before.world.clock) :
    r = .error (.scanTimeout timeout) ∧ after = before := by
  have hnot (hontime : OnTime start before) : False := by
    have hle := hontime timeout htimeout
    omega
  cases h with
  | late htimeout' =>
    obtain rfl := Option.some.inj (htimeout'.symm.trans htimeout)
    exact ⟨rfl, rfl⟩
  | refused hontime | answered hontime => exact (hnot hontime).elim

/-- So is the whole call. -/
theorem Fetched.eq_of_late {before after : Session (PacedScan κ) σ}
    {r : Except ClientError (List Item)} (h : Fetched env start retries before r after)
    (htimeout : before.own.budget.timeout = some timeout)
    (hlate : start + timeout.nanos < before.world.clock) :
    r = .error (.scanTimeout timeout) ∧ after = before := by
  cases h with
  | failed hattempt =>
    obtain ⟨hr, hafter⟩ := hattempt.eq_of_late htimeout hlate
    rw [Except.error.inj hr]
    exact ⟨rfl, hafter⟩
  | page hattempt | exhausted hattempt | again hattempt =>
    cases (hattempt.eq_of_late htimeout hlate).1

/-! ## All calls -/

/-- The call keeps to a deadline: its requests are punctual, and if it comes after the deadline with
the scan not done, it fails without a trace. -/
structure KeepsTo (env : Environment σ) (longest : ℕ) (timeout : Duration) (start : ℕ)
    (t : Turn κ σ) : Prop where
  punctual : Punctual env longest (start + timeout.nanos) t.events
  late : t.before.own.done = false → start + timeout.nanos < t.before.world.clock →
    t.outcome = .error (.scanTimeout timeout) ∧ t.events = []

theorem turn_keepsTo (htimeout : s.budget.timeout = some timeout) (env : Environment σ)
    (world : World σ) (hstart : s.done = false → s.pacing.scanStart.getD world.clock = start) :
    KeepsTo env s.budget.maxSleep.nanos timeout start (turn env s world) := by
  by_cases hdone : s.done = true
  · refine ⟨?_, fun hnot ↦ by cases hdone.symm.trans hnot⟩
    rw [turn_events_of_done env world hdone]
    exact .nil
  · have hdone : s.done = false := Bool.eq_false_iff.mpr hdone
    obtain rfl := hstart hdone
    refine ⟨turn_punctual htimeout hdone env world, fun _ hlate ↦ ?_⟩
    obtain ⟨r, houtcome, hfetched⟩ := turn_fetched env world hdone
    obtain ⟨rfl, hafter⟩ := hfetched.eq_of_late htimeout hlate
    refine ⟨houtcome, Turn.events_eq ?_⟩
    rw [hafter, List.append_nil]
    rfl

/-- A call keeps the budget, and from the first one on the scan knows when it began. -/
theorem turn_keeps (env : Environment σ) (world : World σ)
    (hstart : s.done = false → s.pacing.scanStart.getD world.clock = start) :
    (turn env s world).after.own.budget = s.budget ∧
      ((turn env s world).after.own.done = false →
        (turn env s world).after.own.pacing.scanStart = some start) := by
  by_cases hdone : s.done = true
  · rw [turn_after_of_done env world hdone]
    exact ⟨rfl, fun hnot ↦ by cases hdone.symm.trans hnot⟩
  · obtain ⟨r, -, hfetched⟩ := turn_fetched env world (Bool.eq_false_iff.mpr hdone)
    obtain ⟨hbudget, hscanStart⟩ := hfetched.budget_scanStart
    refine ⟨hbudget, fun _ ↦ ?_⟩
    rw [hscanStart, ← hstart (Bool.eq_false_iff.mpr hdone)]
    rfl

/-- All calls keep to the deadline that follows from the start of the first one. -/
theorem turns_keepTo (htimeout : s.budget.timeout = some timeout)
    (hnew : s.pacing.scanStart = none) (env : Environment σ) (world : World σ)
    (worlds : List (World σ)) :
    ∀ t ∈ turns env s (world :: worlds),
      KeepsTo env s.budget.maxSleep.nanos timeout world.clock t := by
  have hfirst : s.done = false → s.pacing.scanStart.getD world.clock = world.clock := by
    rw [hnew]
    exact fun _ ↦ rfl
  intro t ht
  rcases List.mem_cons.mp ht with rfl | ht
  · exact turn_keepsTo htimeout env world hfirst
  · refine forall_mem_turns (I := fun s' ↦ s'.budget = s.budget ∧
      (s'.done = false → s'.pacing.scanStart = some world.clock)) ?_
      (turn_keeps env world hfirst) worlds t ht
    rintro s' world' ⟨hbudget, hstart⟩
    have hstart' (hdone : s'.done = false) :
        s'.pacing.scanStart.getD world'.clock = world.clock := by
      rw [hstart hdone]
      rfl
    obtain ⟨hbudget', hkeeps⟩ := turn_keeps env world' hstart'
    refine ⟨?_, hbudget'.trans hbudget, hkeeps⟩
    rw [← hbudget]
    exact turn_keepsTo (hbudget ▸ htimeout) env world' hstart'

end PacedScan

/-- **The deadline.** However the calls of a scan with a timeout go, all requests of a call are sent
by the deadline exactly if no sleep goes on beyond it that began before it, a request following. A
request is late by no more than such a sleep, which the budget bounds, and what the sleep takes
longer than asked. After the deadline a call of a scan that is not done fails and does nothing. -/
theorem requests_by_deadline_unless_overslept {κ σ : Type} [CapacityUnits κ]
    {table : TableDescriptor} {config : ClientConfig} {o : PacedScanOptions} {s₀ : PacedScan κ}
    {timeout : Duration} (hstart : PacedScan.start table config o = .ok s₀)
    (htimeout : o.budget.timeout = some timeout) (env : Environment σ) (world : World σ)
    (worlds : List (World σ)) :
    let deadline := world.clock + timeout.nanos
    ∀ t ∈ PacedScan.turns env s₀ (world :: worlds),
      ((∀ time ∈ PacedScan.requestTimes t.events, time ≤ deadline) ↔
        ¬PacedScan.Oversleeps deadline t.events) ∧
      PacedScan.Punctual env o.budget.maxSleep.nanos deadline t.events ∧
      (t.before.own.done = false → deadline < t.before.world.clock →
        t.outcome = .error (.scanTimeout timeout) ∧ t.events = []) := by
  intro deadline t ht
  obtain ⟨hbudget, hpacing⟩ := PacedScan.budget_of_start hstart
  have hnew : s₀.pacing.scanStart = none := by
    rw [hpacing]
    rfl
  have hkeeps := PacedScan.turns_keepTo (hbudget ▸ htimeout) hnew env world worlds t ht
  rw [hbudget] at hkeeps
  exact ⟨hkeeps.punctual.forall_le_iff, hkeeps.punctual, hkeeps.late⟩

/-! ## A run that oversleeps -/

/-- A page with one thing that costs five units, and after which there are more. -/
private def dearPage (name : String) : Json :=
  .object [
    ("ConsumedCapacity", .object [("CapacityUnits", .number (.real 5))]),
    ("Items", .array [.object [("id", .object [("S", .string name)])]]),
    ("LastEvaluatedKey", .object [("id", .object [("S", .string name)])])]

/-- A service that answers at once with what it has. -/
private def promptService : Environment (List Json) where
  reply _ _ pages :=
    (⟨0, pages.head?.elim (.error (.ofCode .internalServerError "")) .ok⟩, pages.tail)
  oversleep _ pages := (0, pages)

private def hurried : PacedScanOptions where
  scan := {}
  budget := { ScanBudget.ofConfig {} 1 with timeout := some (Duration.ofMillis 500) }

private def hurriedScan : PacedScan Float where
  table := ⟨"things", ⟨"id", none⟩, [], []⟩
  config := {}
  scan := { returnConsumedCapacity := some .total }
  pageSize := 1
  budget := hurried.budget
  remaining := none
  cursor := none
  done := false
  pacing := .initial

/-- Two calls, the second one so long after the first. -/
private def callsApart (nanos : ℕ) : List (World (List Json)) :=
  [{ service := [dearPage "a"] }, { service := [dearPage "b"], clock := nanos }]

/-- The second page is asked for half a second after the deadline. -/
theorem request_sent_after_deadline :
    PacedScan.start ⟨"things", ⟨"id", none⟩, [], []⟩ {} hurried = .ok hurriedScan ∧
      hurried.budget.timeout = some (Duration.ofMillis 500) ∧
      ∃ t ∈ PacedScan.turns promptService hurriedScan (callsApart 0),
        ∃ time ∈ PacedScan.requestTimes t.events, 0 + (Duration.ofMillis 500).nanos < time := by
  refine ⟨rfl, rfl, _, .tail _ (.head _), nanosPerSecond, ?_, by decide⟩
  exact .head _

/-- The sleep before it began in time. A call after a second is given up. -/
theorem hurried_scan_oversleeps :
    PacedScan.start ⟨"things", ⟨"id", none⟩, [], []⟩ {} hurried = .ok hurriedScan ∧
      hurried.budget.timeout = some (Duration.ofMillis 500) ∧
      (∃ t ∈ PacedScan.turns promptService hurriedScan (callsApart 0),
        PacedScan.Oversleeps (0 + (Duration.ofMillis 500).nanos) t.events) ∧
      ∃ t ∈ PacedScan.turns promptService hurriedScan (callsApart nanosPerSecond),
        t.outcome = .error (.scanTimeout (Duration.ofMillis 500)) ∧ t.events = [] := by
  have hstart : PacedScan.start ⟨"things", ⟨"id", none⟩, [], []⟩ {} hurried = .ok hurriedScan := rfl
  have hruns (nanos : ℕ) := requests_by_deadline_unless_overslept hstart rfl promptService
    { service := [dearPage "a"] } [{ service := [dearPage "b"], clock := nanos }]
  have hlate : 0 + (Duration.ofMillis 500).nanos < nanosPerSecond := by decide
  refine ⟨hstart, rfl, ⟨_, .tail _ (.head _), ?_⟩, ⟨_, .tail _ (.head _), ?_⟩⟩
  · refine Classical.byContradiction fun hnot ↦ ?_
    have hall := (hruns 0 _ (.tail _ (.head _))).1.mpr hnot
    exact absurd hlate (Nat.not_lt.mpr (hall _ (.head _)))
  · exact (hruns nanosPerSecond _ (.tail _ (.head _))).2.2 rfl hlate

end TableClient
