import TableClient.Proofs.Scan.Turns

/-!
# The events of a call

A call of a paced scan sleeps and sends requests. A predicate on logs that its parts satisfy and
that logs keep when they are joined (`Composes`) holds of all that the call does (`turn_logs`): the
induction over the attempts of a call is done once.
-/

namespace TableClient

/-- The answer to a call is one that the service gives to it. -/
def Event.Answered {σ : Type} (env : Environment σ) : Event → Prop
  | .sleep _ _ => True
  | .call _ op params answer => ∃ service, answer = (env.reply op params service).1.answer

namespace PacedScan

variable {κ σ : Type} [CapacityUnits κ]

/-- What is logged between two sessions satisfies a predicate. -/
def Logs (P : List Event → Prop) (before after : Session (PacedScan κ) σ) : Prop :=
  ∃ events, after.world.history = before.world.history ++ events ∧ P events

/-- A predicate that holds of all parts of the log of a call with this budget, in a scan that began
at this time, and of parts that follow on each other. -/
structure Composes (κ : Type) [CapacityUnits κ] (env : Environment σ) (budget : ScanBudget)
    (start : ℕ) (P : List Event → Prop) : Prop where
  nil : P []
  sleep : ∀ time duration, P [.sleep time duration]
  append : ∀ {events events'}, P events → P events' → P (events ++ events')
  /-- What an attempt in time does: it paces itself and sends its request. -/
  asked : ∀ (s : Session (PacedScan κ) σ) (params : Json), s.own.budget = budget → OnTime start s →
    P (paceEvents s ++ [.call (paced env s).world.clock .scan params
      ((paced env s).world.call env .scan params).1])

section Logs

variable {P : List Event → Prop} {env : Environment σ} {start retries : ℕ} {budget : ScanBudget}
  {before between after : Session (PacedScan κ) σ}

theorem Logs.append (hP : Composes κ env budget start P) (h : Logs P before between)
    (h' : Logs P between after) : Logs P before after := by
  obtain ⟨events, hevents, hP₁⟩ := h
  obtain ⟨events', hevents', hP₂⟩ := h'
  refine ⟨events ++ events', ?_, hP.append hP₁ hP₂⟩
  rw [hevents', hevents, List.append_assoc]

theorem Composes.paceEvents (hP : Composes κ env budget start P) (s : Session (PacedScan κ) σ) :
    P (paceEvents s) := by
  rw [PacedScan.paceEvents]
  split
  · exact hP.sleep _ _
  · exact hP.nil
  · exact hP.nil

theorem Attempts.logs (hP : Composes κ env budget start P)
    {r : Except ClientError (Except ServiceError ScanOutput)}
    (h : Attempts env start before r after) (hbudget : before.own.budget = budget) :
    Logs P before after := by
  cases h with
  | late => exact ⟨[], (List.append_nil _).symm, hP.nil⟩
  | refused => exact ⟨_, paced_history env before, hP.paceEvents before⟩
  | @answered input hontime =>
    refine ⟨_, ?_, hP.asked before (Wire.write input) hbudget hontime⟩
    rw [← List.append_assoc, ← paced_history env before]
    rfl

theorem Fetched.logs (hP : Composes κ env budget start P) {r : Except ClientError (List Item)}
    (h : Fetched env start retries before r after) (hbudget : before.own.budget = budget) :
    Logs P before after := by
  induction h with
  | failed hattempt => exact hattempt.logs hP hbudget
  | page hattempt haccept =>
    obtain ⟨events, hevents, hP⟩ := hattempt.logs hP hbudget
    cases haccept with
    | costless | charged => exact ⟨events, hevents, hP⟩
  | exhausted hattempt =>
    obtain ⟨events, hevents, hP⟩ := hattempt.logs hP hbudget
    exact ⟨events, hevents, hP⟩
  | @again _ before between _ _ _ hattempt hrest ih =>
    obtain ⟨windowStart, consumed, hown⟩ := hattempt.own
    have hbudget' : (backedOff env between).own.budget = budget := by
      rw [← hbudget]
      simp [backedOff, throttled, hown, withPacing]
    have htried : Logs P before between := hattempt.logs hP hbudget
    have hpause : Logs P between (backedOff env between) := ⟨_, rfl, hP.sleep _ _⟩
    exact (htried.append hP hpause).append hP (ih hbudget')

end Logs

/-- The events of a call of a scan that is not done. -/
theorem turn_logs {P : List Event → Prop} {env : Environment σ} {s : PacedScan κ} {world : World σ}
    (hP : Composes κ env s.budget (s.pacing.scanStart.getD world.clock) P)
    (hdone : s.done = false) : P (turn env s world).events := by
  obtain ⟨r, -, hfetched⟩ := turn_fetched env world hdone
  obtain ⟨events, hevents, hP⟩ := hfetched.logs hP rfl
  rw [Turn.events_eq hevents]
  exact hP

/-- What a call hears is what the service answers. -/
theorem answered_of_mem_turn_events {env : Environment σ} {s : PacedScan κ} {world : World σ}
    {event : Event} (hevent : event ∈ (turn env s world).events) : event.Answered env := by
  have hdone := (asks_of_mem_turn_events hevent).1
  have hlogs : ∀ event ∈ (turn env s world).events, event.Answered env := by
    refine turn_logs (P := fun events ↦ ∀ event ∈ events, event.Answered env) ⟨?_, ?_, ?_, ?_⟩ hdone
    · intro event hevent
      cases hevent
    · intro time duration event hevent
      rw [List.mem_singleton.mp hevent]
      trivial
    · intro events events' h h' event hevent
      rcases List.mem_append.mp hevent with hevent | hevent
      · exact h event hevent
      · exact h' event hevent
    · intro s' params _ _ event hevent
      rcases List.mem_append.mp hevent with hevent | hevent
      · rw [paceEvents] at hevent
        split at hevent
        · rw [List.mem_singleton.mp hevent]
          trivial
        · cases hevent
        · cases hevent
      · rw [List.mem_singleton.mp hevent]
        exact ⟨_, rfl⟩
  exact hlogs event hevent

end PacedScan
end TableClient
