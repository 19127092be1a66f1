import TableClient.Proofs.Scan.Turns

/-!
# The attempts of a call

A call of a paced scan makes attempts until one is not answered with a throttled answer, or too many
were (`tries`). What the scan knows while a call is under way is what it knows in the sessions in
which these attempts begin.
-/

namespace TableClient.PacedScan

variable {κ σ : Type} [CapacityUnits κ] {env : Environment σ} {start retries : ℕ}
  {before after : Session (PacedScan κ) σ}

/-- An attempt goes in one way only. -/
theorem Attempts.unique {r r' : Except ClientError (Except ServiceError ScanOutput)}
    {after' : Session (PacedScan κ) σ} (h : Attempts env start before r after)
    (h' : Attempts env start before r' after') : r = r' ∧ after = after' := by
  have hlate {timeout : Duration} (htimeout : before.own.budget.timeout = some timeout)
      (hlate : timeout.nanos < before.world.clock - start) : ¬OnTime start before :=
    fun hontime ↦ absurd (hontime timeout htimeout) (Nat.not_le.mpr hlate)
  cases h with
  | late htimeout hlater =>
    cases h' with
    | late htimeout' =>
      obtain rfl := Option.some.inj (htimeout.symm.trans htimeout')
      exact ⟨rfl, rfl⟩
    | refused hontime | answered hontime => exact (hlate htimeout hlater hontime).elim
  | refused hontime hrequest =>
    cases h' with
    | late htimeout hlater => exact (hlate htimeout hlater hontime).elim
    | refused _ hrequest' =>
      obtain rfl := Except.error.inj (hrequest.symm.trans hrequest')
      exact ⟨rfl, rfl⟩
    | answered _ hrequest' => cases hrequest.symm.trans hrequest'
  | answered hontime hrequest =>
    cases h' with
    | late htimeout hlater => exact (hlate htimeout hlater hontime).elim
    | refused _ hrequest' => cases hrequest.symm.trans hrequest'
    | answered _ hrequest' =>
      obtain rfl := Except.ok.inj (hrequest.symm.trans hrequest')
      exact ⟨rfl, rfl⟩

theorem Accepts.unique {page : ScanOutput} {r r' : Except ClientError (List Item)}
    {after' : Session (PacedScan κ) σ} (h : Accepts before page r after)
    (h' : Accepts before page r' after') : r = r' ∧ after = after' := by
  cases h with
  | costless hcost =>
    cases h' with
    | costless => exact ⟨rfl, rfl⟩
    | charged hcost' => cases hcost.symm.trans hcost'
  | charged hcost =>
    cases h' with
    | costless hcost' => cases hcost.symm.trans hcost'
    | charged hcost' =>
      obtain rfl := Option.some.inj (hcost.symm.trans hcost')
      exact ⟨rfl, rfl⟩

/-- So does a call. -/
theorem Fetched.unique {r r' : Except ClientError (List Item)} {after' : Session (PacedScan κ) σ}
    (h : Fetched env start retries before r after)
    (h' : Fetched env start retries before r' after') : r = r' ∧ after = after' := by
  -- the first attempt tells the cases apart
  induction h generalizing r' after' with
  | failed hattempt =>
    cases h' with
    | failed hattempt' =>
      obtain ⟨he, rfl⟩ := hattempt.unique hattempt'
      exact ⟨congrArg _ (Except.error.inj he), rfl⟩
    | page hattempt' | exhausted hattempt' | again hattempt' =>
      cases (hattempt.unique hattempt').1
  | page hattempt haccept =>
    cases h' with
    | page hattempt' haccept' =>
      obtain ⟨hpage, rfl⟩ := hattempt.unique hattempt'
      obtain rfl := Except.ok.inj (Except.ok.inj hpage)
      exact haccept.unique haccept'
    | failed hattempt' | exhausted hattempt' | again hattempt' =>
      cases (hattempt.unique hattempt').1
  | exhausted hattempt =>
    cases h' with
    | exhausted hattempt' =>
      obtain ⟨he, rfl⟩ := hattempt.unique hattempt'
      obtain rfl := Except.error.inj (Except.ok.inj he)
      exact ⟨rfl, rfl⟩
    | failed hattempt' | page hattempt' => cases (hattempt.unique hattempt').1
  | again hattempt hrest ih =>
    cases h' with
    | again hattempt' hrest' =>
      obtain ⟨-, rfl⟩ := hattempt.unique hattempt'
      exact ih hrest'
    | failed hattempt' | page hattempt' => cases (hattempt.unique hattempt').1

theorem Attempts.outcomeIn_eq {r : Except ClientError (Except ServiceError ScanOutput)}
    (h : Attempts env start before r after) :
    (attempt env start : Step κ σ _).outcomeIn before = (r, after) := by
  obtain ⟨hr, hafter⟩ := (attempt_attempts env start before).unique h
  exact Prod.ext hr hafter

/-- The sessions in which the attempts of a call begin that may make so many further ones. -/
def tries (env : Environment σ) (start : ℕ) :
    ℕ → Session (PacedScan κ) σ → List (Session (PacedScan κ) σ)
  | 0, s => [s]
  | retries + 1, s =>
    s :: match (attempt env start : Step κ σ _).outcomeIn s with
      | (.ok (.error _), between) => tries env start retries (backedOff env between)
      | _ => []

theorem Attempts.tries_of_ended {r : Except ClientError (Except ServiceError ScanOutput)}
    (h : Attempts env start before r after) (hended : ∀ e, r ≠ .ok (.error e)) (retries : ℕ) :
    tries env start retries before = [before] := by
  cases retries with
  | zero => rfl
  | succ retries =>
    rw [tries, h.outcomeIn_eq]
    split
    · next e _ heq => exact (hended e (congrArg Prod.fst heq)).elim
    · rfl

theorem Attempts.tries_of_throttled {e : ServiceError}
    (h : Attempts env start before (.ok (.error e)) after) (retries : ℕ) :
    tries env start (retries + 1) before =
      before :: tries env start retries (backedOff env after) := by
  rw [tries, h.outcomeIn_eq]

/-- What a throttled attempt leaves in force holds whenever an attempt begins, if it does at
first. -/
theorem forall_mem_tries {I : Session (PacedScan κ) σ → Prop}
    (hstep : ∀ s e between, I s → Attempts env start s (.ok (.error e)) between →
      I (backedOff env between)) (h : I before) : ∀ s ∈ tries env start retries before, I s := by
  induction retries generalizing before with
  | zero =>
    intro s hs
    rw [List.mem_singleton.mp hs]
    exact h
  | succ retries ih =>
    obtain ⟨r, between, hattempt⟩ : ∃ r between, Attempts env start before r between :=
      ⟨_, _, attempt_attempts env start before⟩
    -- a further attempt begins only after a throttled one
    by_cases hthrottled : ∃ e, r = .ok (.error e)
    · obtain ⟨e, rfl⟩ := hthrottled
      rw [hattempt.tries_of_throttled]
      exact List.forall_mem_cons.mpr ⟨h, ih (hstep before e between h hattempt)⟩
    · rw [hattempt.tries_of_ended fun e hr ↦ hthrottled ⟨e, hr⟩]
      exact List.forall_mem_singleton.mpr h

/-- The sessions in which the attempts of a call begin; none if the scan is done. -/
def Turn.tries (env : Environment σ) (t : Turn κ σ) : List (Session (PacedScan κ) σ) :=
  if t.before.own.done then []
  else PacedScan.tries env (t.before.own.pacing.scanStart.getD t.before.world.clock)
    t.before.own.retriesLeft (begun t.before)

section Turn

variable {s : PacedScan κ}

theorem turn_tries_of_done (env : Environment σ) (world : World σ) (hdone : s.done = true) :
    (turn env s world).tries env = [] :=
  if_pos hdone

theorem turn_tries (env : Environment σ) (world : World σ) (hdone : s.done = false) :
    (turn env s world).tries env = tries env (s.pacing.scanStart.getD world.clock) s.retriesLeft
      (begun ⟨s, world⟩) :=
  if_neg (Bool.eq_false_iff.mp hdone)

end Turn

end TableClient.PacedScan
