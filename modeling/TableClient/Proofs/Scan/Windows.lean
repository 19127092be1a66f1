import Mathlib.Algebra.Field.Rat
import Mathlib.Algebra.Order.Ring.NNRat
import TableClient.Decimal.Shortest
import TableClient.Proofs.Scan.Deadline
import TableClient.Proofs.Scan.Ledger
import TableClient.Proofs.Scan.Tries

/-!
# The windows of a paced scan

A run of a paced scan writes a ledger: an attempt that is in time may begin a window, then it sends
its request, and a page that is accepted ends its call (`attemptMarks`). The state of the scan is
what the ledger says of the current window, so the ledger is kept well. When windows begin is a
matter of the clock alone: a scan that may sleep for a whole window never begins one early.
-/

namespace TableClient

/-! ## Counting exactly -/

/-- Capacity counted exactly, in numbers that are not negative. -/
class ExactUnits (κ : Type) [AddCommMonoidWithOne κ] [LinearOrder κ] extends CapacityUnits κ where
  zero_eq : zero = 0
  add_eq (x y : κ) : add x y = x + y
  exceeds_iff (x y : κ) : exceeds x y = true ↔ y < x
  ofRate_eq (rate : UInt32) : ofRate rate = (rate.toNat : κ)

/-- The exact value of a report; of one that is negative or not a number, zero. -/
def exactReport (x : Float) : ℚ≥0 :=
  match Decimal.binary64.decode x.toBits.toNat with
  | (false, .finite significand exponent) => significand * 2 ^ exponent
  | _ => 0

instance : ExactUnits ℚ≥0 where
  zero := 0
  add := (· + ·)
  exceeds x y := decide (y < x)
  ofRate rate := rate.toNat
  ofReport := exactReport
  zero_eq := rfl
  add_eq _ _ := rfl
  exceeds_iff _ _ := decide_eq_true_iff
  ofRate_eq _ := rfl

namespace Pacing

variable {κ : Type}

/-- What is to be done before a page, and why. -/
theorem pace_cases [CapacityUnits κ] (p : Pacing κ) (budget : ScanBudget) (now : ℕ) :
    (p.pace budget now = .newWindow ∧
      ∀ start, p.windowStart = some start → start + paceWindow ≤ now) ∨
    ∃ start, p.windowStart = some start ∧ now < start + paceWindow ∧
      ((p.pace budget now = .proceed ∧ p.wouldOverrun budget.rate = false) ∨
        p.pace budget now = .sleep (min (start + paceWindow - now) budget.maxSleep.nanos)) := by
  rw [pace]
  cases hstart : p.windowStart with
  | none => exact .inl ⟨rfl, fun start h ↦ by cases h⟩
  | some start =>
    dsimp only
    split
    · next hover =>
      refine .inl ⟨rfl, fun start' h ↦ ?_⟩
      rw [← Option.some.inj h]
      exact hover
    · next hwithin =>
      refine .inr ⟨start, rfl, Nat.not_le.mp hwithin, ?_⟩
      split
      · exact .inr rfl
      · next hroom => exact .inl ⟨rfl, Bool.eq_false_iff.mpr hroom⟩

theorem wouldOverrun_eq_false_iff [AddCommMonoidWithOne κ] [LinearOrder κ] [ExactUnits κ]
    (p : Pacing κ) (rate : UInt32) : p.wouldOverrun rate = false ↔
      (0 < p.consumedInWindow → p.consumedInWindow + p.lastPageCost ≤ rate.toNat) := by
  rw [wouldOverrun, Bool.eq_false_iff, Ne, Bool.and_eq_true, ExactUnits.exceeds_iff,
    ExactUnits.exceeds_iff, ExactUnits.zero_eq, ExactUnits.add_eq, ExactUnits.ofRate_eq, not_and,
    not_lt]

end Pacing

namespace PacedScan

variable {κ σ : Type}

/-! ## The marks of a run -/

section Marks

variable [CapacityUnits κ] (env : Environment σ) (start : ℕ) (s : Session (PacedScan κ) σ)

/-- The window that is begun before a request, if one is due. -/
def paceMarks : List (Mark κ) :=
  match s.own.pacing.pace s.own.budget s.world.clock with
  | .proceed => []
  | .newWindow | .sleep _ => [.window (paced env s).world.clock]

/-- The page that is accepted after an attempt, if it has one and tells what it cost. -/
def pageMarks (s : PacedScan κ) :
    Except ClientError (Except ServiceError ScanOutput) → List (Mark κ)
  | .ok (.ok page) => ((s.cost? page).map Mark.page).toList
  | _ => []

/-- The request that is sent, if it can be built, and the page that it brings. -/
def askMarks : List (Mark κ) :=
  match Request.scan s.own.table s.own.config s.own.pageOptions with
  | .error _ => []
  | .ok input =>
    .request s.world.clock :: pageMarks s.own (heard (s.world.call env .scan (Wire.write input)).1)

/-- What an attempt does that begins in this session: nothing if it is late. -/
def attemptMarks : List (Mark κ) :=
  match (checkDeadline start : Step κ σ Unit).outcomeIn s with
  | (.error _, _) => []
  | (.ok _, _) => paceMarks env s ++ askMarks env (paced env s)

/-- What a call does. -/
def Turn.marks (t : Turn κ σ) : List (Mark κ) :=
  (t.tries env).flatMap
    (attemptMarks env (t.before.own.pacing.scanStart.getD t.before.world.clock))

/-- The ledger of some calls. -/
def ledger (past : List (Turn κ σ)) : List (Mark κ) :=
  past.flatMap (Turn.marks env)

end Marks

section Attempts

variable [CapacityUnits κ] {env : Environment σ} {start retries : ℕ}
  {before after : Session (PacedScan κ) σ}

/-- An attempt begins no window, or one that the clock of the scan names. A scan that may sleep that
long does not begin one within a window. -/
theorem paced_cases (env : Environment σ) (s : Session (PacedScan κ) σ) :
    (paceMarks env s = [] ∧ paced env s = s ∧ s.own.pacing.windowStart ≠ none ∧
      s.own.pacing.wouldOverrun s.own.budget.rate = false) ∨
    ∃ time, paceMarks env s = [.window time] ∧ (paced env s).world.clock = time ∧
      (paced env s).own = s.own.withPacing (·.resetWindow time) ∧ s.world.clock ≤ time ∧
      (paceWindow ≤ s.own.budget.maxSleep.nanos → ∀ start, s.own.pacing.windowStart = some start →
        start ≤ s.world.clock → start + paceWindow ≤ time) := by
  rw [paceMarks, paced]
  obtain ⟨hpace, hover⟩ | ⟨start, hstart, hwithin, ⟨hpace, hroom⟩ | hpace⟩ :=
    s.own.pacing.pace_cases s.own.budget s.world.clock
  · rw [hpace]
    exact .inr ⟨_, rfl, rfl, rfl, Nat.le_refl _, fun _ start hstart _ ↦ hover start hstart⟩
  · rw [hpace]
    exact .inl ⟨rfl, rfl, by rw [hstart]; exact Option.some_ne_none _, hroom⟩
  · rw [hpace]
    refine .inr ⟨_, rfl, rfl, rfl, ?_, fun hlong start' hstart' hbegun ↦ ?_⟩
    · exact Nat.le_trans (Nat.le_add_right _ _) (Nat.le_add_right _ _)
    · obtain rfl := Option.some.inj (hstart.symm.trans hstart')
      -- the rest of the window is no longer than the scan may sleep
      change start + paceWindow ≤
        s.world.clock + min (start + paceWindow - s.world.clock) s.own.budget.maxSleep.nanos + _
      omega

theorem paced_budget (env : Environment σ) (s : Session (PacedScan κ) σ) :
    (paced env s).own.budget = s.own.budget := by
  obtain ⟨windowStart, consumedInWindow, hown⟩ := paced_own env s
  rw [hown]
  rfl

/-- What is marked of an attempt, and the session that it leaves. -/
theorem Attempts.marks_cases {r : Except ClientError (Except ServiceError ScanOutput)}
    (h : Attempts env start before r after) :
    (attemptMarks env start before = [] ∧ after = before ∧ ∃ e, r = .error e) ∨
    (attemptMarks env start before = paceMarks env before ∧ after = paced env before ∧
      ∃ e, r = .error e) ∨
    ∃ input, after = asked env (paced env before) input ∧
      attemptMarks env start before = paceMarks env before ++
        [.request (paced env before).world.clock] ++ pageMarks after.own r := by
  have hchecked := checkDeadline_cases start before
  rw [Client.Ensures] at hchecked
  rw [attemptMarks]
  generalize (checkDeadline start : Step κ σ Unit).outcomeIn before = ends at hchecked ⊢
  obtain ⟨r', between⟩ := ends
  -- both the marks and the attempt ask first whether the scan is late
  obtain ⟨-, ⟨rfl, hontime⟩ | ⟨timeout, rfl, htimeout, hlate⟩⟩ := hchecked
  · cases h with
    | late htimeout hlate => exact absurd (hontime _ htimeout) (Nat.not_le.mpr hlate)
    | refused _ hrequest =>
      refine .inr (.inl ⟨?_, rfl, _, rfl⟩)
      rw [askMarks, hrequest]
      exact List.append_nil _
    | @answered input _ hrequest =>
      refine .inr (.inr ⟨input, rfl, ?_⟩)
      rw [askMarks, hrequest, List.append_assoc]
      rfl
  · cases h with
    | late => exact .inl ⟨rfl, rfl, _, rfl⟩
    | refused hontime | answered hontime =>
      exact absurd (hontime _ htimeout) (Nat.not_le.mpr hlate)

end Attempts

/-! ## What a scan keeps up with its ledger -/

/-- A relation of a ledger to the session of the scan that is kept by all that a call does. -/
structure Tracks [CapacityUnits κ] (env : Environment σ)
    (P : List (Mark κ) → Session (PacedScan κ) σ → Prop) : Prop where
  paced : ∀ {marks s}, P marks s → P (marks ++ paceMarks env s) (paced env s)
  asked : ∀ {marks s} input, P marks s →
    P (marks ++ paceMarks env s ++ [.request (PacedScan.paced env s).world.clock])
      (asked env (PacedScan.paced env s) input)
  accepted : ∀ {marks s} time page cost, P (marks ++ [.request time]) s →
    P (marks ++ [.request time] ++ [.page cost]) { s with own := s.own.advance page cost }
  calmed : ∀ {marks s}, P marks s → P marks (calmed s)
  throttled : ∀ {marks s}, P marks s → P marks (throttled s)
  slept : ∀ {marks s} duration, P marks s →
    P marks { s with world := s.world.sleep env duration }

section Calls

variable [CapacityUnits κ] {env : Environment σ} {start retries : ℕ}
  {before after : Session (PacedScan κ) σ} {P : List (Mark κ) → Session (PacedScan κ) σ → Prop}
  {marks : List (Mark κ)}

theorem Attempts.tracks {r : Except ClientError (Except ServiceError ScanOutput)}
    (h : Attempts env start before r after) (hP : Tracks env P) (hpage : pageMarks after.own r = [])
    (hbefore : P marks before) : P (marks ++ attemptMarks env start before) after := by
  obtain ⟨hmarks, rfl, -⟩ | ⟨hmarks, rfl, -⟩ | ⟨input, rfl, hmarks⟩ := h.marks_cases
  · rw [hmarks, List.append_nil]
    exact hbefore
  · rw [hmarks]
    exact hP.paced hbefore
  · rw [hmarks, hpage, List.append_nil, ← List.append_assoc]
    exact hP.asked input hbefore

/-- An attempt that has a page, and the page that is taken. -/
theorem Attempts.tracks_page {page : ScanOutput} {cost : κ}
    (h : Attempts env start before (.ok (.ok page)) after) (hP : Tracks env P)
    (hcost : after.own.cost? page = some cost) (hbefore : P marks before) :
    P (marks ++ attemptMarks env start before)
      { calmed after with own := (calmed after).own.advance page cost } := by
  obtain ⟨-, -, e, hr⟩ | ⟨-, -, e, hr⟩ | ⟨input, rfl, hmarks⟩ := h.marks_cases
  · cases hr
  · cases hr
  · rw [hmarks, pageMarks, hcost, ← List.append_assoc, ← List.append_assoc]
    exact hP.accepted _ page cost (hP.calmed (hP.asked input hbefore))

/-- A call keeps what its steps keep. -/
theorem Fetched.tracks {r : Except ClientError (List Item)}
    (h : Fetched env start retries before r after) (hP : Tracks env P) (hbefore : P marks before) :
    P (marks ++ (tries env start retries before).flatMap (attemptMarks env start)) after := by
  -- over the attempts: each one adds to the ledger that the earlier ones have left
  induction h generalizing marks with
  | failed hattempt =>
    rw [hattempt.tries_of_ended (fun e h ↦ by cases h), List.flatMap_singleton]
    exact hattempt.tracks hP rfl hbefore
  | page hattempt haccept =>
    rw [hattempt.tries_of_ended (fun e h ↦ by cases h), List.flatMap_singleton]
    cases haccept with
    | costless hcost =>
      refine hP.calmed (hattempt.tracks hP ?_ hbefore)
      rw [pageMarks, hcost]
      rfl
    | charged hcost => exact hattempt.tracks_page hP hcost hbefore
  | exhausted hattempt =>
    rw [tries, List.flatMap_singleton]
    exact hP.throttled (hattempt.tracks hP rfl hbefore)
  | again hattempt hrest ih =>
    rw [hattempt.tries_of_throttled, List.flatMap_cons, ← List.append_assoc]
    exact ih (hP.slept _ (hP.throttled (hattempt.tracks hP rfl hbefore)))

theorem turn_tracks {s : PacedScan κ} {world : World σ} (hP : Tracks env P) (hdone : s.done = false)
    (hbegun : P marks (begun ⟨s, world⟩)) :
    P (marks ++ (turn env s world).marks env) (turn env s world).after := by
  obtain ⟨r, -, hfetched⟩ := turn_fetched env world hdone
  rw [Turn.marks, turn_tries env world hdone]
  exact hfetched.tracks hP hbegun

theorem turn_marks_of_done {s : PacedScan κ} (env : Environment σ) (world : World σ)
    (hdone : s.done = true) : (turn env s world).marks env = [] := by
  rw [Turn.marks, turn_tries_of_done env world hdone]
  rfl

end Calls

/-! ## The state of the scan -/

section State

variable [AddCommMonoidWithOne κ] [LinearOrder κ] [ExactUnits κ]

/-- The scan knows of its ledger what it needs to know, and the ledger is kept well. -/
structure Reflects (marks : List (Mark κ)) (s : PacedScan κ) : Prop where
  windowStart : s.pacing.windowStart = (Ledger.windows marks).getLast?
  consumedInWindow : s.pacing.consumedInWindow = Ledger.spent marks
  lastPageCost : s.pacing.lastPageCost = Ledger.lastCost marks
  kept : Ledger.Kept (s.budget.rate.toNat : κ) marks

theorem Reflects.paced {marks : List (Mark κ)} {s : Session (PacedScan κ) σ}
    (h : Reflects marks s.own) (env : Environment σ) :
    Reflects (marks ++ paceMarks env s) (paced env s).own := by
  obtain ⟨hmarks, hpaced, -⟩ | ⟨time, hmarks, -, hpaced, -⟩ := paced_cases env s
  · rw [hmarks, hpaced, List.append_nil]
    exact h
  · rw [hmarks, hpaced]
    refine ⟨?_, ?_, ?_, h.kept.window⟩
    · rw [Ledger.windows_append, Ledger.windows_window, List.getLast?_concat]
      rfl
    · rw [Ledger.spent_window]
      exact ExactUnits.zero_eq
    · rw [Ledger.lastCost_window]
      exact h.lastPageCost

/-- Where a request is sent, a window has begun and another page fits in. -/
theorem Reflects.room {marks : List (Mark κ)} {s : Session (PacedScan κ) σ}
    (h : Reflects marks s.own) (env : Environment σ) :
    Ledger.windows (marks ++ paceMarks env s) ≠ [] ∧
      (0 < Ledger.spent (marks ++ paceMarks env s) →
        Ledger.spent (marks ++ paceMarks env s) + Ledger.lastCost (marks ++ paceMarks env s) ≤
          (s.own.budget.rate.toNat : κ)) := by
  obtain ⟨hmarks, -, hbegun, hroom⟩ | ⟨time, hmarks, -⟩ := paced_cases env s
  · rw [hmarks, List.append_nil]
    rw [h.windowStart, Ne, List.getLast?_eq_none_iff] at hbegun
    rw [Pacing.wouldOverrun_eq_false_iff, h.consumedInWindow, h.lastPageCost] at hroom
    exact ⟨hbegun, hroom⟩
  · rw [hmarks, Ledger.windows_append, Ledger.windows_window, Ledger.spent_window]
    exact ⟨List.concat_ne_nil _ _, fun hpos ↦ absurd hpos (lt_irrefl _)⟩

theorem tracks_reflects (env : Environment σ) :
    Tracks env fun (marks : List (Mark κ)) s ↦ Reflects marks s.own where
  paced h := h.paced env
  asked := by
    intro marks s input h
    have hpaced := h.paced env
    -- whether there is room was asked before the request, on the budget that is still in force
    obtain ⟨hwindow, hroom⟩ := h.room env
    rw [← paced_budget env s] at hroom
    refine ⟨?_, ?_, ?_, hpaced.kept.request hwindow hroom⟩
    · rw [Ledger.windows_append, Ledger.windows_request, List.append_nil]
      exact hpaced.windowStart
    · rw [Ledger.spent_request]
      exact hpaced.consumedInWindow
    · rw [Ledger.lastCost_request]
      exact hpaced.lastPageCost
  accepted := by
    intro marks s time page cost h
    refine ⟨?_, ?_, ?_, h.kept.page⟩
    · rw [Ledger.windows_append, Ledger.windows_page, List.append_nil]
      exact h.windowStart
    · rw [Ledger.spent_page, ← h.consumedInWindow]
      exact ExactUnits.add_eq _ _
    · rw [Ledger.lastCost_page]
      rfl
  calmed h := ⟨h.windowStart, h.consumedInWindow, h.lastPageCost, h.kept⟩
  throttled h := ⟨h.windowStart, h.consumedInWindow, h.lastPageCost, h.kept⟩
  slept _ h := h

theorem Reflects.append_turn {marks : List (Mark κ)} {s : PacedScan κ} (h : Reflects marks s)
    (env : Environment σ) (world : World σ) :
    Reflects (marks ++ (turn env s world).marks env) (turn env s world).after.own := by
  by_cases hdone : s.done = true
  · rw [turn_marks_of_done env world hdone, turn_after_of_done env world hdone, List.append_nil]
    exact h
  · refine turn_tracks (tracks_reflects env) (Bool.eq_false_iff.mpr hdone) ?_
    exact ⟨h.windowStart, h.consumedInWindow, h.lastPageCost, h.kept⟩

theorem Reflects.append_turns {marks : List (Mark κ)} {s : PacedScan κ} (h : Reflects marks s)
    (env : Environment σ) (worlds : List (World σ)) :
    Reflects (marks ++ ledger env (turns env s worlds)) (reached (turns env s worlds) s) := by
  induction worlds generalizing marks s with
  | nil =>
    rw [turns, ledger, List.flatMap_nil, List.append_nil]
    exact h
  | cons world worlds ih =>
    rw [turns, reached_cons, ledger, List.flatMap_cons, ← List.append_assoc]
    exact ih (h.append_turn env world)

end State

/-! ## When windows begin -/

/-- Windows begin one after another, none before the last one is over, and none after now. -/
structure Spaced (marks : List (Mark κ)) (s : Session (PacedScan κ) σ) : Prop where
  windowStart : s.own.pacing.windowStart = (Ledger.windows marks).getLast?
  patient : paceWindow ≤ s.own.budget.maxSleep.nanos
  apart : (Ledger.windows marks).IsChain fun time time' ↦ time + paceWindow ≤ time'
  past : ∀ time, (Ledger.windows marks).getLast? = some time → time ≤ s.world.clock

/-- Time goes on, and no window begins. -/
theorem Spaced.later {marks marks' : List (Mark κ)} {s s' : Session (PacedScan κ) σ}
    (h : Spaced marks s) (hmarks : Ledger.windows marks' = Ledger.windows marks)
    (hstart : s'.own.pacing.windowStart = s.own.pacing.windowStart)
    (hbudget : s'.own.budget = s.own.budget) (hclock : s.world.clock ≤ s'.world.clock) :
    Spaced marks' s' := by
  refine ⟨?_, hbudget ▸ h.patient, ?_, ?_⟩
  · rw [hstart, hmarks]
    exact h.windowStart
  · rw [hmarks]
    exact h.apart
  · intro time htime
    rw [hmarks] at htime
    exact Nat.le_trans (h.past time htime) hclock

/-- Each call comes after the last one. -/
def Chronological (past : List (Turn κ σ)) : Prop :=
  past.IsChain fun t t' ↦ t.after.world.clock ≤ t'.before.world.clock

section Spaced

variable [CapacityUnits κ]

theorem Spaced.paced {marks : List (Mark κ)} {s : Session (PacedScan κ) σ} (h : Spaced marks s)
    (env : Environment σ) : Spaced (marks ++ paceMarks env s) (paced env s) := by
  obtain ⟨hmarks, hpaced, -⟩ | ⟨time, hmarks, hclock, hpaced, hnow, hnext⟩ := paced_cases env s
  · rw [hmarks, hpaced, List.append_nil]
    exact h
  · have hlast : (Ledger.windows (marks ++ paceMarks env s)).getLast? = some time := by
      rw [hmarks, Ledger.windows_append, Ledger.windows_window, List.getLast?_concat]
    refine ⟨?_, ?_, ?_, fun time' htime' ↦ ?_⟩
    · rw [hlast, hpaced]
      rfl
    · rw [paced_budget]
      exact h.patient
    · rw [hmarks, Ledger.windows_append, Ledger.windows_window, List.isChain_append]
      refine ⟨h.apart, .singleton time, fun begun hbegun next hnext' ↦ ?_⟩
      obtain rfl := Option.some.inj hnext'
      refine hnext h.patient begun ?_ (h.past begun hbegun)
      rw [h.windowStart]
      exact hbegun
    · rw [hclock, ← Option.some.inj (hlast.symm.trans htime')]

theorem tracks_spaced (env : Environment σ) :
    Tracks env fun (marks : List (Mark κ)) s ↦ Spaced marks s where
  paced h := h.paced env
  asked _ h := (h.paced env).later (by simp) rfl rfl (Nat.le_add_right _ _)
  accepted time page cost h := by
    refine h.later ?_ rfl rfl (Nat.le_refl _)
    rw [Ledger.windows_append _ [.page cost], Ledger.windows_page, List.append_nil]
  calmed h := h.later rfl rfl rfl (Nat.le_refl _)
  throttled h := h.later rfl rfl rfl (Nat.le_refl _)
  slept _ h :=
    h.later rfl rfl rfl (Nat.le_trans (Nat.le_add_right _ _) (Nat.le_add_right _ _))

theorem Spaced.append_turn {marks : List (Mark κ)} {s : PacedScan κ} {world : World σ}
    (h : Spaced marks ⟨s, world⟩) (env : Environment σ) :
    Spaced (marks ++ (turn env s world).marks env) (turn env s world).after := by
  by_cases hdone : s.done = true
  · rw [turn_marks_of_done env world hdone, turn_after_of_done env world hdone, List.append_nil]
    exact h
  · refine turn_tracks (tracks_spaced env) (Bool.eq_false_iff.mpr hdone) ?_
    exact h.later rfl rfl rfl (Nat.le_refl _)

theorem Spaced.append_turns {marks : List (Mark κ)} {s : PacedScan κ} {world : World σ}
    (h : Spaced marks ⟨s, world⟩) (env : Environment σ) {worlds : List (World σ)}
    (hchrono : Chronological (turns env s (world :: worlds))) :
    ∃ s' : Session (PacedScan κ) σ,
      Spaced (marks ++ ledger env (turns env s (world :: worlds))) s' := by
  induction worlds generalizing marks s world with
  | nil =>
    rw [turns, turns, ledger, List.flatMap_singleton]
    exact ⟨_, h.append_turn env⟩
  | cons world' worlds ih =>
    rw [turns, ledger, List.flatMap_cons, ← List.append_assoc]
    -- between two calls time goes on, and the clock of the next world is the one that counts
    obtain ⟨hclock, hchrono⟩ := List.isChain_cons_cons.mp hchrono
    exact ih ((h.append_turn env).later rfl rfl rfl hclock) hchrono

end Spaced

/-! ## Marks and events -/

section Events

variable [CapacityUnits κ]

theorem requests_paceMarks (env : Environment σ) (s : Session (PacedScan κ) σ) :
    Ledger.requests (paceMarks env s) = [] := by
  rw [paceMarks]
  split <;> rfl

theorem requestTimes_paceEvents (s : Session (PacedScan κ) σ) :
    requestTimes (paceEvents s) = [] := by
  rw [paceEvents]
  split <;> rfl

/-- The requests in a ledger are the calls that were made since the history was this. -/
theorem tracks_requests (env : Environment σ) (history : List Event) :
    Tracks env fun (marks : List (Mark κ)) s ↦ ∃ events,
      s.world.history = history ++ events ∧ Ledger.requests marks = requestTimes events where
  paced := by
    rintro marks s ⟨events, hevents, hrequests⟩
    refine ⟨events ++ paceEvents s, ?_, ?_⟩
    · rw [paced_history, hevents, List.append_assoc]
    · rw [Ledger.requests_append, requests_paceMarks, requestTimes_append, requestTimes_paceEvents,
        hrequests]
  asked := by
    rintro marks s input ⟨events, hevents, hrequests⟩
    refine ⟨events ++ paceEvents s ++ [.call (paced env s).world.clock .scan (Wire.write input)
      ((paced env s).world.call env .scan (Wire.write input)).1], ?_, ?_⟩
    · rw [← List.append_assoc, ← List.append_assoc, ← hevents, ← paced_history env s]
      rfl
    · rw [Ledger.requests_append, Ledger.requests_append, requests_paceMarks,
        Ledger.requests_request, requestTimes_append, requestTimes_append, requestTimes_paceEvents,
        hrequests]
      rfl
  accepted := by
    rintro marks s time page cost ⟨events, hevents, hrequests⟩
    refine ⟨events, hevents, ?_⟩
    rw [Ledger.requests_append _ [.page cost], Ledger.requests_page, List.append_nil]
    exact hrequests
  calmed h := h
  throttled h := h
  slept := by
    rintro marks s duration ⟨events, hevents, hrequests⟩
    refine ⟨events ++ [.sleep s.world.clock duration], ?_, ?_⟩
    · rw [← List.append_assoc, ← hevents]
      rfl
    · rw [requestTimes_append, hrequests]
      exact (List.append_nil _).symm

theorem requests_turn_marks (env : Environment σ) (s : PacedScan κ) (world : World σ) :
    Ledger.requests ((turn env s world).marks env) = requestTimes (turn env s world).events := by
  by_cases hdone : s.done = true
  · rw [turn_marks_of_done env world hdone, turn_events_of_done env world hdone]
    rfl
  · have hbegun : ∃ events, (begun ⟨s, world⟩).world.history = world.history ++ events ∧
        Ledger.requests ([] : List (Mark κ)) = requestTimes events :=
      ⟨[], (List.append_nil _).symm, rfl⟩
    obtain ⟨events, hevents, hrequests⟩ :=
      turn_tracks (tracks_requests env world.history) (Bool.eq_false_iff.mpr hdone) hbegun
    rw [Turn.events_eq hevents]
    exact hrequests

theorem requests_ledger (env : Environment σ) (s : PacedScan κ) (worlds : List (World σ)) :
    Ledger.requests (ledger env (turns env s worlds)) =
      requestTimes (log (turns env s worlds)) := by
  induction worlds generalizing s with
  | nil => rfl
  | cons world worlds ih =>
    rw [turns, ledger, log, List.flatMap_cons, List.flatMap_cons, Ledger.requests_append,
      requestTimes_append, requests_turn_marks]
    exact congrArg _ (ih _)

/-- What the page in an answer cost, if there is one and it tells or need not. -/
def answerCost? (s : PacedScan κ) (document : Json) : Option κ :=
  match (Wire.read document : Except WireError ScanOutput) with
  | .ok page => s.cost? page
  | .error _ => none

theorem answerCost?_congr {s s' : PacedScan κ} (h : s'.budget = s.budget) :
    s'.answerCost? = s.answerCost? := by
  funext document
  simp only [answerCost?, cost?, h]

theorem costs_paceMarks (env : Environment σ) (s : Session (PacedScan κ) σ) :
    Ledger.costs (paceMarks env s) = [] := by
  rw [paceMarks]
  split <;> rfl

theorem Attempts.costs_marks {env : Environment σ} {start : ℕ}
    {before after : Session (PacedScan κ) σ}
    {r : Except ClientError (Except ServiceError ScanOutput)}
    (h : Attempts env start before r after) :
    Ledger.costs (attemptMarks env start before) = Ledger.costs (pageMarks after.own r) := by
  obtain ⟨hmarks, -, e, rfl⟩ | ⟨hmarks, -, e, rfl⟩ | ⟨input, -, hmarks⟩ := h.marks_cases
  · rw [hmarks]
    rfl
  · rw [hmarks, costs_paceMarks]
    rfl
  · rw [hmarks, Ledger.costs_append, Ledger.costs_append, costs_paceMarks, Ledger.costs_request]
    rfl

/-- What a call pays: the cost of the page in the answer that it ends with, or nothing if it
fails. -/
def Pays (before : Session (PacedScan κ) σ) (r : Except ClientError (List Item))
    (after : Session (PacedScan κ) σ) (costs : List κ) : Prop :=
  match r with
  | .ok _ => ∃ events document cost, after.world.history = before.world.history ++ events ∧
      lastAnswer? events = some document ∧ before.own.answerCost? document = some cost ∧
      costs = [cost]
  | .error _ => costs = []

theorem Fetched.pays {env : Environment σ} {start retries : ℕ}
    {before after : Session (PacedScan κ) σ} {r : Except ClientError (List Item)}
    (h : Fetched env start retries before r after) :
    Pays before r after
      (Ledger.costs ((tries env start retries before).flatMap (attemptMarks env start))) := by
  induction h with
  | failed hattempt =>
    rw [hattempt.tries_of_ended (fun e h ↦ by cases h), List.flatMap_singleton]
    exact hattempt.costs_marks
  | page hattempt haccept =>
    rw [hattempt.tries_of_ended (fun e h ↦ by cases h), List.flatMap_singleton,
      hattempt.costs_marks, pageMarks]
    cases haccept with
    | costless hcost =>
      rw [hcost]
      rfl
    | @charged cost hcost =>
      obtain ⟨events, hstays, hpage⟩ := hattempt.stays
      obtain ⟨document, hlast, hread⟩ := hpage _ rfl
      obtain ⟨windowStart, consumedInWindow, hown⟩ := hattempt.own
      refine ⟨events, document, cost, hstays.history, hlast, ?_, ?_⟩
      · rw [answerCost?, hread, ← hcost, hown]
        rfl
      · rw [hcost]
        rfl
  | exhausted hattempt =>
    rw [tries, List.flatMap_singleton]
    exact hattempt.costs_marks
  | @again _ before between _ _ r hattempt hrest ih =>
    rw [hattempt.tries_of_throttled, List.flatMap_cons, Ledger.costs_append, hattempt.costs_marks]
    cases r with
    | error e => exact ih
    | ok items =>
      -- the page is in a later attempt, so the answers of this one are not the last ones
      obtain ⟨events, hstays, -⟩ := hattempt.stays
      obtain ⟨windowStart, consumedInWindow, hown⟩ := hattempt.own
      obtain ⟨events', document, cost, hafter, hlast, hcost, hcosts⟩ := ih
      have hthrottled : Stays between (throttled between) [] := .withPacing between _
      have hagain : Stays before (backedOff env between) _ :=
        (hstays.trans hthrottled).trans (.sleep _ env _)
      rw [hagain.history, List.append_assoc] at hafter
      refine ⟨_, document, cost, hafter, lastAnswer?_append hlast, ?_, hcosts⟩
      rw [← hcost, backedOff, throttled, hown]
      rfl

/-- A call accepts the page in the answer that it ends with, at the cost that it tells. -/
theorem costs_turn_marks (env : Environment σ) (s : PacedScan κ) (world : World σ) :
    (Ledger.costs ((turn env s world).marks env)).map some =
      (turn env s world).answer?.toList.map s.answerCost? := by
  obtain ⟨hdone, houtcome, -⟩ | hdone :=
    (turn_cases env s world).imp_right (·.elim And.left And.left)
  · rw [turn_marks_of_done env world hdone, Turn.answer?_of_items?_eq_none]
    · rfl
    · rw [Turn.items?, houtcome]
  · obtain ⟨r, houtcome, hfetched⟩ := turn_fetched env world hdone
    have hpays := hfetched.pays
    rw [Turn.marks, turn_tries env world hdone]
    cases r with
    | error e =>
      have hnone : (turn env s world).items? = none := by
        rw [Turn.items?, houtcome]
        rfl
      rw [Turn.answer?_of_items?_eq_none hnone]
      exact congrArg _ hpays
    | ok items =>
      obtain ⟨events, document, cost, hhistory, hlast, hcost, hcosts⟩ := hpays
      have hsome : (turn env s world).items? = some items := by
        rw [Turn.items?, houtcome]
        rfl
      have hcost : s.answerCost? document = some cost := hcost
      rw [Turn.answer?_of_items?_eq_some hsome, Turn.events_eq hhistory, hlast]
      refine (congrArg _ hcosts).trans ?_
      rw [Option.toList_some, List.map_singleton, List.map_singleton, hcost]

theorem costs_ledger (env : Environment σ) (s : PacedScan κ) (worlds : List (World σ)) :
    (Ledger.costs (ledger env (turns env s worlds))).map some =
      (answers (turns env s worlds)).map s.answerCost? := by
  induction worlds generalizing s with
  | nil => rfl
  | cons world worlds ih =>
    have hrest := ih (turn env s world).after.own
    rw [answerCost?_congr (turn_budget env s world)] at hrest
    rw [turns, answers_cons, List.map_append, ledger, List.flatMap_cons, Ledger.costs_append,
      List.map_append, costs_turn_marks, ← hrest]
    rfl

end Events
end PacedScan

/-- **Windows stay within the budget.** A run of a scan has a ledger: its requests are those that
the run sent, its pages those that were accepted, at their costs, and the state of the scan is what
the ledger says of the current window. If capacity is counted exactly, a request is sent only where
nothing was accepted in the window, or where another page like the last one still fits in. If pages
do not get dearer, a window therefore accepts no more than the budget or its first page. If the scan
may sleep for a whole window and time does not go back, windows begin at least a window apart. -/
theorem windows_stay_within_budget {κ σ : Type} [AddCommMonoidWithOne κ] [LinearOrder κ]
    [IsOrderedAddMonoid κ] [CanonicallyOrderedAdd κ] [ExactUnits κ] {table : TableDescriptor}
    {config : ClientConfig} {o : PacedScanOptions} {s₀ : PacedScan κ}
    (hstart : PacedScan.start table config o = .ok s₀) (env : Environment σ)
    (worlds : List (World σ)) :
    let past := PacedScan.turns env s₀ worlds
    let marks := PacedScan.ledger env past
    let rate : κ := o.budget.rate.toNat
    (Ledger.requests marks = PacedScan.requestTimes (PacedScan.log past) ∧
      (Ledger.costs marks).map some = (PacedScan.answers past).map s₀.answerCost? ∧
      PacedScan.Reflects marks (PacedScan.reached past s₀)) ∧
    (∀ earlier time later, marks = earlier ++ .request time :: later →
      Ledger.windows earlier ≠ [] ∧ (0 < Ledger.spent earlier →
        Ledger.spent earlier + Ledger.lastCost earlier ≤ rate)) ∧
    ((Ledger.costs marks).IsChain (fun cost cost' ↦ cost' ≤ cost) →
      ∀ earlier time window later, marks = earlier ++ .window time :: (window ++ later) →
        (∀ mark ∈ window, Ledger.isWindow mark = false) →
          (Ledger.costs window).sum ≤ max rate ((Ledger.costs window).head?.getD 0)) ∧
    (paceWindow ≤ o.budget.maxSleep.nanos → PacedScan.Chronological past →
      (Ledger.windows marks).IsChain fun time time' ↦ time + paceWindow ≤ time') := by
  intro past marks rate
  obtain ⟨hbudget, hpacing⟩ := PacedScan.budget_of_start hstart
  have hinitial : PacedScan.Reflects [] s₀ := by
    refine ⟨?_, ?_, ?_, .nil⟩
    · rw [hpacing]
      rfl
    · rw [hpacing]
      exact ExactUnits.zero_eq
    · rw [hpacing]
      exact ExactUnits.zero_eq
  have hreflects : PacedScan.Reflects marks (PacedScan.reached past s₀) :=
    hinitial.append_turns env worlds
  have hkept : Ledger.Kept rate marks := by
    have hkept := hreflects.kept
    rw [PacedScan.reached_budget, hbudget] at hkept
    exact hkept
  refine ⟨⟨PacedScan.requests_ledger env s₀ worlds, PacedScan.costs_ledger env s₀ worlds,
    hreflects⟩, ?_, ?_, ?_⟩
  · intro earlier time later hmarks
    have hearlier : earlier ++ [.request time] <+: marks :=
      ⟨later, by rw [hmarks, List.append_assoc, List.singleton_append]⟩
    exact (hkept.of_earlier hearlier).of_request
  · intro hcosts earlier time window later hmarks hwindow
    exact hkept.window_le hcosts hmarks hwindow
  · intro hpatient hchrono
    cases worlds with
    | nil => exact .nil
    | cons world worlds =>
      have hspaced : PacedScan.Spaced [] ⟨s₀, world⟩ :=
        ⟨hinitial.windowStart, hbudget ▸ hpatient, .nil, fun time h ↦ by cases h⟩
      obtain ⟨s', hspaced'⟩ := hspaced.append_turns env hchrono
      exact hspaced'.apart

/-! ## A run with pages that get cheaper -/

/-- An empty page at a cost, after which there are more. -/
private def pricedPage (cost : Float) : Json :=
  .object [
    ("ConsumedCapacity", .object [("CapacityUnits", .number (.real cost))]),
    ("LastEvaluatedKey", .object [("id", .object [("S", .string "a")])])]

/-- A service that answers at once with a page at the cost that it is to have. -/
private def pricedService : Environment Float where
  reply _ _ cost := (⟨0, .ok (pricedPage cost)⟩, cost)
  oversleep _ cost := (0, cost)

private def thrifty : PacedScanOptions where
  scan := {}
  budget := ScanBudget.ofConfig {} 5

private def thriftyScan : PacedScan ℚ≥0 where
  table := ⟨"things", ⟨"id", none⟩, [], []⟩
  config := {}
  scan := { returnConsumedCapacity := some .total }
  pageSize := 5
  budget := thrifty.budget
  remaining := none
  cursor := none
  done := false
  pacing := .initial

private def cheaperPages : List (World Float) :=
  [{ service := 2.5 }, { service := 2 }, { service := 0.5 }]

/-- The second page just fits in with what the first one cost; before the third one the scan sleeps
to the end of the window. -/
theorem cheaper_pages_stay_within_budget :
    PacedScan.start ⟨"things", ⟨"id", none⟩, [], []⟩ {} thrifty = .ok thriftyScan ∧
      let past := PacedScan.turns pricedService thriftyScan cheaperPages
      let window : List (Mark ℚ≥0) := [.request 0, .page (5 / 2), .request 0, .page 2]
      PacedScan.ledger pricedService past = .window 0 :: (window ++
        [.window nanosPerSecond, .request nanosPerSecond, .page (1 / 2)]) ∧
      (Ledger.costs window).sum ≤ 5 ∧ 0 + paceWindow ≤ nanosPerSecond := by
  have hstart : PacedScan.start ⟨"things", ⟨"id", none⟩, [], []⟩ {} thrifty = .ok thriftyScan := rfl
  obtain ⟨-, -, hspent, hapart⟩ := windows_stay_within_budget hstart pricedService cheaperPages
  have hledger : PacedScan.ledger pricedService
      (PacedScan.turns pricedService thriftyScan cheaperPages) =
      .window 0 :: ([.request 0, .page (5 / 2), .request 0, .page 2] ++
        [.window nanosPerSecond, .request nanosPerSecond, .page (1 / 2)]) := by
    decide +kernel
  have hchrono : PacedScan.Chronological
      (PacedScan.turns pricedService thriftyScan cheaperPages) :=
    .cons_cons (by decide +kernel) (.cons_cons (by decide +kernel) (.singleton _))
  rw [hledger] at hspent hapart
  refine ⟨hstart, hledger, ?_, ?_⟩
  · have hle := hspent (by decide +kernel) [] 0 _ _ rfl (by decide)
    exact hle.trans (by decide +kernel)
  · exact (List.isChain_cons_cons.mp (hapart (by decide) hchrono)).1

end TableClient
