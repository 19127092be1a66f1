import Mathlib.Algebra.BigOperators.Group.List.Basic
import Mathlib.Algebra.Order.Monoid.Canonical.Defs
import Mathlib.Data.List.Chain
import Mathlib.Data.List.DropRight
import Mathlib.Order.Lattice

/-!
# The ledger of a paced scan

What counts for the budget of a scan is when its windows begin, when it sends requests and what the
pages cost that it accepts. A ledger has these marks in order. It is kept well (`Kept`) if a request
is only sent where nothing was used in the window, or where another page like the last one still
fits in. As long as pages do not get dearer, what a window takes is then bounded by the rate or by
its first page.
-/

namespace TableClient

/-- What counts for the budget of a scan. -/
inductive Mark (κ : Type) where
  /-- A window begins. -/
  | window (time : ℕ)
  /-- A request is sent. -/
  | request (time : ℕ)
  /-- A page is accepted. -/
  | page (cost : κ)
deriving DecidableEq

namespace Ledger

variable {κ : Type}

/-- A window begins. -/
def isWindow : Mark κ → Bool
  | .window _ => true
  | _ => false

section Marks

variable (marks : List (Mark κ))

/-- When the windows began. -/
def windows : List ℕ :=
  marks.filterMap fun
    | .window time => some time
    | _ => none

/-- When the requests were sent. -/
def requests : List ℕ :=
  marks.filterMap fun
    | .request time => some time
    | _ => none

/-- What the accepted pages cost. -/
def costs : List κ :=
  marks.filterMap fun
    | .page cost => some cost
    | _ => none

/-- What came after the current window began. -/
def sinceWindow : List (Mark κ) :=
  marks.rtakeWhile fun mark ↦ !isWindow mark

/-- The capacity that was accepted in the current window. -/
def spent [AddCommMonoid κ] : κ :=
  (costs (sinceWindow marks)).sum

/-- The cost of the last accepted page. -/
def lastCost [Zero κ] : κ :=
  (costs marks).getLast?.getD 0

@[simp] theorem windows_append (marks' : List (Mark κ)) :
    windows (marks ++ marks') = windows marks ++ windows marks' :=
  List.filterMap_append

@[simp] theorem requests_append (marks' : List (Mark κ)) :
    requests (marks ++ marks') = requests marks ++ requests marks' :=
  List.filterMap_append

@[simp] theorem costs_append (marks' : List (Mark κ)) :
    costs (marks ++ marks') = costs marks ++ costs marks' :=
  List.filterMap_append

variable (time : ℕ) (cost : κ)

@[simp] theorem windows_window : windows [(.window time : Mark κ)] = [time] := rfl

@[simp] theorem windows_request : windows [(.request time : Mark κ)] = [] := rfl

@[simp] theorem windows_page : windows [.page cost] = [] := rfl

@[simp] theorem requests_request : requests [(.request time : Mark κ)] = [time] := rfl

@[simp] theorem requests_page : requests [.page cost] = [] := rfl

@[simp] theorem costs_window : costs [(.window time : Mark κ)] = [] := rfl

@[simp] theorem costs_request : costs [(.request time : Mark κ)] = [] := rfl

@[simp] theorem costs_page : costs [.page cost] = [cost] := rfl

theorem costs_sinceWindow_suffix : costs (sinceWindow marks) <:+ costs marks :=
  (List.rtakeWhile_suffix _ marks).filterMap _

theorem sinceWindow_window : sinceWindow (marks ++ [.window time]) = [] :=
  List.rtakeWhile_concat_neg _ _ _ Bool.false_ne_true

theorem sinceWindow_concat {mark : Mark κ} (h : isWindow mark = false) :
    sinceWindow (marks ++ [mark]) = sinceWindow marks ++ [mark] :=
  List.rtakeWhile_concat_pos _ _ _ (by rw [h]; rfl)

/-- The marks from the beginning of a window on, if no other one begins among them. -/
theorem sinceWindow_append_window {window : List (Mark κ)}
    (h : ∀ mark ∈ window, isWindow mark = false) :
    sinceWindow (marks ++ .window time :: window) = window := by
  -- what came after the window began is read off from the end
  induction window using List.reverseRecOn with
  | nil => exact sinceWindow_window marks time
  | append_singleton window mark ih =>
    have hwindow : ∀ mark ∈ window, isWindow mark = false :=
      fun mark hmark ↦ h mark (List.mem_append_left _ hmark)
    have hmark : isWindow mark = false := h mark List.mem_concat_self
    rw [← List.cons_append, ← List.append_assoc, sinceWindow_concat _ hmark, ih hwindow]

end Marks

section Spending

variable [AddCommMonoid κ] (marks : List (Mark κ)) (time : ℕ) (cost : κ)

@[simp] theorem spent_window : spent (marks ++ [.window time]) = 0 := by
  rw [spent, sinceWindow_window]
  rfl

@[simp] theorem spent_request : spent (marks ++ [.request time]) = spent marks := by
  rw [spent, sinceWindow_concat _ rfl, costs_append, costs_request, List.append_nil, spent]

@[simp] theorem spent_page : spent (marks ++ [.page cost]) = spent marks + cost := by
  rw [spent, sinceWindow_concat _ rfl, costs_append, costs_page, List.sum_append,
    List.sum_singleton, spent]

@[simp] theorem lastCost_window : lastCost (marks ++ [.window time]) = lastCost marks := by
  rw [lastCost, costs_append, costs_window, List.append_nil, lastCost]

@[simp] theorem lastCost_request : lastCost (marks ++ [.request time]) = lastCost marks := by
  rw [lastCost, costs_append, costs_request, List.append_nil, lastCost]

@[simp] theorem lastCost_page : lastCost (marks ++ [.page cost]) = cost := by
  rw [lastCost, costs_append, costs_page, List.getLast?_concat]
  rfl

variable {marks}

/-- Where something was spent there is a last page, and its cost is one of those so far. -/
theorem lastCost_mem [Preorder κ] (h : 0 < spent marks) : lastCost marks ∈ costs marks := by
  cases hlast : (costs marks).getLast? with
  | none =>
    have hnone : costs (sinceWindow marks) = [] := by
      have hsuffix := costs_sinceWindow_suffix marks
      rw [List.getLast?_eq_none_iff.mp hlast] at hsuffix
      exact List.suffix_nil.mp hsuffix
    rw [spent, hnone] at h
    exact absurd h (lt_irrefl _)
  | some cost =>
    rw [lastCost, hlast]
    exact List.mem_of_getLast? hlast

end Spending

/-! ## Ledgers that are kept well -/

/-- Requests are sent in a window only. If something was accepted in it, there is room for another
page like the last one. A page is accepted only after a request. -/
inductive Kept [AddCommMonoid κ] [LT κ] [LE κ] (rate : κ) : List (Mark κ) → Prop
  | nil : Kept rate []
  | window {marks : List (Mark κ)} {time : ℕ} (h : Kept rate marks) :
      Kept rate (marks ++ [.window time])
  | request {marks : List (Mark κ)} {time : ℕ} (h : Kept rate marks) (hwindow : windows marks ≠ [])
      (hroom : 0 < spent marks → spent marks + lastCost marks ≤ rate) :
      Kept rate (marks ++ [.request time])
  | page {marks : List (Mark κ)} {time : ℕ} {cost : κ} (h : Kept rate (marks ++ [.request time])) :
      Kept rate (marks ++ [.request time] ++ [.page cost])

namespace Kept

section Ordered

variable [AddCommMonoid κ] [LT κ] [LE κ] {rate : κ} {marks : List (Mark κ)}

theorem of_earlier {earlier : List (Mark κ)} (h : Kept rate marks) (hearlier : earlier <+: marks) :
    Kept rate earlier := by
  induction h with
  | nil =>
    rw [List.prefix_nil.mp hearlier]
    exact .nil
  | window h ih =>
    obtain rfl | hearlier := List.prefix_concat_iff.mp hearlier
    · exact .window h
    · exact ih hearlier
  | request h hwindow hroom ih =>
    obtain rfl | hearlier := List.prefix_concat_iff.mp hearlier
    · exact .request h hwindow hroom
    · exact ih hearlier
  | page h ih =>
    obtain rfl | hearlier := List.prefix_concat_iff.mp hearlier
    · exact .page h
    · exact ih hearlier

/-- Where a request is sent. -/
theorem of_request {time : ℕ} (h : Kept rate (marks ++ [.request time])) :
    windows marks ≠ [] ∧ (0 < spent marks → spent marks + lastCost marks ≤ rate) := by
  generalize hmarks : marks ++ [.request time] = marks' at h
  cases h with
  | nil => simp at hmarks
  | window => cases (List.append_inj' hmarks rfl).2
  | request _ hwindow hroom =>
    obtain ⟨rfl, -⟩ := List.append_inj' hmarks rfl
    exact ⟨hwindow, hroom⟩
  | page => cases (List.append_inj' hmarks rfl).2

end Ordered

variable [AddCommMonoid κ] [LinearOrder κ] [IsOrderedAddMonoid κ] [CanonicallyOrderedAdd κ]
  {rate : κ} {marks : List (Mark κ)}

/-- What is spent in the current window, if pages do not get dearer. -/
theorem spent_le (h : Kept rate marks) (hcosts : (costs marks).Pairwise fun c c' ↦ c' ≤ c) :
    spent marks ≤ max rate ((costs (sinceWindow marks)).head?.getD 0) := by
  induction h with
  | nil => exact zero_le
  | window =>
    rw [spent_window]
    exact zero_le
  | request h _ _ ih =>
    rw [costs_append, costs_request, List.append_nil] at hcosts
    rw [spent_request, sinceWindow_concat _ rfl, costs_append, costs_request, List.append_nil]
    exact ih hcosts
  | @page marks time cost h =>
    obtain ⟨-, hroom⟩ := h.of_request
    rw [costs_append, costs_append, costs_request, List.append_nil, costs_page,
      List.pairwise_append] at hcosts
    have hless : ∀ c ∈ costs marks, cost ≤ c :=
      fun c hc ↦ hcosts.2.2 c hc cost List.mem_cons_self
    rw [spent_page, spent_request]
    rcases eq_zero_or_pos (spent marks) with hzero | hpos
    · -- the page is the first one in its window that costs anything
      refine le_max_of_le_right ?_
      rw [hzero, zero_add, sinceWindow_concat _ rfl, sinceWindow_concat _ rfl, costs_append,
        costs_append, costs_request, List.append_nil, costs_page]
      cases hsince : costs (sinceWindow marks) with
      | nil => exact le_refl _
      | cons c rest =>
        refine hless c ((costs_sinceWindow_suffix marks).subset ?_)
        rw [hsince]
        exact List.mem_cons_self
    · -- there was room for another page like the last one, and this one is not dearer
      refine le_max_of_le_left ?_
      calc spent marks + cost
          ≤ spent marks + lastCost marks := add_le_add_right (hless _ (lastCost_mem hpos)) _
        _ ≤ rate := hroom hpos

/-- What is spent in any window, if pages do not get dearer. -/
theorem window_le (h : Kept rate marks) (hcosts : (costs marks).IsChain fun c c' ↦ c' ≤ c)
    {earlier window later : List (Mark κ)} {time : ℕ}
    (hmarks : marks = earlier ++ .window time :: (window ++ later))
    (hwindow : ∀ mark ∈ window, isWindow mark = false) :
    (costs window).sum ≤ max rate ((costs window).head?.getD 0) := by
  have hearlier : earlier ++ .window time :: window <+: marks :=
    ⟨later, by rw [hmarks, List.append_assoc, List.cons_append]⟩
  have htrans : (costs (earlier ++ .window time :: window)).Pairwise fun c c' ↦ c' ≤ c := by
    have hall : (costs marks).Pairwise fun c c' ↦ c' ≤ c := by
      have : IsTrans κ fun c c' ↦ c' ≤ c := ⟨fun _ _ _ h h' ↦ h'.trans h⟩
      exact List.isChain_iff_pairwise.mp hcosts
    exact hall.sublist (hearlier.filterMap _).sublist
  -- when the next window begins, this one is still the current one
  have hle := (h.of_earlier hearlier).spent_le htrans
  rw [spent, sinceWindow_append_window _ _ hwindow] at hle
  exact hle

end Kept
end Ledger
end TableClient
