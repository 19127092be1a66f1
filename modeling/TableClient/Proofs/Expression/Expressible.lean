import TableClient.Proofs.Expression.Independence
import TableClient.Proofs.Expression.Interned
import TableClient.Proofs.Expression.SortCondition

/-!
# Which conditions have an expression

Interning never fails by itself: names and literals always get their numbers. A condition is refused
only for a node without written form, a membership without candidates or a function that is applied
to other arguments than it takes. So a condition has an expression or not whatever was interned
before it (`Condition.Expressible`), and other names and literals in the same form make no
difference. What is checked before anything is interned is refused without a trace in the table.
-/

namespace TableClient

/-! ## Computations that cannot fail -/

namespace Interning

variable {α β : Type}

/-- The computation succeeds on every table. -/
def Total (m : Interning α) : Prop :=
  ∀ t, ∃ a u, m.Yields t a u

namespace Total

theorem pure (a : α) : Total (Pure.pure a) :=
  fun t ↦ ⟨a, t, yields_pure_iff.mpr ⟨rfl, rfl⟩⟩

theorem require {check : Except ExpressionError α} {a : α} (h : check = .ok a) :
    Total (Interning.require check) :=
  fun t ↦ ⟨a, t, yields_require_iff.mpr ⟨h, rfl⟩⟩

theorem bind {m : Interning α} {k : α → Interning β} (h : Total m) (hk : ∀ a, Total (k a)) :
    Total (m >>= k) := by
  intro t
  obtain ⟨a, u, hm⟩ := h t
  obtain ⟨b, u', hb⟩ := hk a u
  exact ⟨b, u', yields_bind_iff.mpr ⟨a, u, hm, hb⟩⟩

theorem map {m : Interning α} (k : α → β) (h : Total m) : Total (k <$> m) := by
  rw [map_eq_pure_bind]
  exact h.bind fun a ↦ .pure (k a)

end Total

theorem InternsOf.total {m : Interning α} {os : List (Operand String AttributeValue)}
    (h : InternsOf m os) : Total m := by
  intro t
  obtain ⟨a, hm⟩ := h t
  exact ⟨a, _, hm⟩

/-! ## Checks before everything else -/

section Checked

variable {check : Except ExpressionError α} {k : α → Interning β} {t u : PlaceholderTable}

/-- Behind a check, a computation that cannot fail succeeds exactly if the check does. -/
theorem exists_yields_checked_iff (hk : ∀ a, check = .ok a → Total (k a)) :
    (∃ b u, (require check >>= k).Yields t b u) ↔ ∃ a, check = .ok a := by
  simp only [yields_bind_iff, yields_require_iff]
  constructor
  · rintro ⟨_, _, a, _, ⟨ha, -⟩, -⟩
    exact ⟨a, ha⟩
  · rintro ⟨a, ha⟩
    obtain ⟨b, u, hb⟩ := hk a ha t
    exact ⟨b, u, a, t, ⟨ha, rfl⟩, hb⟩

/-- Its failures are those of the check, and they leave the table as it was. -/
theorem outcome_checked_eq_error_iff (hk : ∀ a, check = .ok a → Total (k a))
    {e : ExpressionError} :
    (require check >>= k).outcome t = (.error e, u) ↔ check = .error e ∧ u = t := by
  rw [outcome_bind, show (require check).outcome t = (check, t) from rfl]
  cases check with
  | error e' => simp [eq_comm]
  | ok a =>
    obtain ⟨b, u', hb⟩ := hk a rfl t
    rw [Yields] at hb
    simp [hb]

end Checked
end Interning

open Interning (Total InternsOf)

/-! ## Conditions -/

namespace Condition

/-- Every node of the condition has a written form. -/
def Expressible : Condition String AttributeValue → Prop
  | .logical _ left right => left.Expressible ∧ right.Expressible
  | .not inner => inner.Expressible
  | c => c.checkNode = .ok ()

variable {c : Condition String AttributeValue} {t t' : PlaceholderTable}

theorem internsOf_numbered (h : c.Expressible) : InternsOf c.numbered c.operands := by
  have hop := Operand.internsOf_numbered
  induction c with
  | compare left op right => exact (hop left).bind fun _ ↦ (hop right).map _
  | between value low high =>
    exact (hop value).bind fun _ ↦ (hop low).bind fun _ ↦ (hop high).map _
  | among value candidates =>
    have hcandidates := Operand.internsOf_mapM_numbered candidates
    exact .checked h fun _ ↦ (hop value).bind fun _ ↦ hcandidates.map _
  | function name arguments =>
    exact .checked h fun _ ↦ (Operand.internsOf_mapM_numbered arguments).map _
  | logical op left right ihl ihr => exact (ihl h.1).bind fun _ ↦ (ihr h.2).map _
  | not inner ih => exact (ih h).map _

theorem expressible_of_numbered {n : Condition ℕ ℕ} (h : c.numbered.Yields t n t') :
    c.Expressible := by
  induction c generalizing t t' n with
  | compare | between => rfl
  | among | function =>
    obtain ⟨_, _, hcheck, -⟩ := Interning.yields_bind_iff.mp h
    exact (Interning.yields_require_iff.mp hcheck).1
  | logical op left right ihl ihr =>
    obtain ⟨_, _, hleft, h⟩ := Interning.yields_bind_iff.mp h
    obtain ⟨_, _, hright, -⟩ := Interning.yields_bind_iff.mp h
    exact ⟨ihl hleft, ihr hright⟩
  | not inner ih =>
    obtain ⟨_, hinner, -⟩ := Interning.yields_map_iff.mp h
    exact ih hinner

theorem total_compile (h : c.Expressible) : Total c.compile :=
  (internsOf_numbered h).total.map _

theorem expressible_of_compile {text : String} (h : c.compile.Yields t text t') :
    c.Expressible := by
  obtain ⟨_, hnumbered, -⟩ := Interning.yields_map_iff.mp h
  exact expressible_of_numbered hnumbered

/-- Other names and literals have an expression too. -/
theorem expressible_map {f : String → String} {g : AttributeValue → AttributeValue} :
    (c.map f g).Expressible ↔ c.Expressible := by
  induction c with
  | compare left op right => exact Iff.rfl
  | between value low high => exact Iff.rfl
  | among value candidates =>
    exact iff_of_eq (congrArg (· = Except.ok ()) (checkNode_map (.among value candidates)))
  | function name arguments =>
    exact iff_of_eq (congrArg (· = Except.ok ()) (checkNode_map (.function name arguments)))
  | logical op left right ihl ihr => exact and_congr ihl ihr
  | not inner ih => exact ih

end Condition
end TableClient
