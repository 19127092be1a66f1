import Mathlib.Data.List.Nodup
import TableClient.Expression.Numbered
import TableClient.Proofs.Except

/-!
# Outcomes of interning

`Interning` is a computation over a placeholder table that may fail. The proofs about it work with
one relation, `Interning.Yields`: the computation succeeds on a table and leaves another. Each step
of a computation has one equivalence for it, so a success of a whole computation is taken apart
without unfolding the monad.

## Numbers given out in order

What a success says about the numbers it hands out is a `Numbering` of two tables: the tables are
only appended to, a name is either one that the table knew or the next new one, and the literals are
exactly the fresh numbers. Numberings of consecutive steps compose, so the facts about a whole tree
come from the two base cases, a name and a literal.
-/

namespace TableClient

/-! ## Successes -/

namespace Interning

variable {α β : Type} {t t' : PlaceholderTable}

/-- What a computation does on a table: its value or failure, and the table that it leaves. -/
def outcome (m : Interning α) (t : PlaceholderTable) :
    Except ExpressionError α × PlaceholderTable :=
  m.run.run t

/-- `m` succeeds on the table `t` with `a`, and leaves the table `t'`. -/
def Yields (m : Interning α) (t : PlaceholderTable) (a : α) (t' : PlaceholderTable) : Prop :=
  m.outcome t = (.ok a, t')

theorem outcome_bind (m : Interning α) (f : α → Interning β) (t : PlaceholderTable) :
    (m >>= f).outcome t = match m.outcome t with
      | (.ok a, u) => (f a).outcome u
      | (.error e, u) => (.error e, u) := by
  rw [outcome, ExceptT.run_run_bind, outcome]
  rcases m.run.run t with ⟨_ | a, u⟩ <;> rfl

@[simp] theorem yields_pure_iff {a b : α} :
    (pure a : Interning α).Yields t b t' ↔ a = b ∧ t = t' := by
  rw [Yields, show (pure a : Interning α).outcome t = (.ok a, t) from rfl]
  simp

@[simp] theorem yields_bind_iff {m : Interning α} {f : α → Interning β} {b : β} :
    (m >>= f).Yields t b t' ↔ ∃ a u, m.Yields t a u ∧ (f a).Yields u b t' := by
  simp only [Yields, outcome_bind]
  rcases m.outcome t with ⟨_ | a, u⟩
  · simp
  · constructor
    · intro h
      exact ⟨a, u, rfl, h⟩
    · rintro ⟨a', u', heq, h⟩
      obtain ⟨rfl, rfl⟩ : a = a' ∧ u = u' := by simpa using heq
      exact h

@[simp] theorem yields_map_iff {m : Interning α} {f : α → β} {b : β} :
    (f <$> m).Yields t b t' ↔ ∃ a, m.Yields t a t' ∧ f a = b := by
  rw [map_eq_pure_bind, yields_bind_iff]
  constructor
  · rintro ⟨a, u, hm, h⟩
    obtain ⟨rfl, rfl⟩ := yields_pure_iff.mp h
    exact ⟨a, hm, rfl⟩
  · rintro ⟨a, hm, rfl⟩
    exact ⟨a, t', hm, yields_pure_iff.mpr ⟨rfl, rfl⟩⟩

@[simp] theorem yields_require_iff {check : Except ExpressionError α} {a : α} :
    (require check).Yields t a t' ↔ check = .ok a ∧ t = t' := by
  rw [Yields, show (require check).outcome t = (check, t) from rfl, Prod.mk.injEq]

@[simp] theorem yields_name_iff {s : String} {n : ℕ} :
    (name s).Yields t n t' ↔ t.internName s = (n, t') := by
  rw [Yields, show (name s).outcome t = (.ok (t.internName s).1, (t.internName s).2) from rfl]
  simp [Prod.ext_iff]

@[simp] theorem yields_value_iff {v : AttributeValue} {n : ℕ} :
    (value v).Yields t n t' ↔ t.internValue v = (n, t') := by
  rw [Yields, show (value v).outcome t = (.ok (t.internValue v).1, (t.internValue v).2) from rfl]
  simp [Prod.ext_iff]

end Interning

/-! ## Numbers in order -/

/-- Read from left to right, each number is one of the first `a` or the next new one, and the first
`b` are known at the end. -/
inductive Introduces : ℕ → List ℕ → ℕ → Prop
  | nil (a : ℕ) : Introduces a [] a
  | known {a b n : ℕ} {ns : List ℕ} : n < a → Introduces a ns b → Introduces a (n :: ns) b
  | new {a b : ℕ} {ns : List ℕ} : Introduces (a + 1) ns b → Introduces a (a :: ns) b

namespace Introduces

variable {a b c : ℕ} {ns ms : List ℕ}

theorem append (h : Introduces a ns b) (h' : Introduces b ms c) : Introduces a (ns ++ ms) c := by
  induction h with
  | nil a => exact h'
  | known hn _ ih => exact .known hn (ih h')
  | new _ ih => exact .new (ih h')

theorem le (h : Introduces a ns b) : a ≤ b := by
  induction h with
  | nil a => exact Nat.le_refl a
  | known _ _ ih => exact ih
  | new _ ih => omega

theorem lt_of_mem (h : Introduces a ns b) {n : ℕ} (hn : n ∈ ns) : n < b := by
  induction h with
  | nil a => cases hn
  | known hknown hrest ih =>
    obtain rfl | hn := List.mem_cons.mp hn
    · exact Nat.lt_of_lt_of_le hknown hrest.le
    · exact ih hn
  | new hrest ih =>
    obtain rfl | hn := List.mem_cons.mp hn
    · exact hrest.le
    · exact ih hn

/-- The first occurrences of the numbers that were not known before are exactly the new ones, in
ascending order. -/
theorem eraseDups_filter (h : Introduces a ns b) :
    (ns.filter fun n ↦ decide (a ≤ n)).eraseDups = List.range' a (b - a) := by
  induction h with
  | nil a => simp
  | @known a b n ns hn _ ih =>
    rw [List.filter_cons_of_neg (by simpa using hn), ih]
  | @new a b ns h ih =>
    have hle := h.le
    rw [List.filter_cons_of_pos (by simp), List.eraseDups_cons, List.filter_filter]
    have hlater : (ns.filter fun n ↦ (!(n == a)) && decide (a ≤ n))
        = ns.filter fun n ↦ decide (a + 1 ≤ n) := by
      apply List.filter_congr
      intro n _
      by_cases hna : n = a
      · simp [hna]
      · have : a ≤ n ↔ a + 1 ≤ n := by omega
        simp [hna, this]
    rw [hlater, ih, show b - a = (b - (a + 1)) + 1 by omega, List.range'_succ]

theorem eraseDups (h : Introduces 0 ns b) : ns.eraseDups = List.range b := by
  have hall : (ns.filter fun n ↦ decide (0 ≤ n)) = ns := by simp
  rw [← hall, h.eraseDups_filter, Nat.sub_zero, List.range_eq_range']

end Introduces

/-- What stands at a place of a list stands there in every list that goes on from it. -/
theorem getElem?_of_prefix {α : Type} {before after : List α} (h : before <+: after) {n : ℕ} {a : α}
    (hn : before[n]? = some a) : after[n]? = some a := by
  obtain ⟨more, rfl⟩ := h
  obtain ⟨hlt, -⟩ := List.getElem?_eq_some_iff.mp hn
  rw [List.getElem?_append_left hlt, hn]

/-- Between the tables `t` and `t'` the names with the numbers `names` and the literals with the
numbers `literals` were interned, in this order. -/
structure Numbering (t t' : PlaceholderTable) (names literals : List ℕ) : Prop where
  names_prefix : t.names <+: t'.names
  values_prefix : t.values <+: t'.values
  introduces : Introduces t.names.length names t'.names.length
  literals_eq : literals = List.range' t.values.length (t'.values.length - t.values.length)
  nodup : t.names.Nodup → t'.names.Nodup

namespace Numbering

variable {t u t' : PlaceholderTable} {ns ns' ls ls' : List ℕ}

theorem refl (t : PlaceholderTable) : Numbering t t [] [] where
  names_prefix := List.prefix_rfl
  values_prefix := List.prefix_rfl
  introduces := .nil _
  literals_eq := by simp
  nodup := id

theorem trans (h : Numbering t u ns ls) (h' : Numbering u t' ns' ls') :
    Numbering t t' (ns ++ ns') (ls ++ ls') where
  names_prefix := h.names_prefix.trans h'.names_prefix
  values_prefix := h.values_prefix.trans h'.values_prefix
  introduces := h.introduces.append h'.introduces
  literals_eq := by
    have hle := h.values_prefix.length_le
    have hle' := h'.values_prefix.length_le
    rw [h.literals_eq, h'.literals_eq,
      show t'.values.length - t.values.length
        = (u.values.length - t.values.length) + (t'.values.length - u.values.length) by omega,
      ← List.range'_append_1, show t.values.length + (u.values.length - t.values.length)
        = u.values.length by omega]
  nodup := h'.nodup ∘ h.nodup

/-- A number keeps its name in a table that was only appended to. -/
theorem getElem?_names (h : Numbering t t' ns ls) {n : ℕ} {s : String} (hn : t.names[n]? = some s) :
    t'.names[n]? = some s :=
  getElem?_of_prefix h.names_prefix hn

/-- A number keeps its literal in a table that was only appended to. -/
theorem getElem?_values (h : Numbering t t' ns ls) {n : ℕ} {v : AttributeValue}
    (hn : t.values[n]? = some v) : t'.values[n]? = some v :=
  getElem?_of_prefix h.values_prefix hn

/-- Interning a name. -/
theorem of_internName {s : String} {n : ℕ} (h : t.internName s = (n, t')) :
    Numbering t t' [n] [] ∧ t'.names[n]? = some s := by
  unfold PlaceholderTable.internName at h
  cases hidx : t.names.idxOf? s with
  | some m =>
    rw [hidx] at h
    obtain ⟨rfl, rfl⟩ := Prod.mk.inj h
    obtain ⟨hlt, hget, -⟩ := List.idxOf?_eq_some_iff.mp hidx
    refine ⟨?_, by rw [List.getElem?_eq_getElem hlt, hget]⟩
    exact { refl t with introduces := .known hlt (.nil _) }
  | none =>
    rw [hidx] at h
    obtain ⟨rfl, rfl⟩ := Prod.mk.inj h
    have hnew : s ∉ t.names := List.idxOf?_eq_none_iff.mp hidx
    refine ⟨?_, by simp⟩
    refine { refl t with names_prefix := List.prefix_append _ _, introduces := ?_, nodup := ?_ }
    · rw [List.length_append, List.length_singleton]
      exact .new (.nil _)
    · intro hnodup
      rw [← List.concat_eq_append]
      exact hnodup.concat hnew

/-- Interning a literal. -/
theorem of_internValue {v : AttributeValue} {n : ℕ} (h : t.internValue v = (n, t')) :
    Numbering t t' [] [n] ∧ t'.values[n]? = some v := by
  obtain ⟨rfl, rfl⟩ := Prod.mk.inj h
  refine ⟨?_, by simp⟩
  exact { refl t with
    values_prefix := List.prefix_append _ _
    literals_eq := by simp }

end Numbering
end TableClient
