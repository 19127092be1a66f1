import Mathlib.Data.List.Perm.Basic
import TableClient.Expression.Compile
import TableClient.Proofs.Expression.Expressible

/-!
# Which updates are accepted

The check of an update goes through its actions in order. It compares each with those before it and
stops at the first fault. Two actions exclude each other in either order, and no action excludes
itself, so it is enough to compare with what came earlier: acceptance is a matter of which actions
there are (`UpdateAction.Acceptable`) and not of their places. Behind the check names and literals
are only interned, so the check alone decides.
-/

namespace TableClient

open Interning (Total InternsOf)

namespace UpdateAction

variable {ν : Type} {u : Unit}

/-! ## Acceptable updates -/

/-- The value of the action is one that its clause takes. -/
def Suits : UpdateAction ν AttributeValue → Prop
  | .add _ value => value.isNumber = true ∨ value.isSet = true
  | .delete _ value => value.isSet = true
  | .set _ _ | .remove _ => True

/-- An update that is accepted: it does something, every action suits its clause, and nothing is
added to a place from which something is deleted. -/
structure Acceptable (actions : List (UpdateAction ν AttributeValue)) : Prop where
  nonempty : actions ≠ []
  suits : ∀ action ∈ actions, action.Suits
  apart : ∀ path value value', .add path value ∈ actions → .delete path value' ∉ actions

/-- The places of the actions do not matter. -/
theorem Acceptable.of_forall_mem_iff {actions actions' : List (UpdateAction ν AttributeValue)}
    (h : Acceptable actions) (hmem : ∀ action, action ∈ actions' ↔ action ∈ actions) :
    Acceptable actions' where
  nonempty := by
    obtain ⟨action, haction⟩ := List.exists_mem_of_ne_nil _ h.nonempty
    exact List.ne_nil_of_mem ((hmem action).mpr haction)
  suits action haction := h.suits action ((hmem action).mp haction)
  apart path value value' hadd hdelete :=
    h.apart path value value' ((hmem _).mp hadd) ((hmem _).mp hdelete)

/-! ## The check -/

theorem checkValue_eq_ok_iff {action : UpdateAction ν AttributeValue} :
    action.checkValue = .ok u ↔ action.Suits := by
  cases action with
  | set path value | remove path => exact iff_of_true rfl trivial
  | add path value =>
    rw [checkValue, Suits, or_comm, ← Bool.or_eq_true]
    by_cases hvalue : (value.isSet || value.isNumber) = true
    · rw [if_pos hvalue]
      exact iff_of_true rfl hvalue
    · rw [if_neg hvalue]
      exact iff_of_false (by simp) hvalue
  | delete path value =>
    rw [checkValue, Suits]
    by_cases hvalue : value.isSet = true
    · rw [if_pos hvalue]
      exact iff_of_true rfl hvalue
    · rw [if_neg hvalue]
      exact iff_of_false (by simp) hvalue

section Clashes

variable [DecidableEq ν]

theorem clashes_comm (action other : UpdateAction ν AttributeValue) :
    action.clashes other = other.clashes action := by
  cases action <;> cases other <;> simp [clashes, eq_comm]

theorem clashes_self (action : UpdateAction ν AttributeValue) : action.clashes action = false := by
  cases action <;> rfl

theorem forall_clashes_iff {actions : List (UpdateAction ν AttributeValue)} :
    (∀ action ∈ actions, ∀ other ∈ actions, other.clashes action = false) ↔
      ∀ path value value', .add path value ∈ actions → .delete path value' ∉ actions := by
  constructor
  · intro h path value value' hadd hdelete
    have hclash := h _ hdelete _ hadd
    simp [clashes] at hclash
  · intro h action haction other hother
    rw [Bool.eq_false_iff]
    intro hclash
    cases other <;> cases action <;> simp [clashes] at hclash
    · subst hclash
      exact h _ _ _ hother haction
    · subst hclash
      exact h _ _ _ haction hother

end Clashes

/-- What is left to check is accepted exactly if every value suits and no action excludes one that
comes before or after it. -/
theorem checkFrom_eq_ok_iff {earlier actions : List (UpdateAction String AttributeValue)} :
    checkFrom earlier actions = .ok u ↔ (∀ action ∈ actions, action.Suits) ∧
      ∀ action ∈ actions, ∀ other ∈ earlier ++ actions, other.clashes action = false := by
  induction actions generalizing earlier with
  | nil => exact iff_of_true rfl ⟨by simp, by simp⟩
  | cons action rest ih =>
    have hfind : earlier.find? (·.clashes action) = none ↔
        ∀ other ∈ earlier, other.clashes action = false := by simp
    rw [checkFrom, Except.bind_eq_ok_iff, List.append_cons earlier action rest]
    simp only [List.forall_mem_cons]
    constructor
    · rintro ⟨_, hvalue, h⟩
      split at h
      · cases h
      · next hnone =>
        obtain ⟨hsuits, hrest⟩ := ih.mp h
        refine ⟨⟨checkValue_eq_ok_iff.mp hvalue, hsuits⟩, fun other hother ↦ ?_, hrest⟩
        rcases List.mem_append.mp hother with hother | hlater
        · rcases List.mem_append.mp hother with hearlier | hown
          · exact hfind.mp hnone other hearlier
          · rw [List.mem_singleton.mp hown, clashes_self]
        -- a later action is compared with this one when its turn comes
        · rw [clashes_comm]
          exact hrest other hlater action (by simp)
    · rintro ⟨⟨hsuit, hsuits⟩, hown, hrest⟩
      have hnone := hfind.mpr fun other hearlier ↦ hown other (by simp [hearlier])
      refine ⟨(), checkValue_eq_ok_iff.mpr hsuit, ?_⟩
      simp only [hnone]
      exact ih.mpr ⟨hsuits, hrest⟩

/-- What is left to check is refused for the value of an action, or for two actions that exclude
each other. -/
theorem exists_of_checkFrom_eq_error {earlier actions : List (UpdateAction String AttributeValue)}
    {e : ExpressionError} (h : checkFrom earlier actions = .error e) :
    (∃ action ∈ actions, action.checkValue = .error e) ∨
      ∃ action ∈ actions, ∃ other ∈ earlier ++ actions, other.clashes action = true := by
  induction actions generalizing earlier with
  | nil => cases h
  | cons action rest ih =>
    rw [checkFrom, Except.bind_eq_error_iff] at h
    rcases h with hvalue | ⟨_, -, h⟩
    · exact .inl ⟨action, List.mem_cons_self, hvalue⟩
    · split at h
      · next other hfind =>
        have hclash : other.clashes action = true := by simpa using List.find?_some hfind
        exact .inr ⟨action, List.mem_cons_self, other,
          List.mem_append_left _ (List.mem_of_find?_eq_some hfind), hclash⟩
      · rcases ih h with ⟨failed, hmem, hfails⟩ | ⟨later, hlater, other, hother, hclash⟩
        · exact .inl ⟨failed, .tail action hmem, hfails⟩
        · rw [← List.append_cons] at hother
          exact .inr ⟨later, .tail action hlater, other, hother, hclash⟩

theorem check_eq_ok_iff {actions : List (UpdateAction String AttributeValue)} :
    check actions = .ok u ↔ Acceptable actions := by
  rw [check]
  by_cases hempty : actions.isEmpty = true
  · rw [if_pos hempty]
    apply iff_of_false (by simp)
    intro h
    exact h.nonempty (List.isEmpty_iff.mp hempty)
  · rw [if_neg hempty, checkFrom_eq_ok_iff, List.nil_append, forall_clashes_iff]
    constructor
    · rintro ⟨hsuits, hapart⟩
      exact ⟨fun h ↦ hempty (List.isEmpty_iff.mpr h), hsuits, hapart⟩
    · intro h
      exact ⟨h.suits, h.apart⟩

end UpdateAction

/-! ## Behind the check -/

theorem SetValue.internsOf_numbered (v : SetValue String AttributeValue) :
    InternsOf v.numbered v.operands := by
  induction v with
  | operand source => exact source.internsOf_numbered.map _
  | plus left right ihl ihr | minus left right ihl ihr | listAppend left right ihl ihr =>
    exact ihl.bind fun _ ↦ ihr.map _
  | ifNotExists path value ih => exact path.internsOf_numbered.bind fun _ ↦ ih.map _

namespace UpdateAction

variable {actions : List (UpdateAction String AttributeValue)} {t : PlaceholderTable}

theorem internsOf_numbered (action : UpdateAction String AttributeValue) :
    InternsOf action.numbered action.operands := by
  cases action with
  | set path value =>
    exact path.internsOf_numbered.bind fun _ ↦ value.internsOf_numbered.map _
  | remove path => exact path.internsOf_numbered.map _
  | add path value | delete path value =>
    exact path.internsOf_numbered.bind fun _ ↦ (InternsOf.value value).map _

theorem internsOf_updateText (actions : List (UpdateAction String AttributeValue)) :
    InternsOf (updateText <$> (byClause actions).mapM numbered)
      ((byClause actions).flatMap operands) :=
  (InternsOf.mapM internsOf_numbered (byClause actions)).map updateText

theorem total_updateText (actions : List (UpdateAction String AttributeValue)) :
    Total (updateText <$> (byClause actions).mapM numbered) :=
  (internsOf_updateText actions).total

theorem exists_compile_iff :
    (∃ text u, (compile actions).Yields t text u) ↔ Acceptable actions := by
  rw [compile, Interning.exists_yields_checked_iff fun _ _ ↦ total_updateText actions]
  simp only [check_eq_ok_iff, exists_const]

end UpdateAction

/-- **Acceptance of updates.** An update is compiled exactly if it has an action, adds only numbers
and sets, deletes only members of sets, and does not both add to and delete from one place. So
neither the order of the actions nor the table matters. A refusal is that of the check, and it
leaves the table as it was. -/
theorem update_compiled_iff_acceptable (actions : List (UpdateAction String AttributeValue))
    (t : PlaceholderTable) :
    ((∃ text u, (UpdateAction.compile actions).Yields t text u) ↔
      actions ≠ [] ∧
      (∀ path value, .add path value ∈ actions → value.isNumber = true ∨ value.isSet = true) ∧
      (∀ path value, .delete path value ∈ actions → value.isSet = true) ∧
      ∀ path value value', .add path value ∈ actions → .delete path value' ∉ actions) ∧
    (∀ actions' t', actions.Perm actions' →
      ((∃ text u, (UpdateAction.compile actions).Yields t text u) ↔
        ∃ text u, (UpdateAction.compile actions').Yields t' text u)) ∧
    ∀ e u, (UpdateAction.compile actions).outcome t = (.error e, u) →
      u = t ∧ UpdateAction.check actions = .error e := by
  refine ⟨?_, ?_, ?_⟩
  · rw [UpdateAction.exists_compile_iff]
    constructor
    · intro h
      exact ⟨h.nonempty, fun _ _ hadd ↦ h.suits _ hadd, fun _ _ hdelete ↦ h.suits _ hdelete,
        h.apart⟩
    · rintro ⟨hnonempty, hadd, hdelete, hapart⟩
      refine ⟨hnonempty, ?_, hapart⟩
      intro action haction
      cases action with
      | set path value | remove path => exact trivial
      | add path value => exact hadd path value haction
      | delete path value => exact hdelete path value haction
  · intro actions' t' hperm
    rw [UpdateAction.exists_compile_iff, UpdateAction.exists_compile_iff]
    constructor
    · intro h
      exact h.of_forall_mem_iff fun action ↦ hperm.mem_iff.symm
    · intro h
      exact h.of_forall_mem_iff fun action ↦ hperm.mem_iff
  · intro e u h
    rw [UpdateAction.compile, Interning.outcome_checked_eq_error_iff fun _ _ ↦
      UpdateAction.total_updateText actions] at h
    exact ⟨h.2, h.1⟩

/-- Members are deleted from one attribute and a number is added to another, in either order. In one
attribute the two exclude each other, whatever stands between them. -/
theorem additions_apart_from_deletions :
    let add : UpdateAction String AttributeValue := .add ⟨"A", []⟩ (.number "1")
    let delete : UpdateAction String AttributeValue := .delete ⟨"B", []⟩ (.stringSet ["x"])
    let deleteToo : UpdateAction String AttributeValue := .delete ⟨"A", []⟩ (.stringSet ["x"])
    (∃ text u, (UpdateAction.compile [delete, add]).Yields ⟨["A"], []⟩ text u) ∧
    (∃ text u, (UpdateAction.compile [add, delete]).Yields ⟨[], []⟩ text u) ∧
    (UpdateAction.compile [deleteToo, .remove ⟨"B", []⟩, add]).outcome ⟨["A"], []⟩ =
      (.error (.conflictingActions "A" .delete .add), ⟨["A"], []⟩) ∧
    UpdateAction.check [deleteToo, .remove ⟨"B", []⟩, add] =
      .error (.conflictingActions "A" .delete .add) := by
  intro add delete deleteToo
  obtain ⟨haccepted, horder, -⟩ := update_compiled_iff_acceptable [delete, add] ⟨["A"], []⟩
  have hcompiled : ∃ text u, (UpdateAction.compile [delete, add]).Yields ⟨["A"], []⟩ text u := by
    rw [haccepted]
    refine ⟨List.cons_ne_nil _ _, by simp [add, delete, AttributeValue.isNumber],
      by simp [add, delete, AttributeValue.isSet], ?_⟩
    simp only [add, delete, List.mem_cons, List.not_mem_nil, UpdateAction.add.injEq,
      UpdateAction.delete.injEq, reduceCtorEq, false_or, or_false]
    rintro path value value' ⟨rfl, -⟩ ⟨hpath, -⟩
    exact absurd hpath (by decide)
  refine ⟨hcompiled, (horder [add, delete] ⟨[], []⟩ (.swap add delete [])).mp hcompiled, ?_⟩
  have houtcome : (UpdateAction.compile [deleteToo, .remove ⟨"B", []⟩, add]).outcome ⟨["A"], []⟩ =
      (.error (.conflictingActions "A" .delete .add), ⟨["A"], []⟩) := by rfl
  obtain ⟨-, -, hrefused⟩ :=
    update_compiled_iff_acceptable [deleteToo, .remove ⟨"B", []⟩, add] ⟨["A"], []⟩
  exact ⟨houtcome, (hrefused _ _ houtcome).2⟩

end TableClient
