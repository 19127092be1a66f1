import Mathlib.Data.List.Induction
import TableClient.Ascending

/-!
# Ascending lists

What is put into an ascending list is in it, whatever the order. A list that is ascending already
stays as it is.
-/

namespace TableClient

variable {α : Type} {less : α → α → Bool}

theorem ascending_append_singleton (members : List α) (x : α) :
    ascending less (members ++ [x]) = insertAscending less x (ascending less members) := by
  rw [ascending, List.foldl_append]
  rfl

section Members

variable (htotal : ∀ x y, less x y = false → less y x = false → x = y)
include htotal

theorem mem_insertAscending (x : α) (set : List α) (y : α) :
    y ∈ insertAscending less x set ↔ y = x ∨ y ∈ set := by
  induction set with
  | nil => rw [insertAscending, List.mem_singleton, or_iff_left List.not_mem_nil]
  | cons z rest ih =>
    rw [insertAscending]
    split
    · rw [List.mem_cons]
    · next hxz =>
      split
      · rw [List.mem_cons, ih, List.mem_cons, or_left_comm]
      · next hzx =>
        obtain rfl := htotal x z (Bool.eq_false_iff.mpr hxz) (Bool.eq_false_iff.mpr hzx)
        rw [List.mem_cons, or_self_left]

theorem mem_ascending (members : List α) (y : α) : y ∈ ascending less members ↔ y ∈ members := by
  induction members using List.reverseRecOn with
  | nil => rfl
  | append_singleton members x ih =>
    rw [ascending_append_singleton, mem_insertAscending htotal, ih, List.mem_append,
      List.mem_singleton, or_comm]

end Members

section Order

variable {r : α → α → Prop} [DecidableRel r] (hasymm : ∀ x y, r x y → ¬ r y x)
include hasymm

/-- What is greater than all members goes to the end. -/
theorem insertAscending_of_forall {x : α} {set : List α} (h : ∀ y ∈ set, r y x) :
    insertAscending (fun a b ↦ decide (r a b)) x set = set ++ [x] := by
  induction set with
  | nil => rfl
  | cons y rest ih =>
    obtain ⟨hy, hrest⟩ := List.forall_mem_cons.mp h
    have hnot : ¬ r x y := fun hxy ↦ hasymm x y hxy hy
    simp only [insertAscending, decide_eq_true_iff, if_neg hnot, if_pos hy, ih hrest,
      List.cons_append]

theorem ascending_eq_self {members : List α} (h : members.Pairwise r) :
    ascending (fun a b ↦ decide (r a b)) members = members := by
  induction members using List.reverseRecOn with
  | nil => rfl
  | append_singleton members x ih =>
    obtain ⟨hmembers, -, hlast⟩ := List.pairwise_append.mp h
    rw [ascending_append_singleton, ih hmembers]
    exact insertAscending_of_forall hasymm fun y hy ↦ hlast y hy x (List.mem_singleton_self x)

end Order
end TableClient
