import TableClient.Proofs.Request.Expressions
import TableClient.Proofs.Request.KeyTypes

/-!
# The requests of a batch

The elements of a batch are cut into parts, all full but the last one (`IsCut`). Each part goes into
a request of its own, and the requests of a batch agree in everything else.
-/

namespace TableClient

/-! ## Parts of a list -/

section Cut

variable {α : Type} {size : ℕ}

/-- The parts are the list, cut: together they have its items in their order, each has between one
and `size` of them, and only the last one may have less than `size`. -/
structure IsCut (size : ℕ) (items : List α) (parts : List (List α)) : Prop where
  flatten : parts.flatten = items
  nonempty : ∀ part ∈ parts, part ≠ []
  length_le : ∀ part ∈ parts, part.length ≤ size
  full : ∀ part ∈ parts.dropLast, part.length = size

theorem isCut_nil (size : ℕ) : IsCut size ([] : List α) [] where
  flatten := rfl
  nonempty := List.forall_mem_nil _
  length_le := List.forall_mem_nil _
  full := List.forall_mem_nil _

theorem IsCut.eq_nil {parts : List (List α)} (h : IsCut size [] parts) : parts = [] := by
  cases parts with
  | nil => rfl
  | cons part parts =>
    have hpart : part = [] := (List.append_eq_nil_iff.mp h.flatten).1
    exact absurd hpart (h.nonempty part List.mem_cons_self)

/-- A part in front of a cut; it is full unless nothing follows. -/
theorem IsCut.cons {part items : List α} {parts : List (List α)} (h : IsCut size items parts)
    (hnonempty : part ≠ []) (hle : part.length ≤ size) (hfull : items ≠ [] → part.length = size) :
    IsCut size (part ++ items) (part :: parts) where
  flatten := by rw [List.flatten_cons, h.flatten]
  nonempty := List.forall_mem_cons.mpr ⟨hnonempty, h.nonempty⟩
  length_le := List.forall_mem_cons.mpr ⟨hle, h.length_le⟩
  full := by
    by_cases hparts : parts = []
    · rw [hparts]
      intro part hpart
      cases hpart
    · rw [List.dropLast_cons_of_ne_nil hparts]
      refine List.forall_mem_cons.mpr ⟨hfull ?_, h.full⟩
      rintro rfl
      exact hparts h.eq_nil

theorem isCut_chunks (hsize : 0 < size) (items : List α) :
    IsCut size items (chunks size items) := by
  fun_induction chunks size items with
  | case1 => exact isCut_nil size
  | case2 x xs ih =>
    have hlength : (x :: xs.take (size - 1)).length = min size (xs.length + 1) := by
      rw [List.length_cons, List.length_take]
      omega
    have hcons := ih.cons (List.cons_ne_nil x (xs.take (size - 1))) ?_ ?_
    · rwa [List.cons_append, List.take_append_drop] at hcons
    · rw [hlength]
      exact Nat.min_le_left _ _
    · intro hrest
      have hlonger : size - 1 < xs.length := by
        by_contra hshort
        exact hrest (List.drop_eq_nil_iff.mpr (Nat.not_lt.mp hshort))
      rw [hlength]
      omega

/-- A list that fills its parts has none with less. -/
example : chunks 2 [1, 2, 3, 4] = [[1, 2], [3, 4]] ∧ chunks 2 [1, 2, 3] = [[1, 2], [3]] := by
  constructor
  · cbv
  · cbv

end Cut

/-! ## Requests -/

namespace Request

variable {table : TableDescriptor} {config : ClientConfig}

/-- The request that reads the items under some keys. -/
def keysRequest (table : TableDescriptor) (config : ClientConfig) (o : ReadOptions)
    (projectionExpression : Option String) (expressionAttributeNames : Dict String)
    (part : List Key) : BatchGetItemInput where
  requestItems := [(table.tableName, {
    keys := part
    projectionExpression
    expressionAttributeNames
    consistentRead := o.consistentRead })]
  returnConsumedCapacity := capacityLevel config o.returnConsumedCapacity

/-- The request that puts and deletes some items. -/
def writesRequest (table : TableDescriptor) (config : ClientConfig) (o : BatchWriteOptions)
    (part : List WriteRequest) : BatchWriteItemInput where
  requestItems := [(table.tableName, part)]
  returnConsumedCapacity := capacityLevel config o.returnConsumedCapacity
  returnItemCollectionMetrics := o.returnItemCollectionMetrics

theorem parts_of_batchGet {keys : List Key} {o : ReadOptions} {plan : List BatchGetItemInput}
    (h : batchGet table config keys o = .ok plan) :
    ∃ parts projection names, IsCut maxBatchGetKeys keys parts ∧
      plan = parts.map (keysRequest table config o projection names) := by
  simp only [batchGet, Except.bind_eq_ok_iff] at h
  obtain ⟨-, -, -, -, ⟨projection, placeholders⟩, -, h⟩ := h
  exact ⟨_, projection, placeholders.attributeNames, isCut_chunks (by decide) keys,
    (Except.ok.inj h).symm⟩

theorem parts_of_batchWrite {puts : List Item} {deletes : List Key} {o : BatchWriteOptions}
    {plan : List BatchWriteItemInput} (h : batchWrite table config puts deletes o = .ok plan) :
    ∃ parts, IsCut maxBatchWriteItems (puts.map .put ++ deletes.map .delete) parts ∧
      plan = parts.map (writesRequest table config o) := by
  simp only [batchWrite, Except.bind_eq_ok_iff] at h
  obtain ⟨-, -, -, -, h⟩ := h
  exact ⟨_, isCut_chunks (by decide) _, (Except.ok.inj h).symm⟩

/-- A batch of reads is built only for keys that all pass their check, at least one. -/
theorem checked_of_batchGet {keys : List Key} {o : ReadOptions} {plan : List BatchGetItemInput}
    (h : batchGet table config keys o = .ok plan) :
    keys ≠ [] ∧ ∀ key ∈ keys, table.checkItemKeys key = .ok () := by
  simp only [batchGet, Except.bind_eq_ok_iff, Checked.refuseIf_eq_ok_iff,
    Except.forM_eq_ok_iff, List.isEmpty_eq_false_iff] at h
  obtain ⟨-, hnonempty, -, hchecked, -⟩ := h
  exact ⟨hnonempty, hchecked⟩

end Request
end TableClient
