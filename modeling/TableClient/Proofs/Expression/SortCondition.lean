import TableClient.Proofs.Expression.Comparison

/-!
# The places and the form of a condition

What a condition looks at, at any depth (`Condition.LooksAt`), and which conditions a sort key takes
(`SortCondition`): the value of the key itself, compared with literals. The lists and checks of the
program agree with both.
-/

namespace TableClient

variable {ν α : Type}

/-! ## Places -/

/-- The operand is the value at the place, or the size of that value. -/
def Operand.LooksAt (path : Path ν) : Operand ν α → Prop
  | .literal _ => False
  | .reference p | .size p => p = path

/-- Some operand of the condition, at any depth, looks at the place. -/
def Condition.LooksAt (path : Path ν) : Condition ν α → Prop
  | .compare left _ right => left.LooksAt path ∨ right.LooksAt path
  | .between value low high => value.LooksAt path ∨ low.LooksAt path ∨ high.LooksAt path
  | .among value candidates =>
    value.LooksAt path ∨ ∃ candidate ∈ candidates, Operand.LooksAt path candidate
  | .function _ arguments => ∃ argument ∈ arguments, Operand.LooksAt path argument
  | .logical _ left right => left.LooksAt path ∨ right.LooksAt path
  | .not inner => inner.LooksAt path

namespace Condition

theorem exists_operand_of_looksAt {path : Path ν} {c : Condition ν α} (h : c.LooksAt path) :
    ∃ operand ∈ c.operands, operand.LooksAt path := by
  induction c with
  | compare left op right =>
    obtain h | h := h
    · exact ⟨left, .head _, h⟩
    · exact ⟨right, .tail _ (.head _), h⟩
  | between value low high =>
    obtain h | h | h := h
    · exact ⟨value, .head _, h⟩
    · exact ⟨low, .tail _ (.head _), h⟩
    · exact ⟨high, .tail _ (.tail _ (.head _)), h⟩
  | among value candidates =>
    obtain h | ⟨candidate, hmem, h⟩ := h
    · exact ⟨value, .head _, h⟩
    · exact ⟨candidate, .tail _ hmem, h⟩
  | function name arguments => exact h
  | logical op left right ihl ihr =>
    obtain h | h := h
    · obtain ⟨operand, hmem, h⟩ := ihl h
      exact ⟨operand, List.mem_append_left _ hmem, h⟩
    · obtain ⟨operand, hmem, h⟩ := ihr h
      exact ⟨operand, List.mem_append_right _ hmem, h⟩
  | not inner ih => exact ih h

/-- The attribute of every place is among those that the condition lists. -/
theorem root_mem_attributes {path : Path ν} {c : Condition ν α} (h : c.LooksAt path) :
    path.root ∈ c.attributes := by
  obtain ⟨operand, hmem, h⟩ := exists_operand_of_looksAt h
  rw [attributes, List.mem_filterMap]
  refine ⟨operand, hmem, ?_⟩
  cases operand with
  | literal value => cases h
  | reference p | size p =>
    obtain rfl := h
    rfl

end Condition

/-! ## Sort conditions -/

/-- The conditions that a sort key takes. -/
inductive SortCondition (key : ν) : Condition ν α → Prop
  | compare {op : CompareOp} (hop : op ≠ .ne) (value : α) :
      SortCondition key (.compare (.reference ⟨key, []⟩) op (.literal value))
  | between (low high : α) :
      SortCondition key (.between (.reference ⟨key, []⟩) (.literal low) (.literal high))
  | beginsWith (start : α) :
      SortCondition key (.function .beginsWith [.reference ⟨key, []⟩, .literal start])

theorem Path.attribute?_eq_some_iff {p : Path ν} {name : ν} :
    p.attribute? = some name ↔ p = ⟨name, []⟩ := by
  obtain ⟨root, steps⟩ := p
  cases steps with
  | nil => simp [attribute?]
  | cons step steps => simp [attribute?]

theorem Operand.attribute?_eq_some_iff {o : Operand ν α} {name : ν} :
    o.attribute? = some name ↔ o = .reference ⟨name, []⟩ := by
  cases o with
  | literal value | size path => simp [attribute?]
  | reference path => simp [attribute?, Path.attribute?_eq_some_iff]

namespace SortCondition

theorem looksAt {key : ν} {c : Condition ν α} (h : SortCondition key c) : c.LooksAt ⟨key, []⟩ := by
  cases h with
  | compare | between => exact .inl rfl
  | beginsWith => exact ⟨_, .head _, rfl⟩

theorem of_isSortCondition [DecidableEq ν] {key : ν} {c : Condition ν α}
    (h : c.isSortCondition key = true) : SortCondition key c := by
  unfold Condition.isSortCondition at h
  split at h
  · simp only [Bool.and_eq_true, decide_eq_true_iff, Operand.attribute?_eq_some_iff] at h
    obtain ⟨hop, rfl⟩ := h
    exact .compare hop _
  · simp only [decide_eq_true_iff, Operand.attribute?_eq_some_iff] at h
    obtain rfl := h
    exact .between _ _
  · simp only [decide_eq_true_iff, Operand.attribute?_eq_some_iff] at h
    obtain rfl := h
    exact .beginsWith _
  · cases h

theorem isSortCondition [DecidableEq ν] {key : ν} {c : Condition ν α} (h : SortCondition key c) :
    c.isSortCondition key = true := by
  cases h with
  | compare hop value => simp [Condition.isSortCondition, hop, Operand.attribute?_eq_some_iff]
  | between low high => simp [Condition.isSortCondition, Operand.attribute?_eq_some_iff]
  | beginsWith start => simp [Condition.isSortCondition, Operand.attribute?_eq_some_iff]

/-- A comparison that key conditions have makes a sort condition. -/
theorem of_condition? {op : ComparisonOperator} {name : String} {values : List AttributeValue}
    {c : Condition String AttributeValue} (hkeys : op.ofKeys = true)
    (h : op.condition? ⟨name, []⟩ values = some c) : SortCondition name c := by
  cases op with
  | ne | notNull | null | contains | notContains | isIn => cases hkeys
  | eq | le | lt | ge | gt =>
    rcases values with _ | ⟨value, _ | ⟨further, rest⟩⟩
    · cases h
    · obtain rfl := Option.some.inj h
      exact .compare (by decide) value
    · cases h
  | beginsWith =>
    rcases values with _ | ⟨start, _ | ⟨further, rest⟩⟩
    · cases h
    · obtain rfl := Option.some.inj h
      exact .beginsWith start
    · cases h
  | between =>
    rcases values with _ | ⟨low, _ | ⟨high, _ | ⟨further, rest⟩⟩⟩
    · cases h
    · cases h
    · obtain rfl := Option.some.inj h
      exact .between low high
    · cases h

/-- So does an entry of a map of key conditions. -/
theorem of_keyCondition {name : String} {entry : ConditionEntry}
    {c : Condition String AttributeValue} (h : entry.keyCondition name = .ok c) :
    SortCondition name c := by
  rw [ConditionEntry.keyCondition] at h
  split at h
  · next hkeys =>
    exact of_condition? hkeys (ComparisonOperator.condition_eq_ok_iff.mp h).2
  · cases h

end SortCondition
end TableClient
