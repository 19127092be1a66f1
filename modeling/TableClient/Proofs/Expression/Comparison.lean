import TableClient.Expression.FromMap
import TableClient.Proofs.Except

/-!
# Comparisons with operands

An entry of a map compares an attribute with a list of operands. `ComparisonOperator.Suits` says
which lists a comparison takes: as many operands as it has places, and scalar ones where it asks for
them. The check accepts exactly these, every one of them has a condition, and its literals are the
operands, each once and in their order.
-/

namespace TableClient.ComparisonOperator

variable {op : ComparisonOperator} {p : Path String} {name : String}
  {values : List AttributeValue} {c : Condition String AttributeValue}

/-- The comparison takes these operands. -/
def Suits (op : ComparisonOperator) (values : List AttributeValue) : Prop :=
  op.takes values.length = true ∧
    (op.wantsScalars = true → ∀ value ∈ values, value.scalarType?.isSome = true)

theorem check_eq_ok_iff_suits {u : Unit} : op.check values = .ok u ↔ op.Suits values := by
  rw [check, Suits]
  by_cases htakes : op.takes values.length = true
  · have hfind : values.find? (fun value ↦ op.wantsScalars && value.scalarType?.isNone) = none ↔
        (op.wantsScalars = true → ∀ value ∈ values, value.scalarType?.isSome = true) := by
      rw [List.find?_eq_none]
      by_cases hscalars : op.wantsScalars = true
      · simp [hscalars, Option.isSome_iff_ne_none]
      · simp [hscalars]
    rw [htakes, ← hfind]
    cases values.find? fun value ↦ op.wantsScalars && value.scalarType?.isNone <;> simp
  · simp [htakes]

/-- A comparison that key conditions have takes any operands of the right number. -/
theorem suits_iff_of_ofKeys (hop : op.ofKeys = true) :
    op.Suits values ↔ op.takes values.length = true := by
  have hscalars : op.wantsScalars = false := by
    cases op with
    | ne | notNull | null | contains | notContains | isIn => cases hop
    | eq | le | lt | ge | gt | beginsWith | between => rfl
  simp [Suits, hscalars]

/-- The places of a comparison are those that its condition reads. -/
theorem exists_condition?_iff :
    (∃ c, op.condition? p values = some c) ↔ op.takes values.length = true := by
  cases op with
  | null | notNull =>
    rcases values with _ | ⟨x, rest⟩
    · exact iff_of_true ⟨_, rfl⟩ rfl
    · simp [condition?, takes]
  | isIn =>
    rcases values with _ | ⟨x, rest⟩
    · simp [condition?, takes]
    · exact iff_of_true ⟨_, rfl⟩ (by simp [takes])
  | between =>
    rcases values with _ | ⟨x, _ | ⟨y, _ | ⟨z, rest⟩⟩⟩
    · simp [condition?, takes]
    · simp [condition?, takes]
    · exact iff_of_true ⟨_, rfl⟩ rfl
    · simp [condition?, takes]
  | eq | ne | le | lt | ge | gt | contains | notContains | beginsWith =>
    rcases values with _ | ⟨x, _ | ⟨y, rest⟩⟩
    · simp [condition?, takes]
    · exact iff_of_true ⟨_, rfl⟩ rfl
    · simp [condition?, takes]

/-- The condition looks at the attribute and then at the operands, at each once and in their
order. -/
theorem operands_of_condition? (h : op.condition? p values = some c) :
    c.operands = .reference p :: values.map .literal := by
  cases op with
  | null | notNull =>
    rcases values with _ | ⟨x, rest⟩
    all_goals cases h
    rfl
  | isIn =>
    rcases values with _ | ⟨x, rest⟩
    all_goals cases h
    rfl
  | between =>
    rcases values with _ | ⟨x, _ | ⟨y, _ | ⟨z, rest⟩⟩⟩
    all_goals cases h
    rfl
  | eq | ne | le | lt | ge | gt | contains | notContains | beginsWith =>
    rcases values with _ | ⟨x, _ | ⟨y, rest⟩⟩
    all_goals cases h
    rfl

theorem literals_of_condition? (h : op.condition? p values = some c) : c.literals = values := by
  have hliterals : (values.map (.literal : AttributeValue → Operand String AttributeValue)).filterMap
      Operand.literal? = values := by
    rw [List.filterMap_map]
    exact List.filterMap_some
  rw [Condition.literals, operands_of_condition? h]
  exact hliterals

theorem condition_eq_ok_iff : op.condition name values = .ok c ↔
    op.Suits values ∧ op.condition? ⟨name, []⟩ values = some c := by
  rw [condition, Except.bind_eq_ok_iff]
  simp only [check_eq_ok_iff_suits, Except.elim_eq_ok_iff, exists_const]

theorem exists_condition_iff : (∃ c, op.condition name values = .ok c) ↔ op.Suits values := by
  constructor
  · rintro ⟨c, hc⟩
    exact (condition_eq_ok_iff.mp hc).1
  · intro h
    obtain ⟨c, hc⟩ := exists_condition?_iff (p := ⟨name, []⟩) |>.mpr h.1
    exact ⟨c, condition_eq_ok_iff.mpr ⟨h, hc⟩⟩

theorem operands_of_condition (h : op.condition name values = .ok c) :
    c.operands = .reference ⟨name, []⟩ :: values.map .literal :=
  operands_of_condition? (condition_eq_ok_iff.mp h).2

theorem literals_of_condition (h : op.condition name values = .ok c) : c.literals = values :=
  literals_of_condition? (condition_eq_ok_iff.mp h).2

end TableClient.ComparisonOperator
