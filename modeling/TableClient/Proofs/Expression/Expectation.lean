import TableClient.Proofs.Expression.Comparison

/-!
# The operands of expectations

An expectation is written in one of two forms, each with its own operands: the simple form has a
value, the extended form a comparison and a list (`ExpectedEntry.WellFormed`). A map of expectations
is one condition whose literals are the operands of its entries.

## Stray operands

The list of an entry without a comparison is not looked at. Next to a value or an existence the
entry is accepted as if the list were empty, and its operands are lost (`ExpectedEntry.heeded`);
everything else that is accepted keeps all operands.
-/

namespace TableClient

namespace ExpectedEntry

/-- The operands that the entry supplies. -/
def operands (entry : ExpectedEntry) : List AttributeValue :=
  entry.value.toList ++ entry.attributeValueList

/-- Parts of the simple and of the extended form stand in one entry. -/
def Mixes (entry : ExpectedEntry) : Prop :=
  (entry.value.isSome = true ∨ entry.present.isSome = true) ∧
    (entry.comparisonOperator.isSome = true ∨ entry.attributeValueList ≠ [])

/-- The entry has one of the two forms, with operands that can be used: no value is expected of an
attribute that shall not exist, and a comparison takes its operands. -/
inductive WellFormed : ExpectedEntry → Prop
  | value (value : AttributeValue) : WellFormed { value := some value }
  | presentValue (value : AttributeValue) :
      WellFormed { value := some value, present := some true }
  | existence (present : Bool) : WellFormed { present := some present }
  | comparison {op : ComparisonOperator} {values : List AttributeValue} (h : op.Suits values) :
      WellFormed { comparisonOperator := some op, attributeValueList := values }

/-- There are operands in a list and no comparison for them. -/
def HasStrayOperands (entry : ExpectedEntry) : Prop :=
  entry.comparisonOperator = none ∧ entry.attributeValueList ≠ []

/-- The entry without its stray operands. -/
def heeded (entry : ExpectedEntry) : ExpectedEntry :=
  if entry.comparisonOperator.isSome then entry else { entry with attributeValueList := [] }

variable {entry : ExpectedEntry} {name : String} {c : Condition String AttributeValue}

theorem WellFormed.not_mixes (h : entry.WellFormed) : ¬ entry.Mixes := by
  cases h <;> simp [Mixes]

theorem WellFormed.not_hasStrayOperands (h : entry.WellFormed) : ¬ entry.HasStrayOperands := by
  cases h <;> simp [HasStrayOperands]

theorem heeded_of_comparison {op : ComparisonOperator} (h : entry.comparisonOperator = some op) :
    entry.heeded = entry := by
  rw [heeded, h, Option.isSome_some, if_pos rfl]

theorem heeded_of_none (h : entry.comparisonOperator = none) :
    entry.heeded = { entry with attributeValueList := [] } := by
  rw [heeded, h, Option.isSome_none, if_neg Bool.false_ne_true]

theorem heeded_eq_self (h : ¬ entry.HasStrayOperands) : entry.heeded = entry := by
  cases hop : entry.comparisonOperator with
  | some op => exact heeded_of_comparison hop
  | none =>
    have hlist : entry.attributeValueList = [] := not_not.mp fun hne ↦ h ⟨hop, hne⟩
    rw [heeded_of_none hop, ← hlist]

theorem operands_heeded_eq_iff : entry.heeded.operands = entry.operands ↔
    ¬ entry.HasStrayOperands := by
  constructor
  · rintro heq ⟨hop, hne⟩
    rw [heeded_of_none hop] at heq
    exact hne (List.append_cancel_left heq).symm
  · intro h
    rw [heeded_eq_self h]

/-! ## The condition of an entry -/

/-- Stray operands make no difference. -/
theorem condition_heeded : entry.heeded.condition name = entry.condition name := by
  cases hop : entry.comparisonOperator with
  | some op => rw [heeded_of_comparison hop]
  | none => rw [heeded_of_none hop, condition, condition, hop]

/-- An accepted entry without stray operands has one of the two forms, and its operands are the
literals of its condition. -/
theorem wellFormed_of_condition (hstray : ¬ entry.HasStrayOperands)
    (h : entry.condition name = .ok c) : entry.WellFormed ∧ c.literals = entry.operands := by
  obtain ⟨value, present, op, values⟩ := entry
  rw [condition] at h
  cases op with
  | some op =>
    dsimp only at h
    split at h
    · cases h
    · next hsimple =>
      obtain ⟨rfl, rfl⟩ : value = none ∧ present = none := by simpa using hsimple
      refine ⟨.comparison (ComparisonOperator.condition_eq_ok_iff.mp h).1, ?_⟩
      exact ComparisonOperator.literals_of_condition h
  | none =>
    obtain rfl : values = [] := not_not.mp fun hne ↦ hstray ⟨rfl, hne⟩
    rcases present with _ | _ | _ <;> rcases value with _ | value
    all_goals cases h
    · exact ⟨.value value, rfl⟩
    · exact ⟨.existence false, rfl⟩
    · exact ⟨.existence true, rfl⟩
    · exact ⟨.presentValue value, rfl⟩

theorem WellFormed.exists_condition (h : entry.WellFormed) (name : String) :
    ∃ c, entry.condition name = .ok c := by
  cases h with
  | value | presentValue => exact ⟨_, rfl⟩
  | existence present => cases present <;> exact ⟨_, rfl⟩
  | comparison h => exact ComparisonOperator.exists_condition_iff.mpr h

theorem not_hasStrayOperands_heeded : ¬ entry.heeded.HasStrayOperands := by
  cases hop : entry.comparisonOperator with
  | some op =>
    rw [heeded_of_comparison hop]
    rintro ⟨hnone, -⟩
    cases hop.symm.trans hnone
  | none =>
    rw [heeded_of_none hop]
    exact fun hstray ↦ hstray.2 rfl

theorem exists_condition_iff : (∃ c, entry.condition name = .ok c) ↔ entry.heeded.WellFormed := by
  rw [← condition_heeded]
  constructor
  · rintro ⟨c, hc⟩
    exact (wellFormed_of_condition not_hasStrayOperands_heeded hc).1
  · intro h
    exact h.exists_condition name

theorem literals_of_condition (h : entry.condition name = .ok c) :
    c.literals = entry.heeded.operands := by
  rw [← condition_heeded] at h
  exact (wellFormed_of_condition not_hasStrayOperands_heeded h).2

end ExpectedEntry

/-! ## The condition of a map -/

namespace Condition

theorem literals_foldl {join : Condition String AttributeValue → Condition String AttributeValue →
      Condition String AttributeValue}
    (hjoin : ∀ left right, (join left right).literals = left.literals ++ right.literals)
    (c : Condition String AttributeValue) (cs : List (Condition String AttributeValue)) :
    (cs.foldl join c).literals = c.literals ++ cs.flatMap literals := by
  induction cs generalizing c with
  | nil => simp
  | cons next cs ih => rw [List.foldl_cons, ih, hjoin, List.flatMap_cons, List.append_assoc]

/-- Joined conditions keep their literals. -/
theorem literals_join (op : Option ConditionalOperator)
    (cs : List (Condition String AttributeValue)) :
    (join op cs).elim [] literals = cs.flatMap literals := by
  cases cs with
  | nil => rfl
  | cons c cs =>
    refine literals_foldl (fun left right ↦ ?_) c cs
    split <;> exact List.filterMap_append

theorem ofExpected_eq_ok_iff {expected : Dict ExpectedEntry} {op : Option ConditionalOperator}
    {c : Option (Condition String AttributeValue)} :
    ofExpected expected op = .ok c ↔ ∃ own, List.Forall₂
      (fun entry condition ↦ ExpectedEntry.condition entry.1 entry.2 = .ok condition) expected own ∧
        join op own = c := by
  rw [ofExpected, Except.map_eq_ok_iff]
  simp only [Except.mapM_eq_ok_iff]

theorem exists_ofExpected_iff {expected : Dict ExpectedEntry} {op : Option ConditionalOperator} :
    (∃ c, ofExpected expected op = .ok c) ↔ ∀ entry ∈ expected, entry.2.heeded.WellFormed := by
  constructor
  · rintro ⟨c, hc⟩ entry hmem
    obtain ⟨own, hown, -⟩ := Except.map_eq_ok_iff.mp hc
    exact ExpectedEntry.exists_condition_iff.mp
      (Except.exists_mapM_eq_ok_iff.mp ⟨own, hown⟩ entry hmem)
  · intro h
    obtain ⟨own, hown⟩ := Except.exists_mapM_eq_ok_iff.mpr fun entry hmem ↦
      ExpectedEntry.exists_condition_iff.mpr (h entry hmem)
    exact ⟨_, Except.map_eq_ok_iff.mpr ⟨own, hown, rfl⟩⟩

end Condition

/-- **Operands of expectations.** A map is accepted exactly if its entries are in one of the two
forms once their stray operands are left out. Its condition joins those of the entries, and the
literals of each are the operands of its entry without the stray ones, each once and in order: all
operands of an entry are kept exactly if none is stray. So all entries have one of the two forms
exactly if the map is accepted and no operand is stray, and apart from stray operands no entry that
mixes the forms is accepted. -/
theorem expected_operands_kept_unless_stray (expected : Dict ExpectedEntry)
    (op : Option ConditionalOperator) :
    ((∃ c, Condition.ofExpected expected op = .ok c) ↔
      ∀ entry ∈ expected, entry.2.heeded.WellFormed) ∧
    (∀ c, Condition.ofExpected expected op = .ok c →
      ∃ own, c = Condition.join op own ∧
        c.elim [] Condition.literals = own.flatMap Condition.literals ∧
        List.Forall₂ (fun entry condition ↦ entry.2.condition entry.1 = .ok condition ∧
          condition.literals = entry.2.heeded.operands ∧
          (condition.literals = entry.2.operands ↔ ¬ entry.2.HasStrayOperands)) expected own) ∧
    ((∀ entry ∈ expected, entry.2.WellFormed) ↔
      (∃ c, Condition.ofExpected expected op = .ok c) ∧
        ∀ entry ∈ expected, ¬ entry.2.HasStrayOperands) ∧
    ∀ entry ∈ expected, entry.2.Mixes → ¬ entry.2.HasStrayOperands →
      ∀ c, Condition.ofExpected expected op ≠ .ok c := by
  refine ⟨Condition.exists_ofExpected_iff, ?_, ?_, ?_⟩
  · intro c hc
    obtain ⟨own, hown, rfl⟩ := Condition.ofExpected_eq_ok_iff.mp hc
    refine ⟨own, rfl, Condition.literals_join op own, hown.imp fun entry condition h ↦ ?_⟩
    have hliterals := ExpectedEntry.literals_of_condition h
    exact ⟨h, hliterals, by rw [hliterals, ExpectedEntry.operands_heeded_eq_iff]⟩
  · rw [Condition.exists_ofExpected_iff]
    constructor
    · intro h
      refine ⟨fun entry hmem ↦ ?_, fun entry hmem ↦ (h entry hmem).not_hasStrayOperands⟩
      rw [ExpectedEntry.heeded_eq_self (h entry hmem).not_hasStrayOperands]
      exact h entry hmem
    · rintro ⟨h, hstray⟩ entry hmem
      rw [← ExpectedEntry.heeded_eq_self (hstray entry hmem)]
      exact h entry hmem
  · intro entry hmem hmixes hstray c hc
    have hform := Condition.exists_ofExpected_iff.mp ⟨c, hc⟩ entry hmem
    rw [ExpectedEntry.heeded_eq_self hstray] at hform
    exact hform.not_mixes hmixes

/-- A list next to a value and a list next to an existence are lost. -/
theorem expected_list_without_comparison_lost :
    let value : ExpectedEntry :=
      { value := some (.string "x"), attributeValueList := [.string "y"] }
    let absent : ExpectedEntry := { present := some false, attributeValueList := [.string "y"] }
    let equal : Condition String AttributeValue := (⟨"A", []⟩ : Path String).equals (.string "x")
    let missing : Condition String AttributeValue := Path.missing ⟨"A", []⟩
    value.Mixes ∧ Condition.ofExpected [("A", value)] none = .ok (some equal) ∧
      equal.literals ≠ value.operands ∧
      absent.Mixes ∧ Condition.ofExpected [("A", absent)] none = .ok (some missing) ∧
      missing.literals ≠ absent.operands := by
  refine ⟨⟨.inl rfl, .inr (List.cons_ne_nil _ _)⟩, rfl, by decide,
    ⟨.inr rfl, .inr (List.cons_ne_nil _ _)⟩, rfl, by decide⟩

/-- A value that is said to exist and a range keep their three operands, and next to them an entry
with a value and a comparison is refused. -/
theorem expected_value_and_range_kept :
    let expected : Dict ExpectedEntry :=
      [("A", { value := some (.string "x"), present := some true }),
        ("B", { comparisonOperator := some .between,
                attributeValueList := [.number "1", .number "2"] })]
    let mixed : ExpectedEntry :=
      { value := some (.string "x"), comparisonOperator := some .eq,
        attributeValueList := [.string "x"] }
    (∃ first second, Condition.ofExpected expected (some .or) = .ok (some (.or first second)) ∧
      first.literals = [.string "x"] ∧ second.literals = [.number "1", .number "2"]) ∧
    ∀ c, Condition.ofExpected (expected ++ [("C", mixed)]) (some .or) ≠ .ok c := by
  intro expected mixed
  constructor
  · obtain ⟨own, hjoin, -, hown⟩ :=
      (expected_operands_kept_unless_stray expected (some .or)).2.1 _ rfl
    obtain ⟨first, _, ⟨-, hfirst, -⟩, hrest, rfl⟩ := List.forall₂_cons_left_iff.mp hown
    obtain ⟨second, _, ⟨-, hsecond, -⟩, hnil, rfl⟩ := List.forall₂_cons_left_iff.mp hrest
    obtain rfl := List.forall₂_nil_left_iff.mp hnil
    exact ⟨first, second, congrArg Except.ok hjoin, hfirst, hsecond⟩
  · obtain ⟨-, -, -, hmixed⟩ :=
      expected_operands_kept_unless_stray (expected ++ [("C", mixed)]) (some .or)
    apply hmixed ("C", mixed) (List.mem_append_right _ (.head _))
    · exact ⟨.inl rfl, .inl rfl⟩
    · rintro ⟨hnone, -⟩
      cases hnone

end TableClient
