import TableClient.Proofs.Expression.Expressible

/-!
# Key conditions

A key condition holds the partition key equal to a literal and may compare the sort key with
literals (`KeyCondition`). Three parts of the program look at the form of the sort condition: one
finds the attribute that it is about, one decides whether it compares this attribute in a way that
sort keys have, and one asks whether it has a written form. They agree on `SortCondition`: the
attribute that is found is the only one that such a condition is about, and it has a written form.
So the check that comes first decides alone, and what it refuses leaves no trace.
-/

namespace TableClient

variable {ν α : Type}

/-! ## The form of the parts -/

theorem Condition.partition?_eq_some_iff {c : Condition ν α} {key : ν} : c.partition? = some key ↔
    ∃ value, c = .compare (.reference ⟨key, []⟩) .eq (.literal value) := by
  constructor
  · intro h
    unfold partition? at h
    split at h
    · next left value =>
      rw [Operand.attribute?_eq_some_iff] at h
      exact ⟨value, by rw [h]⟩
    · cases h
  · rintro ⟨value, rfl⟩
    rfl

namespace SortCondition

variable {key : ν} {c : Condition ν α}

/-- The attribute that the condition is found to be about is its key. -/
theorem subject?_eq (h : SortCondition key c) : c.subject? = some key := by
  cases h <;> rfl

theorem expressible {key : String} {c : Condition String AttributeValue} (h : SortCondition key c) :
    c.Expressible := by
  cases h <;> rfl

/-- Other literals make a sort condition too. -/
theorem map (h : SortCondition key c) (g : α → α) : SortCondition key (c.map id g) := by
  cases h with
  | compare hop value => exact .compare hop (g value)
  | between low high => exact .between (g low) (g high)
  | beginsWith start => exact .beginsWith (g start)

end SortCondition

/-- The first condition is one of a partition key, the second one, if there is any, is one of
another attribute as sort key. -/
inductive KeyCondition : Condition ν α → Option (Condition ν α) → Prop
  | partition (hash : ν) (value : α) :
      KeyCondition (.compare (.reference ⟨hash, []⟩) .eq (.literal value)) none
  | sorted {hash range : ν} (value : α) (hne : range ≠ hash) {sort : Condition ν α}
      (hsort : SortCondition range sort) :
      KeyCondition (.compare (.reference ⟨hash, []⟩) .eq (.literal value)) (some sort)

theorem KeyCondition.map_sort {partition : Condition ν α} {sort : Option (Condition ν α)}
    (h : KeyCondition partition sort) (g : α → α) :
    KeyCondition partition (sort.map (Condition.map id g)) := by
  cases h with
  | partition hash value => exact .partition hash value
  | sorted value hne hsort => exact .sorted value hne (hsort.map g)

namespace Condition

variable {partition : Condition String AttributeValue}
  {sort : Option (Condition String AttributeValue)} {t u : PlaceholderTable} {text : String}

/-- The check of two conditions accepts the key conditions. -/
theorem checkKey_eq_ok_iff {x : Unit} :
    partition.checkKey sort = .ok x ↔ KeyCondition partition sort := by
  constructor
  · intro h
    unfold checkKey at h
    split at h
    · cases h
    · next hash hpartition =>
      obtain ⟨value, rfl⟩ := partition?_eq_some_iff.mp hpartition
      exact .partition hash value
    · next hash sort hpartition =>
      obtain ⟨value, rfl⟩ := partition?_eq_some_iff.mp hpartition
      split at h
      · cases h
      · next range hsubject =>
        by_cases hne : range = hash
        · rw [if_pos hne] at h
          cases h
        · rw [if_neg hne] at h
          by_cases hsort : sort.isSortCondition range = true
          · exact .sorted value hne (.of_isSortCondition hsort)
          · rw [if_neg hsort] at h
            cases h
  · intro h
    cases h with
    | partition => rfl
    | @sorted hash range value hne sort hsort =>
      have hpartition : partition? (.compare (.reference (⟨hash, []⟩ : Path String)) .eq
          (.literal value)) = some hash := rfl
      unfold checkKey
      simp only [hpartition, hsort.subject?_eq]
      rw [if_neg hne, if_pos hsort.isSortCondition]

/-- A conjunction is compiled from the left, and its parts stand in parentheses. -/
theorem compile_and (left right : Condition String AttributeValue) :
    (left.and right).compile = do
      let first ← left.compile
      let second ← right.compile
      return "(" ++ first ++ " AND " ++ second ++ ")" := by
  have hexpression (l r : Condition ℕ ℕ) : (Condition.logical .and l r).expression =
      "(" ++ l.expression ++ " AND " ++ r.expression ++ ")" := by
    have hname : " AND " = " " ++ Named.name LogicalOp.and ++ " " := rfl
    rw [hname, expression]
    simp only [String.append_assoc]
  simp only [compile, and, numbered, map_bind, map_pure, bind_map_left, hexpression]

theorem yields_compile_and_iff {left right : Condition String AttributeValue} :
    (left.and right).compile.Yields t text u ↔ ∃ first second v, left.compile.Yields t first v ∧
      right.compile.Yields v second u ∧ text = "(" ++ first ++ " AND " ++ second ++ ")" := by
  simp only [compile_and, Interning.yields_bind_iff, Interning.yields_pure_iff]
  constructor
  · rintro ⟨first, v, hfirst, second, _, hsecond, rfl, rfl⟩
    exact ⟨first, second, v, hfirst, hsecond, rfl⟩
  · rintro ⟨first, second, v, hfirst, hsecond, rfl⟩
    exact ⟨first, v, hfirst, second, u, hsecond, rfl, rfl⟩

/-- Both parts as one condition. -/
def withSort (partition : Condition String AttributeValue)
    (sort : Option (Condition String AttributeValue)) : Condition String AttributeValue :=
  sort.elim partition partition.and

/-- What is compiled behind the check is the conjunction of both parts. -/
theorem compileKey_eq : partition.compileKey sort =
    Interning.require ((partition.checkKey sort).mapError .invalidKeyCondition) >>=
      fun _ ↦ (partition.withSort sort).compile := by
  cases sort with
  | none => rfl
  | some sort =>
    rw [withSort, Option.elim_some, compile_and]
    rfl

theorem compile_of_compileKey (h : (partition.compileKey sort).Yields t text u) :
    (partition.withSort sort).compile.Yields t text u := by
  rw [compileKey_eq, Interning.yields_bind_iff] at h
  obtain ⟨_, _, hcheck, hcompile⟩ := h
  obtain ⟨-, rfl⟩ := Interning.yields_require_iff.mp hcheck
  exact hcompile

theorem expressible_of_checkKey {x : Unit}
    (h : (partition.checkKey sort).mapError ExpressionError.invalidKeyCondition = .ok x) :
    (partition.withSort sort).Expressible := by
  cases checkKey_eq_ok_iff.mp (Except.mapError_eq_ok_iff.mp h) with
  | partition => rfl
  | sorted value hne hsort => exact ⟨rfl, hsort.expressible⟩

/-- Behind the check nothing fails. -/
theorem total_of_checkKey {x : Unit}
    (h : (partition.checkKey sort).mapError ExpressionError.invalidKeyCondition = .ok x) :
    Interning.Total (partition.withSort sort).compile :=
  total_compile (expressible_of_checkKey h)

theorem exists_compileKey_iff :
    (∃ text u, (partition.compileKey sort).Yields t text u) ↔ KeyCondition partition sort := by
  rw [compileKey_eq, Interning.exists_yields_checked_iff fun _ ↦ total_of_checkKey]
  simp only [Except.mapError_eq_ok_iff, checkKey_eq_ok_iff, exists_const]

end Condition

/-- The attribute of the partition is not the one that the sort condition compares. -/
theorem KeyCondition.iff_isSortCondition {partition : Condition String AttributeValue}
    {sort : Option (Condition String AttributeValue)} : KeyCondition partition sort ↔
      ∃ hash value, partition = .compare (.reference ⟨hash, []⟩) .eq (.literal value) ∧
        ∀ c, sort = some c → ∃ range, range ≠ hash ∧ c.isSortCondition range = true := by
  constructor
  · intro h
    cases h with
    | partition hash value => exact ⟨hash, value, rfl, fun c hc ↦ by cases hc⟩
    | @sorted hash range value hne sort hsort =>
      refine ⟨hash, value, rfl, fun c hc ↦ ⟨range, hne, ?_⟩⟩
      obtain rfl := Option.some.inj hc
      exact hsort.isSortCondition
  · rintro ⟨hash, value, rfl, h⟩
    cases sort with
    | none => exact .partition hash value
    | some c =>
      obtain ⟨range, hne, hsort⟩ := h c rfl
      exact .sorted value hne (.of_isSortCondition hsort)

/-- **Key conditions.** Two conditions are compiled as a key condition exactly if the first one
holds an attribute equal to a literal and the second one, if there is any, is a sort condition on
another attribute. The expression is the one of their conjunction: the partition first, then what is
interned after it. Everything else is refused by the check, with the table as it was. An entry of a
map of key conditions is read as a sort condition on its attribute. -/
theorem key_condition_compiled_iff_well_formed (partition : Condition String AttributeValue)
    (sort : Option (Condition String AttributeValue)) (t : PlaceholderTable) :
    ((∃ text u, (partition.compileKey sort).Yields t text u) ↔
      ∃ hash value, partition = .compare (.reference ⟨hash, []⟩) .eq (.literal value) ∧
        ∀ c, sort = some c → ∃ range, range ≠ hash ∧ c.isSortCondition range = true) ∧
    (∀ text u, (partition.compileKey sort).Yields t text u →
      (sort = none → partition.compile.Yields t text u) ∧
      ∀ c, sort = some c → (partition.and c).compile.Yields t text u ∧
        ∃ first second v, partition.compile.Yields t first v ∧ c.compile.Yields v second u ∧
          text = "(" ++ first ++ " AND " ++ second ++ ")") ∧
    (∀ e u, (partition.compileKey sort).outcome t = (.error e, u) →
      u = t ∧ ∃ fault, partition.checkKey sort = .error fault ∧ e = .invalidKeyCondition fault) ∧
    ∀ (range : String) (entry : ConditionEntry) (c : Condition String AttributeValue),
      entry.keyCondition range = .ok c → c.isSortCondition range = true := by
  refine ⟨?_, ?_, ?_, ?_⟩
  · rw [Condition.exists_compileKey_iff, KeyCondition.iff_isSortCondition]
  · intro text u h
    have hcompile := Condition.compile_of_compileKey h
    refine ⟨?_, ?_⟩
    · rintro rfl
      exact hcompile
    · rintro c rfl
      exact ⟨hcompile, Condition.yields_compile_and_iff.mp hcompile⟩
  · intro e u h
    rw [Condition.compileKey_eq,
      Interning.outcome_checked_eq_error_iff fun _ ↦ Condition.total_of_checkKey] at h
    obtain ⟨hcheck, rfl⟩ := h
    obtain ⟨fault, hfault, rfl⟩ := Except.mapError_eq_error_iff.mp hcheck
    exact ⟨rfl, fault, hfault, rfl⟩
  · intro range entry c h
    exact (SortCondition.of_keyCondition h).isSortCondition

/-- A beginning of the sort key is compiled after the partition, whose name comes second in a table
that knows the sort key. The size of the sort key is refused without a trace. -/
theorem key_conditions_on_subject :
    let forum : Condition String AttributeValue := Path.equals ⟨"forum", []⟩ (.string "f")
    let early : Condition String AttributeValue :=
      Path.beginsWith ⟨"subject", []⟩ (.literal (.string "a"))
    let short : Condition String AttributeValue :=
      .compare (.size ⟨"subject", []⟩) .lt (.literal (.number "9"))
    (∃ first second v, forum.compile.Yields ⟨["subject"], []⟩ first v ∧
      early.compile.Yields v second ⟨["subject", "forum"], [.string "f", .string "a"]⟩ ∧
      "(#1 = :0 AND begins_with (#0, :1))" = "(" ++ first ++ " AND " ++ second ++ ")") ∧
    (∃ fault, forum.checkKey (some short) = .error fault ∧
      (forum.compileKey (some short)).outcome ⟨["subject"], []⟩ =
        (.error (.invalidKeyCondition fault), ⟨["subject"], []⟩)) ∧
    (Path.compare ⟨"subject", []⟩ .ge (.string "b") :
      Condition String AttributeValue).isSortCondition "subject" = true := by
  intro forum early short
  refine ⟨?_, ?_, ?_⟩
  · have hcompile : (forum.compileKey (some early)).Yields ⟨["subject"], []⟩
        "(#1 = :0 AND begins_with (#0, :1))"
        ⟨["subject", "forum"], [.string "f", .string "a"]⟩ := rfl
    obtain ⟨-, hparts, -, -⟩ :=
      key_condition_compiled_iff_well_formed forum (some early) ⟨["subject"], []⟩
    exact ((hparts _ _ hcompile).2 early rfl).2
  · have houtcome : (forum.compileKey (some short)).outcome ⟨["subject"], []⟩ =
        (.error (.invalidKeyCondition .sortNotOnAttribute), ⟨["subject"], []⟩) := rfl
    obtain ⟨-, -, hrefused, -⟩ :=
      key_condition_compiled_iff_well_formed forum (some short) ⟨["subject"], []⟩
    obtain ⟨-, fault, hfault, heq⟩ := hrefused _ _ houtcome
    exact ⟨fault, hfault, heq ▸ houtcome⟩
  · obtain ⟨-, -, -, hentry⟩ := key_condition_compiled_iff_well_formed forum none {}
    exact hentry "subject" ⟨.ge, [.string "b"]⟩ _ rfl

end TableClient
