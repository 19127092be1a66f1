import TableClient.Proofs.Expression.Acceptance
import TableClient.Proofs.Expression.Entries
import TableClient.Proofs.Expression.Comparison

/-!
# Maps have expressions

The readers of maps and the compiler check operands apart from each other. They agree: a comparison
that has passed its check reads only operands that are there and gives a node that has a written
form, and joining keeps that. So whatever is read from a filter, from expectations or from a map of
key conditions is compiled, on every table.

A map of changes names each attribute once, so no two of its actions exclude each other. What the
compiler can still refuse are its values, and the map without entries (`UpdateEntry.Refusal`).
-/

namespace TableClient

open Interning (Total)

/-! ## Conditions -/

namespace ComparisonOperator

variable {op : ComparisonOperator} {p : Path String} {name : String}
  {values : List AttributeValue} {c : Condition String AttributeValue}

theorem expressible_of_condition? (h : op.condition? p values = some c) : c.Expressible := by
  cases op with
  | null | notNull | isIn =>
    rcases values with _ | ⟨x, rest⟩
    all_goals cases h
    rfl
  | between =>
    rcases values with _ | ⟨x, _ | ⟨y, _ | ⟨z, rest⟩⟩⟩
    all_goals cases h
    rfl
  | eq | ne | le | lt | ge | gt | contains | notContains | beginsWith =>
    rcases values with _ | ⟨x, _ | ⟨y, rest⟩⟩
    all_goals cases h
    rfl

theorem expressible_of_condition (h : op.condition name values = .ok c) : c.Expressible :=
  expressible_of_condition? (condition_eq_ok_iff.mp h).2

/-- No operand is missing once the check has passed. -/
theorem exists_condition?_of_check (h : op.check values = .ok ()) :
    ∃ c, op.condition? p values = some c :=
  exists_condition?_iff.mpr (check_eq_ok_iff_suits.mp h).1

theorem condition_eq_error_iff {e : ExpressionError} :
    op.condition name values = .error e ↔ op.check values = .error e := by
  rw [condition, Except.bind_eq_error_iff]
  constructor
  · rintro (h | ⟨_, hcheck, h⟩)
    · exact h
    · obtain ⟨c, hc⟩ := exists_condition?_of_check (p := ⟨name, []⟩) hcheck
      rw [hc] at h
      cases h
  · exact .inl

end ComparisonOperator

theorem ConditionEntry.condition_of_keyCondition {entry : ConditionEntry} {name : String}
    {c : Condition String AttributeValue} (h : entry.keyCondition name = .ok c) :
    entry.condition name = .ok c := by
  rw [keyCondition] at h
  split at h
  · exact h
  · cases h

theorem ExpectedEntry.expressible_of_condition {entry : ExpectedEntry} {name : String}
    {c : Condition String AttributeValue} (h : entry.condition name = .ok c) : c.Expressible := by
  obtain ⟨value, present, op, values⟩ := entry
  rw [condition] at h
  cases op with
  | some op =>
    dsimp only at h
    split at h
    · cases h
    · exact ComparisonOperator.expressible_of_condition h
  | none =>
    rcases present with _ | _ | _ <;> rcases value with _ | value
    all_goals cases h
    all_goals rfl

namespace Condition

variable {c : Condition String AttributeValue}

theorem LeftJoined.expressible {op : LogicalOp} {cs : List (Condition String AttributeValue)}
    (h : LeftJoined op cs c) (hparts : ∀ part ∈ cs, part.Expressible) : c.Expressible := by
  induction h with
  | single c => exact List.forall_mem_singleton.mp hparts
  | next _ last ih =>
    obtain ⟨hbefore, hlast⟩ := List.forall_mem_append.mp hparts
    exact ⟨ih hbefore, List.forall_mem_singleton.mp hlast⟩

/-- What is read entry by entry is expressible if each entry's own condition is. -/
theorem expressible_of_mapM {α : Type}
    {own : String × α → Except ExpressionError (Condition String AttributeValue)}
    {entries : List (String × α)} {op : Option ConditionalOperator}
    (hown : ∀ entry part, own entry = .ok part → part.Expressible)
    (h : (entries.mapM own).map (join op) = .ok (some c)) : c.Expressible := by
  obtain ⟨parts, hparts, hjoin⟩ := Except.map_eq_ok_iff.mp h
  refine (join_eq_some_iff.mp hjoin).expressible fun part hpart ↦ ?_
  obtain ⟨entry, -, hentry⟩ := (Except.mem_iff_of_mapM_eq_ok hparts).mp hpart
  exact hown entry part hentry

end Condition

/-! ## Changes -/

/-- Why the compiler refuses what a map of changes says: the map has no entries, something is added
that is neither a number nor a set, or something is deleted that is no set. -/
inductive UpdateEntry.Refusal (updates : Dict UpdateEntry) : ExpressionError → Prop
  | empty (h : updates = []) : Refusal updates .emptyUpdate
  | notAddable {name : String} {value : AttributeValue}
      (h : (name, { value := some value, action := some .add }) ∈ updates)
      (hnumber : value.isNumber = false) (hset : value.isSet = false) :
      Refusal updates (.invalidOperand (.notAddable value.tag))
  | notASet {name : String} {value : AttributeValue}
      (h : (name, { value := some value, action := some .delete }) ∈ updates)
      (hset : value.isSet = false) : Refusal updates (.invalidOperand (.notASet value.tag))

namespace UpdateAction

variable {updates : Dict UpdateEntry} {actions : List (UpdateAction String AttributeValue)}
  {e : ExpressionError}

theorem mem_iff_of_ofMap (h : ofMap updates = .ok actions)
    {action : UpdateAction String AttributeValue} :
    action ∈ actions ↔ ∃ entry ∈ updates, entry.2.Means entry.1 action := by
  rw [Except.mem_iff_of_mapM_eq_ok h]
  simp only [UpdateEntry.updateAction_eq_ok_iff]

/-- One name has one entry, which adds or deletes but not both. -/
theorem apart_of_ofMap (hnames : updates.names.Nodup) (h : ofMap updates = .ok actions)
    (path : Path String) (value value' : AttributeValue) (hadd : .add path value ∈ actions) :
    .delete path value' ∉ actions := by
  intro hdelete
  obtain ⟨⟨name, entry⟩, hentry, hmeans⟩ := (mem_iff_of_ofMap h).mp hadd
  obtain ⟨⟨name', entry'⟩, hentry', hmeans'⟩ := (mem_iff_of_ofMap h).mp hdelete
  cases hmeans
  cases hmeans'
  have hsame := (Dict.get?_eq_some_iff hnames).mpr hentry'
  rw [(Dict.get?_eq_some_iff hnames).mpr hentry] at hsame
  cases hsame

theorem refusal_of_checkValue (h : ofMap updates = .ok actions)
    {action : UpdateAction String AttributeValue} (hmem : action ∈ actions)
    (hfails : action.checkValue = .error e) : UpdateEntry.Refusal updates e := by
  obtain ⟨⟨name, entry⟩, hentry, hmeans⟩ := (mem_iff_of_ofMap h).mp hmem
  cases hmeans with
  | replace | put | remove => cases hfails
  | add value =>
    rw [checkValue] at hfails
    split at hfails
    · cases hfails
    · next hvalue =>
      cases hfails
      obtain ⟨hset, hnumber⟩ := Bool.or_eq_false_iff.mp (Bool.eq_false_iff.mpr hvalue)
      exact .notAddable hentry hnumber hset
  | delete value =>
    rw [checkValue] at hfails
    split at hfails
    · cases hfails
    · next hvalue =>
      cases hfails
      exact .notASet hentry (Bool.eq_false_iff.mpr hvalue)

theorem refusal_of_check (hnames : updates.names.Nodup) (h : ofMap updates = .ok actions)
    (hcheck : check actions = .error e) : UpdateEntry.Refusal updates e := by
  rw [check] at hcheck
  split at hcheck
  · next hempty =>
    cases hcheck
    exact .empty ((Except.eq_nil_iff_of_mapM_eq_ok h).mp (List.isEmpty_iff.mp hempty))
  · rcases exists_of_checkFrom_eq_error hcheck with
      ⟨action, hmem, hfails⟩ | ⟨action, hmem, other, hother, hclash⟩
    · exact refusal_of_checkValue h hmem hfails
    · have hnone := forall_clashes_iff.mpr (apart_of_ofMap hnames h) action hmem other hother
      cases hclash.symm.trans hnone

theorem acceptable_iff_of_ofMap (hnames : updates.names.Nodup) (h : ofMap updates = .ok actions) :
    Acceptable actions ↔ ∀ e, ¬ UpdateEntry.Refusal updates e := by
  constructor
  · intro hactions e hrefusal
    cases hrefusal with
    | empty hempty => exact hactions.nonempty ((Except.eq_nil_iff_of_mapM_eq_ok h).mpr hempty)
    | notAddable hentry hnumber hset =>
      have hmem := (mem_iff_of_ofMap h).mpr ⟨_, hentry, .add _⟩
      rcases hactions.suits _ hmem with hvalue | hvalue
      · cases hvalue.symm.trans hnumber
      · cases hvalue.symm.trans hset
    | notASet hentry hset =>
      have hmem := (mem_iff_of_ofMap h).mpr ⟨_, hentry, .delete _⟩
      cases (hactions.suits _ hmem : _ = true).symm.trans hset
  · intro hnone
    rcases hcheck : check actions with e | u
    · exact absurd (refusal_of_check hnames h hcheck) (hnone e)
    · exact check_eq_ok_iff.mp hcheck

end UpdateAction

/-- **Maps are compiled.** Once the operands of a comparison are checked, none is missing: the
comparison fails only as its check does, and else looks at the attribute and at each operand once, in
order. What is read from a comparison, a key condition, a filter or expectations is compiled on every
table. The changes of a map are compiled unless the map has no entries, adds something that is neither
a number nor a set, or deletes something that is no set. They are refused for one of these reasons,
and never because two of them exclude each other. -/
theorem maps_compiled_as_read :
    (∀ (op : ComparisonOperator) (name : String) (values : List AttributeValue),
      (op.check values = .ok () → ∃ c, op.condition? ⟨name, []⟩ values = some c ∧
        op.condition name values = .ok c) ∧
      (∀ e, op.condition name values = .error e ↔ op.check values = .error e) ∧
      ∀ c, op.condition name values = .ok c →
        c.operands = .reference ⟨name, []⟩ :: values.map .literal ∧
        ∀ t, ∃ text u, c.compile.Yields t text u) ∧
    (∀ (entry : ConditionEntry) (name : String) (c : Condition String AttributeValue),
      entry.keyCondition name = .ok c →
        c.operands = .reference ⟨name, []⟩ :: entry.attributeValueList.map .literal ∧
        ∀ t, ∃ text u, c.compile.Yields t text u) ∧
    (∀ (filter : Dict ConditionEntry) (op : Option ConditionalOperator)
      (c : Condition String AttributeValue), Condition.ofFilter filter op = .ok (some c) →
        ∀ t, ∃ text u, c.compile.Yields t text u) ∧
    (∀ (expected : Dict ExpectedEntry) (op : Option ConditionalOperator)
      (c : Condition String AttributeValue), Condition.ofExpected expected op = .ok (some c) →
        ∀ t, ∃ text u, c.compile.Yields t text u) ∧
    ∀ (updates : Dict UpdateEntry) (actions : List (UpdateAction String AttributeValue)),
      updates.names.Nodup → UpdateAction.ofMap updates = .ok actions → ∀ t,
        ((∃ text u, (UpdateAction.compile actions).Yields t text u) ↔
          ∀ e, ¬ UpdateEntry.Refusal updates e) ∧
        ∀ e u, (UpdateAction.compile actions).outcome t = (.error e, u) →
          u = t ∧ UpdateEntry.Refusal updates e ∧
            ∀ path earlier later, e ≠ .conflictingActions path earlier later := by
  refine ⟨fun op name values ↦ ⟨fun hcheck ↦ ?_, fun e ↦ ComparisonOperator.condition_eq_error_iff,
    fun c hc ↦ ?_⟩, fun entry name c hc ↦ ?_, fun filter op c hc ↦ ?_, fun expected op c hc ↦ ?_,
    fun updates actions hnames hactions t ↦ ⟨?_, fun e u hfails ↦ ?_⟩⟩
  · obtain ⟨c, hc⟩ := ComparisonOperator.exists_condition?_of_check (p := ⟨name, []⟩) hcheck
    have hsuits := ComparisonOperator.check_eq_ok_iff_suits.mp hcheck
    exact ⟨c, hc, ComparisonOperator.condition_eq_ok_iff.mpr ⟨hsuits, hc⟩⟩
  · exact ⟨ComparisonOperator.operands_of_condition hc,
      Condition.total_compile (ComparisonOperator.expressible_of_condition hc)⟩
  · have hcondition := entry.condition_of_keyCondition hc
    exact ⟨ComparisonOperator.operands_of_condition hcondition,
      Condition.total_compile (ComparisonOperator.expressible_of_condition hcondition)⟩
  · exact Condition.total_compile (Condition.expressible_of_mapM
      (fun _ _ hentry ↦ ComparisonOperator.expressible_of_condition hentry) hc)
  · exact Condition.total_compile (Condition.expressible_of_mapM
      (fun _ _ hentry ↦ ExpectedEntry.expressible_of_condition hentry) hc)
  · rw [UpdateAction.exists_compile_iff, UpdateAction.acceptable_iff_of_ofMap hnames hactions]
  · rw [UpdateAction.compile, Interning.outcome_checked_eq_error_iff fun _ _ ↦
      UpdateAction.total_updateText actions] at hfails
    have hrefusal := UpdateAction.refusal_of_check hnames hactions hfails.1
    refine ⟨hfails.2, hrefusal, ?_⟩
    rintro path earlier later rfl
    cases hrefusal

/-- A membership with an operand given twice, a range of a key, a filter and an expectation; a map
that adds and deletes, and an addition of a text. -/
theorem maps_of_each_kind_compiled :
    let values : List AttributeValue := [.string "x", .number "1", .string "x"]
    let range : ConditionEntry := ⟨.between, [.number "1", .number "2"]⟩
    let filter : Dict ConditionEntry := [("A", ⟨.null, []⟩), ("B", ⟨.isIn, values⟩)]
    let expected : Dict ExpectedEntry := [("A", { present := some false })]
    let updates : Dict UpdateEntry := [("A", { value := some (.number "1"), action := some .add }),
      ("B", { value := some (.stringSet ["x"]), action := some .delete })]
    let unsuited : Dict UpdateEntry := [("A", { value := some (.string "x"), action := some .add })]
    (∃ c, ComparisonOperator.condition .isIn "A" values = .ok c ∧
      c.operands = .reference ⟨"A", []⟩ :: values.map .literal ∧
      ∃ text u, c.compile.Yields ⟨["B"], []⟩ text u) ∧
    (∃ c, range.keyCondition "A" = .ok c ∧
      ∃ text u, c.compile.Yields ⟨[], []⟩ text u) ∧
    (∃ c, Condition.ofFilter filter (some .or) = .ok (some c) ∧
      ∃ text u, c.compile.Yields ⟨[], []⟩ text u) ∧
    (∃ c, Condition.ofExpected expected none = .ok (some c) ∧
      ∃ text u, c.compile.Yields ⟨[], []⟩ text u) ∧
    (∃ actions, UpdateAction.ofMap updates = .ok actions ∧
      ∃ text u, (UpdateAction.compile actions).Yields ⟨[], []⟩ text u) ∧
    UpdateEntry.Refusal unsuited (.invalidOperand (.notAddable .s)) := by
  intro values range filter expected updates unsuited
  obtain ⟨hcomparison, hkey, hfilter, hexpected, hupdates⟩ := maps_compiled_as_read
  obtain ⟨hread, -, hcompiled⟩ := hcomparison .isIn "A" values
  obtain ⟨c, -, hc⟩ := hread (by rfl)
  obtain ⟨hoperands, htotal⟩ := hcompiled c hc
  obtain ⟨actions, hactions⟩ : ∃ actions, UpdateAction.ofMap updates = .ok actions := ⟨_, rfl⟩
  obtain ⟨haccepted, -⟩ := hupdates updates actions (by decide) hactions ⟨[], []⟩
  have hunsuited : UpdateAction.ofMap unsuited = .ok [.add ⟨"A", []⟩ (.string "x")] := by rfl
  obtain ⟨-, hrefused⟩ := hupdates unsuited _ (by decide) hunsuited ⟨[], []⟩
  refine ⟨⟨c, hc, hoperands, htotal _⟩, ⟨_, rfl, (hkey range "A" _ rfl).2 _⟩,
    ⟨_, rfl, hfilter filter _ _ rfl _⟩, ⟨_, rfl, hexpected expected none _ rfl _⟩,
    ⟨actions, hactions, haccepted.mpr ?_⟩, (hrefused _ _ (by rfl)).2.1⟩
  intro e hrefusal
  cases hrefusal with
  | empty h => exact List.cons_ne_nil _ _ h
  | notAddable h hnumber =>
    rcases List.mem_cons.mp h with h | h
    · cases h
      cases hnumber
    · cases List.mem_singleton.mp h
  | notASet h hset =>
    rcases List.mem_cons.mp h with h | h
    · cases h
    · cases List.mem_singleton.mp h
      cases hset

end TableClient
