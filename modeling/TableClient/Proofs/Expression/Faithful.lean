import TableClient.Expression.Compile
import TableClient.Proofs.Expression.Clauses
import TableClient.Proofs.Expression.PlaceholderTable
import TableClient.Proofs.Expression.ReadBack

/-!
# Compiled expressions are faithful

A compiled expression is a text and the dictionaries of the table that is left. Reading the text and
replacing each placeholder by its entry gives the tree that was compiled, for conditions and for
projections. For updates it gives the actions clause by clause with their values grouped to the
left, and nothing more can be read from the text: two updates have the same output exactly if these
are the same.

## Updates that are confused

Sums and differences are written without parentheses, so a value keeps its grouping only if it is
grouped to the left already. `a - (b - c)` is written like `(a - b) - c` and denotes another number.
-/

namespace TableClient

open TokenReader

/-! ## Reading with dictionaries -/

/-- The condition that an expression is, given what its placeholders stand for. -/
def Condition.ofExpression? (names : Dict String) (values : Dict AttributeValue) (text : String) :
    Option (Condition String AttributeValue) :=
  (readText Condition.reader text).bind (replace? names.get? values.get?)

/-- The paths that a projection is, given what its placeholders stand for. -/
def Path.ofProjection? (names : Dict String) (text : String) : Option (List (Path String)) :=
  (readText Path.listReader text).bind fun paths ↦ paths.mapM (replace? names.get?)

/-- The actions of an update clause by clause, given what its placeholders stand for. -/
def UpdateAction.ofExpression? (names : Dict String) (values : Dict AttributeValue)
    (text : String) : Option (List (UpdateAction String AttributeValue)) :=
  (readText UpdateAction.reader text).bind fun actions ↦
    actions.mapM (replace? names.get? values.get?)

/-! ## Conditions -/

namespace Condition

/-- The table that is left may be used further before its dictionaries are taken. -/
theorem ofExpression?_of_compile_later {c : Condition String AttributeValue}
    {t u t' : PlaceholderTable} {text : String} {os : List (Operand ℕ ℕ)}
    (h : c.compile.Yields t text u) (hlater : NumberingOf u t' os) :
    ofExpression? t'.attributeNames t'.attributeValues text = some c := by
  obtain ⟨n, hn, rfl⟩ := Interning.yields_map_iff.mp h
  rw [ofExpression?, readText_expression, Option.bind_some, replace?_map,
    t'.get?_attributeNames, t'.get?_attributeValues]
  exact replace?_mono hlater.name? hlater.value? (numbered_spec hn).2

theorem ofExpression?_of_compile {c : Condition String AttributeValue} {t t' : PlaceholderTable}
    {text : String} (h : c.compile.Yields t text t') :
    ofExpression? t'.attributeNames t'.attributeValues text = some c :=
  ofExpression?_of_compile_later h (.refl t')

end Condition

/-! ## Projections -/

namespace Path

theorem ofProjection?_of_compile {paths : List (Path String)} {t t' : PlaceholderTable}
    {text : String} (h : (compileProjection paths).Yields t text t') :
    ofProjection? t'.attributeNames text = some paths := by
  simp only [compileProjection, Interning.yields_bind_iff, Interning.yields_pure_iff] at h
  obtain ⟨ns, t', hns, rfl, rfl⟩ := h
  have hreplace : Path.replace? t'.attributeNames.get? ∘ placeholders = replace? t'.name? := by
    funext n
    rw [Function.comp_apply, replace?_map, t'.get?_attributeNames]
  rw [ofProjection?, readText_commaSeparated, Option.bind_some, List.mapM_map, hreplace]
  exact (mapM_numbered_spec hns).2

end Path

/-- **Faithfulness.** A compiled condition is read back from its text and the dictionaries, so two
conditions with the same output are the same; likewise the paths of a projection. -/
theorem compile_condition_projection_faithful :
    (∀ (t t' : PlaceholderTable) (c : Condition String AttributeValue) (text : String),
      c.compile.Yields t text t' →
        Condition.ofExpression? t'.attributeNames t'.attributeValues text = some c) ∧
    (∀ (t u u' : PlaceholderTable) (c c' : Condition String AttributeValue) (text : String),
      c.compile.Yields t text u → c'.compile.Yields t text u' →
        u.attributeNames = u'.attributeNames → u.attributeValues = u'.attributeValues → c = c') ∧
    (∀ (t t' : PlaceholderTable) (paths : List (Path String)) (text : String),
      (Path.compileProjection paths).Yields t text t' →
        Path.ofProjection? t'.attributeNames text = some paths) ∧
    (∀ (t u u' : PlaceholderTable) (paths paths' : List (Path String)) (text : String),
      (Path.compileProjection paths).Yields t text u →
        (Path.compileProjection paths').Yields t text u' →
        u.attributeNames = u'.attributeNames → paths = paths') := by
  refine ⟨fun t t' c text h ↦ Condition.ofExpression?_of_compile h,
    fun t u u' c c' text h h' hnames hvalues ↦ ?_,
    fun t t' paths text h ↦ Path.ofProjection?_of_compile h,
    fun t u u' paths paths' text h h' hnames ↦ ?_⟩
  · have hread := Condition.ofExpression?_of_compile h
    rw [hnames, hvalues, Condition.ofExpression?_of_compile h'] at hread
    exact (Option.some.inj hread).symm
  · have hread := Path.ofProjection?_of_compile h
    rw [hnames, Path.ofProjection?_of_compile h'] at hread
    exact (Option.some.inj hread).symm

/-- A range inside a conjunction keeps its own `AND`, and the table goes on from the names that it
had. -/
theorem compile_range_in_conjunction_faithful :
    (Condition.logical .and
        (.between (.reference ⟨"a", [.index 1]⟩) (.literal (.number "1")) (.literal (.number "1")))
        (.not (.function .attributeExists [.reference ⟨"b", [.key "a"]⟩]))).compile.Yields
      ⟨["b"], []⟩ "(#1[1] BETWEEN :0 AND :1 AND (NOT attribute_exists (#0.#1)))"
      ⟨["b", "a"], [.number "1", .number "1"]⟩ ∧
    Condition.ofExpression? [("#0", "b"), ("#1", "a")] [(":0", .number "1"), (":1", .number "1")]
      "(#1[1] BETWEEN :0 AND :1 AND (NOT attribute_exists (#0.#1)))" =
      some (.logical .and
        (.between (.reference ⟨"a", [.index 1]⟩) (.literal (.number "1")) (.literal (.number "1")))
        (.not (.function .attributeExists [.reference ⟨"b", [.key "a"]⟩]))) ∧
    (Path.compileProjection [⟨"a", []⟩, ⟨"b", [.key "a"]⟩]).Yields ⟨[], []⟩ "#0, #1.#0"
      ⟨["a", "b"], []⟩ ∧
    Path.ofProjection? [("#0", "a"), ("#1", "b")] "#0, #1.#0" =
      some [⟨"a", []⟩, ⟨"b", [.key "a"]⟩] :=
  ⟨rfl,
    compile_condition_projection_faithful.1 ⟨["b"], []⟩
      ⟨["b", "a"], [.number "1", .number "1"]⟩ _ _ rfl,
    rfl,
    compile_condition_projection_faithful.2.2.1 ⟨[], []⟩ ⟨["a", "b"], []⟩ _ _ rfl⟩

/-! ## Updates -/

namespace UpdateAction

variable {a a' : List (UpdateAction String AttributeValue)} {t t' u u' : PlaceholderTable}
  {text text' : String}

/-- The update is read back clause by clause, with its values grouped to the left. -/
theorem ofExpression?_of_compile (h : (compile a).Yields t text t') :
    ofExpression? t'.attributeNames t'.attributeValues text =
      some ((byClause a).map leftGrouped) := by
  obtain ⟨ns, hns, rfl⟩ := numbered_of_compile h
  have hrep := (mapM_numbered_spec hns).2
  have hitem (n : UpdateAction ℕ ℕ) (action : UpdateAction String AttributeValue)
      (hn : n.replace? t'.name? t'.value? = some action) :
      n.placeholders.leftGrouped.replace? t'.attributeNames.get? t'.attributeValues.get? =
        some action.leftGrouped := by
    refine replace?_leftGrouped ?_
    rw [replace?_map, t'.get?_attributeNames, t'.get?_attributeValues, hn]
  rw [ofExpression?, readText_updateText, byClause_numbered hns, Option.bind_some,
    mapM_map_eq_some hitem hrep]

theorem inClause_leftGrouped_eq_iff {ν α : Type} {as bs : List (UpdateAction ν α)} :
    (byClause as).map leftGrouped = (byClause bs).map leftGrouped ↔ ∀ clause,
      (inClause clause as).map leftGrouped = (inClause clause bs).map leftGrouped := by
  constructor
  · intro h clause
    have hclause := congrArg (inClause clause) h
    rwa [inClause_map_leftGrouped, inClause_map_leftGrouped, inClause_byClause,
      inClause_byClause] at hclause
  · intro h
    rw [byClause, byClause, List.map_flatMap, List.map_flatMap]
    simp only [h]

/-- Lists that are the same when grouped to the left have the same output. -/
theorem output_eq_of_leftGrouped (h : (compile a).Yields t text u)
    (h' : (compile a').Yields t text' u')
    (heq : (byClause a).map leftGrouped = (byClause a').map leftGrouped) :
    text = text' ∧ u = u' := by
  obtain ⟨ns, hns, rfl⟩ := numbered_of_compile h
  obtain ⟨ns', hns', rfl⟩ := numbered_of_compile h'
  have hleft := mapM_numbered_leftGrouped hns
  rw [heq] at hleft
  obtain ⟨hsame, rfl⟩ : ns.map leftGrouped = ns'.map leftGrouped ∧ u = u' := by
    have houtcome := hleft.symm.trans (mapM_numbered_leftGrouped hns')
    simpa using houtcome
  refine ⟨?_, rfl⟩
  rw [← updateText_map_leftGrouped ns, hsame, updateText_map_leftGrouped]

end UpdateAction

/-- **Faithfulness up to grouping.** A compiled update is read back clause by clause with its sums
and differences grouped to the left; it is read back as it is exactly if its values are grouped so.
Two updates have the same output exactly if they agree in each clause after the regrouping, so where
both are grouped to the left, exactly if they have the same actions. The number that a value denotes
is kept by the regrouping if it subtracts no sum and no difference. -/
theorem compile_update_faithful_up_to_grouping {t u u' : PlaceholderTable}
    {a a' : List (UpdateAction String AttributeValue)} {text text' : String}
    (h : (UpdateAction.compile a).Yields t text u)
    (h' : (UpdateAction.compile a').Yields t text' u') :
    UpdateAction.ofExpression? u.attributeNames u.attributeValues text =
      some ((UpdateAction.byClause a).map UpdateAction.leftGrouped) ∧
    (UpdateAction.ofExpression? u.attributeNames u.attributeValues text =
      some (UpdateAction.byClause a) ↔ ∀ action ∈ a, action.LeftGrouped) ∧
    ((text = text' ∧ u.attributeNames = u'.attributeNames ∧
        u.attributeValues = u'.attributeValues) ↔
      ∀ clause, (UpdateAction.inClause clause a).map UpdateAction.leftGrouped =
        (UpdateAction.inClause clause a').map UpdateAction.leftGrouped) ∧
    ((∀ action ∈ a ++ a', action.LeftGrouped) →
      ((text = text' ∧ u.attributeNames = u'.attributeNames ∧
          u.attributeValues = u'.attributeValues) ↔
        ∀ clause, UpdateAction.inClause clause a = UpdateAction.inClause clause a')) ∧
    (∀ path v, .set path v ∈ a → v.SubtractsTerms → ∀ operand orElse append,
      v.leftGrouped.denote operand orElse append = v.denote operand orElse append) := by
  have hread := UpdateAction.ofExpression?_of_compile h
  have hiff : (text = text' ∧ u.attributeNames = u'.attributeNames ∧
        u.attributeValues = u'.attributeValues) ↔
      ∀ clause, (UpdateAction.inClause clause a).map UpdateAction.leftGrouped =
        (UpdateAction.inClause clause a').map UpdateAction.leftGrouped := by
    rw [← UpdateAction.inClause_leftGrouped_eq_iff]
    constructor
    · rintro ⟨rfl, hnames, hvalues⟩
      rw [hnames, hvalues, UpdateAction.ofExpression?_of_compile h'] at hread
      exact (Option.some.inj hread).symm
    · intro heq
      obtain ⟨rfl, rfl⟩ := UpdateAction.output_eq_of_leftGrouped h h' heq
      exact ⟨rfl, rfl, rfl⟩
  refine ⟨hread, ?_, hiff, fun hgrouped ↦ ?_,
    fun _ v _ hv operand orElse append ↦ hv.denote_leftGrouped operand orElse append⟩
  · rw [hread, Option.some.injEq, UpdateAction.map_leftGrouped_eq_self_iff]
    simp only [UpdateAction.mem_byClause]
  · -- the regrouping changes nothing in either list
    have hkept (clause : Clause) {b : List (UpdateAction String AttributeValue)}
        (hb : ∀ action ∈ b, action ∈ a ++ a') :
        (UpdateAction.inClause clause b).map UpdateAction.leftGrouped =
          UpdateAction.inClause clause b := by
      rw [UpdateAction.map_leftGrouped_eq_self_iff]
      intro action haction
      exact hgrouped action (hb action (UpdateAction.mem_inClause.mp haction).1)
    have ha (clause : Clause) := hkept clause fun _ ↦ List.mem_append_left a'
    have ha' (clause : Clause) := hkept clause fun _ ↦ List.mem_append_right a
    simp only [hiff, ha, ha']

/-- A difference that is subtracted is written like one that is subtracted from. -/
theorem compile_update_confuses_differences :
    (UpdateAction.compile [.set ⟨"A", []⟩ (.minus (.operand (.reference ⟨"B", []⟩))
        (.minus (.operand (.reference ⟨"C", []⟩)) (.operand (.reference ⟨"D", []⟩))))]).Yields
      ⟨[], []⟩ "SET #0 = #1 - #2 - #3" ⟨["A", "B", "C", "D"], []⟩ ∧
    (UpdateAction.compile [.set ⟨"A", []⟩ (.minus (.minus (.operand (.reference ⟨"B", []⟩))
        (.operand (.reference ⟨"C", []⟩))) (.operand (.reference ⟨"D", []⟩)))]).Yields
      ⟨[], []⟩ "SET #0 = #1 - #2 - #3" ⟨["A", "B", "C", "D"], []⟩ ∧
    UpdateAction.inClause .set ([.set ⟨"A", []⟩ (.minus (.operand (.reference ⟨"B", []⟩))
        (.minus (.operand (.reference ⟨"C", []⟩)) (.operand (.reference ⟨"D", []⟩))))] :
          List (UpdateAction String AttributeValue)) ≠
      UpdateAction.inClause .set [.set ⟨"A", []⟩ (.minus (.minus (.operand (.reference ⟨"B", []⟩))
        (.operand (.reference ⟨"C", []⟩))) (.operand (.reference ⟨"D", []⟩)))] :=
  ⟨rfl, rfl, by decide⟩

/-- A difference on the left of a sum, in one of two clauses that are given in either order. -/
theorem compile_update_left_grouped_clauses_faithful :
    let set : UpdateAction String AttributeValue :=
      .set ⟨"A", []⟩ (.plus (.minus (.operand (.reference ⟨"A", []⟩))
        (.operand (.literal (.number "1")))) (.operand (.reference ⟨"B", []⟩)))
    (UpdateAction.compile [.remove ⟨"B", []⟩, set]).Yields
      ⟨[], []⟩ "SET #0 = #0 - :0 + #1 REMOVE #1" ⟨["A", "B"], [.number "1"]⟩ ∧
    (UpdateAction.compile [set, .remove ⟨"B", []⟩]).Yields
      ⟨[], []⟩ "SET #0 = #0 - :0 + #1 REMOVE #1" ⟨["A", "B"], [.number "1"]⟩ ∧
    UpdateAction.ofExpression? [("#0", "A"), ("#1", "B")] [(":0", .number "1")]
        "SET #0 = #0 - :0 + #1 REMOVE #1" = some [set, .remove ⟨"B", []⟩] := by
  intro set
  have hfirst : (UpdateAction.compile [.remove ⟨"B", []⟩, set]).Yields
      ⟨[], []⟩ "SET #0 = #0 - :0 + #1 REMOVE #1" ⟨["A", "B"], [.number "1"]⟩ := rfl
  have hsecond : (UpdateAction.compile [set, .remove ⟨"B", []⟩]).Yields
      ⟨[], []⟩ "SET #0 = #0 - :0 + #1 REMOVE #1" ⟨["A", "B"], [.number "1"]⟩ := rfl
  exact ⟨hfirst, hsecond, (compile_update_faithful_up_to_grouping hfirst hsecond).1⟩

end TableClient
