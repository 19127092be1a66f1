import Mathlib.Data.List.Indexes
import TableClient.Proofs.Expression.Discipline
import TableClient.Proofs.Expression.InternTree

/-!
# One table for several expressions

A placeholder table serves one use after another: single names and literals, and expressions of each
kind, which may be refused. Whatever a use does, it leaves a table with further names and literals
interned (`TableUse.exists_interned`), so a table only grows and placeholders keep their meaning.

What one use does is `TableUse.Served`: the placeholders that it prints have a meaning, a known name
has the placeholder it had, and a literal never shares one. It is a tree of what it interns, so on
the table that keeps a dictionary of its names it does the same, step by step. All this holds of
every use of a table that repeats no name, and a use keeps tables so; the statement about a run is
the induction over its uses.
-/

namespace TableClient

open Placeholder (occurrences)

/-! ## Tables that grow -/

namespace PlaceholderTable

variable {t u w : PlaceholderTable}

/-- The second table has what the first one has, at the same places, and repeats no name unless the
first one does. -/
structure Grows (t u : PlaceholderTable) : Prop where
  names_prefix : t.names <+: u.names
  values_prefix : t.values <+: u.values
  nodup : t.names.Nodup → u.names.Nodup

theorem Grows.refl (t : PlaceholderTable) : t.Grows t where
  names_prefix := List.prefix_rfl
  values_prefix := List.prefix_rfl
  nodup := id

theorem Grows.trans (h : t.Grows u) (h' : u.Grows w) : t.Grows w where
  names_prefix := h.names_prefix.trans h'.names_prefix
  values_prefix := h.values_prefix.trans h'.values_prefix
  nodup := h'.nodup ∘ h.nodup

theorem nodup_interned (names : List String) (values : List AttributeValue)
    (h : t.names.Nodup) : (t.interned names values).names.Nodup := by
  induction names generalizing t values with
  | nil => simpa [interned] using h
  | cons name names ih =>
    rw [interned_name_cons]
    exact ih values (nodup_internName h name)

theorem grows_interned (t : PlaceholderTable) (names : List String)
    (values : List AttributeValue) : t.Grows (t.interned names values) where
  names_prefix := t.names_prefix_interned names values
  values_prefix := t.values_prefix_interned names values
  nodup := nodup_interned names values

end PlaceholderTable

/-- The table after these names and then these literals, each interned for itself. -/
def IndexedTable.internAll (t : IndexedTable) (names : List String)
    (values : List AttributeValue) : IndexedTable :=
  let t := names.foldl (fun t name ↦ (t.internName name).2) t
  values.foldl (fun t value ↦ (t.internValue value).2) t

namespace PlaceholderTable

variable {t u w : PlaceholderTable}

theorem indexed_interned (h : t.names.Nodup) (names : List String) (values : List AttributeValue) :
    (t.interned names values).indexed = t.indexed.internAll names values := by
  induction names generalizing t with
  | nil =>
    induction values generalizing t with
    | nil => rw [interned_nil]; rfl
    | cons value values ih =>
      have hvalues : (t.internValue value).2.names.Nodup := h
      rw [interned_value_cons, ih hvalues]
      simp only [IndexedTable.internAll, List.foldl_cons, List.foldl_nil, internValue_indexed]
  | cons name names ih =>
    rw [interned_name_cons, ih (nodup_internName h name)]
    simp only [IndexedTable.internAll, List.foldl_cons, internName_indexed h]

/-- What the placeholders of the first table stand for, they stand for in the second one too. -/
structure KeepsMeaning (u w : PlaceholderTable) : Prop where
  names : ∀ token name, u.attributeNames.get? token = some name →
    w.attributeNames.get? token = some name
  values : ∀ token value, u.attributeValues.get? token = some value →
    w.attributeValues.get? token = some value

theorem Grows.keepsMeaning (h : u.Grows w) : u.KeepsMeaning w where
  names token name hname := by
    obtain ⟨n, rfl, hn⟩ := get?_attributeNames_eq_some_iff.mp hname
    exact get?_attributeNames_eq_some_iff.mpr ⟨n, rfl, getElem?_of_prefix h.names_prefix hn⟩
  values token value hvalue := by
    obtain ⟨n, rfl, hn⟩ := get?_attributeValues_eq_some_iff.mp hvalue
    exact get?_attributeValues_eq_some_iff.mpr ⟨n, rfl, getElem?_of_prefix h.values_prefix hn⟩

end PlaceholderTable

/-! ## Placeholders of a text -/

namespace Printed

variable {t u : PlaceholderTable} {text token : String}

theorem exists_name (h : Printed t u [text]) (htoken : token ∈ occurrences '#' text) :
    ∃ name, u.attributeNames.get? token = some name := by
  obtain ⟨os, hnum, hprints⟩ := h
  have hmem : token ∈ [text].flatMap (occurrences '#') := by simpa using htoken
  rw [hprints.occurrences_names] at hmem
  obtain ⟨n, hn, rfl⟩ := List.mem_map.mp hmem
  exact ⟨_, PlaceholderTable.get?_attributeNames_eq_some_iff.mpr
    ⟨n, rfl, List.getElem?_eq_getElem (hnum.introduces.lt_of_mem hn)⟩⟩

/-- The placeholders of literals are those that the second table has beyond the first. -/
theorem occurrences_values (h : Printed t u [text]) : occurrences ':' text =
    (List.range' t.values.length (u.values.length - t.values.length)).map Placeholder.value := by
  obtain ⟨os, hnum, hprints⟩ := h
  rw [← hnum.literals_eq, ← hprints.occurrences_values, List.flatMap_singleton]

theorem exists_new_value (h : Printed t u [text]) (htoken : token ∈ occurrences ':' text) :
    t.attributeValues.get? token = none ∧ ∃ value, u.attributeValues.get? token = some value := by
  rw [h.occurrences_values] at htoken
  obtain ⟨n, hn, rfl⟩ := List.mem_map.mp htoken
  obtain ⟨hnew, hknown⟩ := List.mem_range'_1.mp hn
  refine ⟨?_, _, PlaceholderTable.get?_attributeValues_eq_some_iff.mpr
    ⟨n, rfl, List.getElem?_eq_getElem (by omega)⟩⟩
  exact (congrFun t.get?_attributeValues n).trans (List.getElem?_eq_none hnew)

theorem nodup_values (h : Printed t u [text]) : (occurrences ':' text).Nodup := by
  rw [h.occurrences_values]
  exact (List.nodup_range' 1).map Placeholder.value_injective

end Printed

/-! ## Uses of a table -/

/-- One use of a table: for a single name or literal, or for an expression. -/
inductive TableUse where
  | name (name : String)
  | value (value : AttributeValue)
  | condition (condition : Condition String AttributeValue)
  | update (actions : List (UpdateAction String AttributeValue))
  | keyCondition (partition : Condition String AttributeValue)
      (sort : Option (Condition String AttributeValue))
  | projection (paths : List (Path String))

namespace TableUse

/-- What the table is used for: a placeholder for the name or the literal, or the text of the
expression. -/
def text : TableUse → Interning String
  | .name s => Placeholder.name <$> Interning.name s
  | .value v => Placeholder.value <$> Interning.value v
  | .condition c => c.compile
  | .update actions => UpdateAction.compile actions
  | .keyCondition partition sort => partition.compileKey sort
  | .projection paths => Path.compileProjection paths

/-- The use is this tree, whatever the table is. -/
def Is (use : TableUse) (tree : InternTree String) : Prop :=
  ∀ t, use.text.outcome t = tree.follow t

theorem branches (use : TableUse) : Interning.Branches use.text := by
  cases use with
  | name s => exact (Interning.Branches.name s).map _
  | value v => exact (Interning.Branches.value v).map _
  | condition c => exact c.branches_compile
  | update actions => exact UpdateAction.branches_compile actions
  | keyCondition partition sort => exact partition.branches_compileKey sort
  | projection paths => exact Path.branches_compileProjection paths

/-- A use interns some names and literals, whether it fails or not. -/
theorem exists_interned (use : TableUse) (t : PlaceholderTable) :
    ∃ names values, (use.text.outcome t).2 = t.interned names values := by
  obtain ⟨tree, htree⟩ := use.branches
  rw [htree]
  exact tree.exists_interned t

theorem grows (use : TableUse) (t : PlaceholderTable) : t.Grows (use.text.outcome t).2 := by
  obtain ⟨names, values, heq⟩ := use.exists_interned t
  rw [heq]
  exact t.grows_interned names values

theorem printed {use : TableUse} {t u : PlaceholderTable} {text : String}
    (h : use.text.Yields t text u) : Printed t u [text] := by
  cases use with
  | name s =>
    obtain ⟨n, hn, rfl⟩ := Interning.yields_map_iff.mp h
    have hprints := Operand.prints (.reference ⟨n, []⟩)
    rw [show Operand.expression (.reference ⟨n, []⟩) = Placeholder.name n from
      String.append_empty] at hprints
    exact ⟨[.reference ⟨n, []⟩],
      (Numbering.of_internName (Interning.yields_name_iff.mp hn)).1, hprints⟩
  | value v =>
    obtain ⟨n, hn, rfl⟩ := Interning.yields_map_iff.mp h
    exact ⟨[.literal n], (Numbering.of_internValue (Interning.yields_value_iff.mp hn)).1,
      Operand.prints (.literal n)⟩
  | condition c => exact Condition.printed_of_compile h
  | update actions => exact UpdateAction.printed_of_compile h
  | keyCondition partition sort => exact Condition.printed_of_compileKey h
  | projection paths => exact Path.printed_of_compileProjection h

/-! ## One use -/

/-- What a use of the table `t` comes to that ends with `result` and the table `u`. -/
structure Served (use : TableUse) (t u : PlaceholderTable)
    (result : Except ExpressionError String) : Prop where
  /-- No placeholder changes its meaning, also if the use fails. -/
  keepsMeaning : t.KeepsMeaning u
  /-- The use sees a table only through the numbers that it gets, and followed on the table with
  the dictionary it comes to the same result, with the same table. -/
  simulated : ∃ tree : InternTree String, use.Is tree ∧
    tree.followIndexed t.indexed = (result, u.indexed)
  /-- The use is worth some names and literals, each interned for itself. -/
  interns : ∃ names values, u.indexed = t.indexed.internAll names values
  /-- The placeholders of names in a text have a meaning. -/
  names : ∀ text, result = .ok text → ∀ token ∈ occurrences '#' text,
    ∃ name, u.attributeNames.get? token = some name
  /-- The placeholders of literals in a text are new and differ from one another. -/
  values : ∀ text, result = .ok text → (occurrences ':' text).Nodup ∧
    ∀ token ∈ occurrences ':' text, t.attributeValues.get? token = none ∧
      ∃ value, u.attributeValues.get? token = some value
  /-- A name gets a placeholder that stands for it, as the dictionary of the numbers has it. -/
  name : ∀ s, use = .name s → ∃ n, result = .ok (Placeholder.name n) ∧
    u.attributeNames.get? (Placeholder.name n) = some s ∧
    t.indexed.internName s = (n, u.indexed)
  /-- A name that is known gets the placeholder it has, and nothing changes. -/
  known : ∀ s token, use = .name s → t.attributeNames.get? token = some s →
    result = .ok token ∧ u = t
  /-- A literal gets a new placeholder. -/
  value : ∀ v, use = .value v → ∃ token, result = .ok token ∧
    t.attributeValues.get? token = none ∧ u.attributeValues.get? token = some v

theorem outcome_name (s : String) (t : PlaceholderTable) :
    (TableUse.name s).text.outcome t =
      (.ok (Placeholder.name (t.internName s).1), (t.internName s).2) :=
  rfl

/-- A name that is known has its number, and interning it changes nothing. -/
theorem outcome_known {t : PlaceholderTable} (ht : t.names.Nodup) {s token : String}
    (h : t.attributeNames.get? token = some s) :
    (TableUse.name s).text.outcome t = (.ok token, t) := by
  obtain ⟨n, rfl, hn⟩ := PlaceholderTable.get?_attributeNames_eq_some_iff.mp h
  rw [outcome_name, PlaceholderTable.internName, PlaceholderTable.idxOf?_names ht,
    (PlaceholderTable.get?_nameNumbers_eq_some_iff ht).mpr hn]

/-- The step: a table that repeats no name serves every use. -/
theorem served (use : TableUse) {t u : PlaceholderTable} (ht : t.names.Nodup)
    {result : Except ExpressionError String} (h : use.text.outcome t = (result, u)) :
    use.Served t u result where
  keepsMeaning := by
    have hgrows := use.grows t
    rw [h] at hgrows
    exact hgrows.keepsMeaning
  simulated := by
    obtain ⟨tree, htree⟩ := use.branches
    have hindexed := tree.followIndexed_eq ht
    rw [← htree, h] at hindexed
    exact ⟨tree, htree, hindexed⟩
  interns := by
    obtain ⟨names, values, heq⟩ := use.exists_interned t
    rw [h] at heq
    subst heq
    exact ⟨names, values, PlaceholderTable.indexed_interned ht names values⟩
  names := by
    rintro text rfl token htoken
    exact (printed h).exists_name htoken
  values := by
    rintro text rfl
    exact ⟨(printed h).nodup_values, fun token htoken ↦ (printed h).exists_new_value htoken⟩
  name := by
    rintro s rfl
    obtain ⟨rfl, rfl⟩ := Prod.mk.inj h
    refine ⟨_, rfl, ?_, PlaceholderTable.internName_indexed ht s⟩
    exact PlaceholderTable.get?_attributeNames_eq_some_iff.mpr
      ⟨_, rfl, (Numbering.of_internName rfl).2⟩
  known := by
    rintro s token rfl htoken
    exact Prod.mk.inj (h.symm.trans (outcome_known ht htoken))
  value := by
    rintro v rfl
    obtain ⟨rfl, rfl⟩ := Prod.mk.inj h
    have hnew : t.attributeValues.get? (Placeholder.value t.values.length) = none :=
      (congrFun t.get?_attributeValues _).trans (List.getElem?_eq_none le_rfl)
    refine ⟨_, rfl, hnew, ?_⟩
    exact PlaceholderTable.get?_attributeValues_eq_some_iff.mpr
      ⟨_, rfl, (Numbering.of_internValue rfl).2⟩

end TableUse

/-! ## A run of uses -/

namespace PlaceholderTable

/-- The table after these uses, whether they fail or not. -/
def after (t : PlaceholderTable) (uses : List TableUse) : PlaceholderTable :=
  uses.foldl (fun t use ↦ (use.text.outcome t).2) t

theorem after_append (t : PlaceholderTable) (before later : List TableUse) :
    t.after (before ++ later) = (t.after before).after later :=
  List.foldl_append

theorem grows_after (t : PlaceholderTable) (uses : List TableUse) : t.Grows (t.after uses) := by
  induction uses generalizing t with
  | nil => exact .refl t
  | cons use uses ih => exact (use.grows t).trans (ih _)

theorem nodup_after (uses : List TableUse) : (({} : PlaceholderTable).after uses).names.Nodup :=
  (grows_after {} uses).nodup List.nodup_nil

end PlaceholderTable

/-- The table after these computations, whether they fail or not. -/
def IndexedTable.after (t : IndexedTable) (trees : List (InternTree String)) : IndexedTable :=
  trees.foldl (fun t tree ↦ (tree.followIndexed t).2) t

/-- A run on a table with a dictionary: the uses, each as a tree, leave the same table there. -/
theorem PlaceholderTable.exists_indexed_after (uses : List TableUse) {t : PlaceholderTable}
    (ht : t.names.Nodup) : ∃ trees, List.Forall₂ TableUse.Is uses trees ∧
      t.indexed.after trees = (t.after uses).indexed := by
  induction uses generalizing t with
  | nil => exact ⟨[], .nil, rfl⟩
  | cons use uses ih =>
    obtain ⟨tree, htree⟩ := use.branches
    obtain ⟨trees, htrees, hafter⟩ := ih ((use.grows t).nodup ht)
    refine ⟨tree :: trees, .cons htree htrees, ?_⟩
    rw [IndexedTable.after, List.foldl_cons, tree.followIndexed_eq ht, ← htree]
    exact hafter

/-- One table serves any uses one after another, failing ones included: its names stay distinct and
each has its own number, as in the table that keeps a dictionary of them through all uses; the
dictionaries are the ones that are sent, and every use is served from what is there and leaves a
table whose placeholders mean at the end what they mean then. -/
theorem shared_table_grows_and_never_rebinds (uses : List TableUse) :
    let final := ({} : PlaceholderTable).after uses
    final.names.Nodup ∧
    (∀ name n, final.indexed.numbers.get? name = some n ↔ final.names[n]? = some name) ∧
    (∃ trees, List.Forall₂ TableUse.Is uses trees ∧
      ({} : IndexedTable).after trees = final.indexed) ∧
    final.intoMaps = (final.attributeNames, final.attributeValues) ∧
    ∀ before use later, uses = before ++ use :: later →
      ∃ result u, use.text.outcome (({} : PlaceholderTable).after before) = (result, u) ∧
        use.Served (({} : PlaceholderTable).after before) u result ∧ u.KeepsMeaning final := by
  have hnodup := PlaceholderTable.nodup_after uses
  refine ⟨hnodup, fun name n ↦ PlaceholderTable.get?_nameNumbers_eq_some_iff hnodup,
    PlaceholderTable.exists_indexed_after (t := {}) uses List.nodup_nil,
    PlaceholderTable.intoMaps_eq _, ?_⟩
  rintro before use later rfl
  refine ⟨_, _, rfl, use.served (PlaceholderTable.nodup_after before) rfl, ?_⟩
  rw [PlaceholderTable.after_append]
  exact (PlaceholderTable.grows_after _ later).keepsMeaning

/-- A refused condition leaves a name in the table. The name then has the placeholder that the
refused condition gave it, and stays alone in the dictionary. -/
theorem name_of_refused_condition_reused :
    let refused : Condition String AttributeValue :=
      (Condition.compare (.reference ⟨"A", []⟩) .lt (.literal (.number "1"))).and
        (.function .contains [])
    let t := ({} : PlaceholderTable).after [.condition refused]
    (∃ e, (refused.compile.outcome {}).1 = .error e) ∧
    (TableUse.name "A").text.outcome t = (.ok "#0", t) ∧
    t.indexed = ⟨["A"], [("A", 0)], [.number "1"]⟩ := by
  intro refused t
  obtain ⟨-, -, -, -, hserved⟩ :=
    shared_table_grows_and_never_rebinds [.condition refused, .name "A"]
  obtain ⟨result, u, houtcome, hname, -⟩ := hserved [.condition refused] (.name "A") [] rfl
  obtain ⟨rfl, rfl⟩ := hname.known "A" "#0" rfl (by decide)
  exact ⟨⟨_, rfl⟩, houtcome, by decide⟩

end TableClient
