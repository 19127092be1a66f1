import TableClient.Proofs.Ascending
import TableClient.Proofs.Expression.Faithful
import TableClient.Proofs.Expression.KeyCondition
import TableClient.Proofs.Request.Expressions

/-!
# The conditions of a query

A query is given conditions in four ways: a tree and a map for the sort key, and a tree and a map
for the filter. Each one that is given ends in one place of the request (`Routed`): with the key
condition, or as the filter. Only a tree for the sort key that the sort key does not take may end as
the filter, and then there is no other one. A filter looks at no key attribute at all, so no
condition is in both places.
-/

namespace TableClient

/-! ## Filters -/

/-- A map with entries makes a filter. -/
theorem Condition.exists_of_ofFilter {map : Dict ConditionEntry} {op : Option ConditionalOperator}
    {filter : Option (Condition String AttributeValue)} (h : ofFilter map op = .ok filter)
    (hmap : map ≠ []) : ∃ c, filter = some c := by
  obtain ⟨conditions, hconditions, rfl⟩ := Except.map_eq_ok_iff.mp h
  cases map with
  | nil => exact absurd rfl hmap
  | cons entry rest =>
    simp only [List.mapM_cons, Except.bind_eq_ok_iff, Except.pure_eq_ok_iff] at hconditions
    obtain ⟨c, -, cs, -, rfl⟩ := hconditions
    exact ⟨_, rfl⟩

namespace Request

variable {keys : KeyNames} {o : QueryOptions}

/-- A filter that is not refused looks at no key attribute. -/
theorem avoids_of_checkFilterKeys {filter : Condition String AttributeValue} {u : Unit}
    (h : checkFilterKeys keys filter = .ok u) {path : Path String} (hpath : filter.LooksAt path) :
    path.root ≠ keys.hash ∧ keys.range ≠ some path.root := by
  have htotal (x y : String) (hxy : decide (x < y) = false) (hyx : decide (y < x) = false) :
      x = y := by
    rw [decide_eq_false_iff_not] at hxy hyx
    exact String.le_antisymm hyx hxy
  rw [checkFilterKeys] at h
  split at h
  · cases h
  · next hnone =>
    have hhas := List.find?_eq_none.mp hnone path.root
      ((mem_ascending htotal _ _).mpr (Condition.root_mem_attributes hpath))
    rw [KeyNames.has, Bool.or_eq_true, not_or, decide_eq_true_iff, decide_eq_true_iff] at hhas
    exact ⟨Ne.symm hhas.1, hhas.2⟩

/-! ## Conditions on the sort key -/

/-- How the conditions on the sort key are routed, given the filter: the sort condition and the
filter that result. -/
inductive RoutesTo (keys : KeyNames) (o : QueryOptions)
    (given : Option (Condition String AttributeValue)) :
    Option (Condition String AttributeValue) → Option (Condition String AttributeValue) → Prop
  | none (hrangeKey : o.rangeKeyCondition = none) (hmap : o.keyConditions = []) :
      RoutesTo keys o given none given
  | sort {c : Condition String AttributeValue} {range : String}
      (hrangeKey : o.rangeKeyCondition = some c) (hrange : keys.range = some range)
      (hsort : SortCondition range c) : RoutesTo keys o given (some c) given
  | filter {c : Condition String AttributeValue} (hrangeKey : o.rangeKeyCondition = some c)
      (hgiven : given = none) : RoutesTo keys o given none (some c)
  | map {range : String} {entry : ConditionEntry} {c : Condition String AttributeValue}
      (hrangeKey : o.rangeKeyCondition = none) (hmap : o.keyConditions = [(range, entry)])
      (hrange : keys.range = some range) (hentry : entry.keyCondition range = .ok c) :
      RoutesTo keys o given (some c) given

namespace RoutesTo

variable {given sort filter : Option (Condition String AttributeValue)}

theorem sortCondition (h : RoutesTo keys o given sort filter) (c : Condition String AttributeValue)
    (hc : sort = some c) : ∃ range, keys.range = some range ∧ SortCondition range c := by
  cases h with
  | none | filter => cases hc
  | sort hrangeKey hrange hsort =>
    obtain rfl := Option.some.inj hc
    exact ⟨_, hrange, hsort⟩
  | map hrangeKey hmap hrange hentry =>
    obtain rfl := Option.some.inj hc
    exact ⟨_, hrange, .of_keyCondition hentry⟩

theorem of_rangeKeyCondition (h : RoutesTo keys o given sort filter)
    {c : Condition String AttributeValue} (hc : o.rangeKeyCondition = some c) :
    sort = some c ∨ (sort = .none ∧ filter = some c) := by
  cases h with
  | none hrangeKey | map hrangeKey => cases hrangeKey.symm.trans hc
  | sort hrangeKey => exact .inl (hrangeKey.symm.trans hc)
  | filter hrangeKey => exact .inr ⟨rfl, hrangeKey.symm.trans hc⟩

theorem of_mem_keyConditions (h : RoutesTo keys o given sort filter)
    (hforms : o.rangeKeyCondition.isSome → o.keyConditions = []) {name : String}
    {entry : ConditionEntry} (hmem : (name, entry) ∈ o.keyConditions) :
    o.keyConditions = [(name, entry)] ∧ ∃ c, entry.keyCondition name = .ok c ∧ sort = some c := by
  cases h with
  | none hrangeKey hmap =>
    rw [hmap] at hmem
    cases hmem
  | sort hrangeKey | filter hrangeKey =>
    rw [hforms (by rw [hrangeKey]; rfl)] at hmem
    cases hmem
  | map hrangeKey hmap hrange hentry =>
    rw [hmap] at hmem
    obtain ⟨rfl, rfl⟩ := Prod.mk.inj (List.mem_singleton.mp hmem)
    exact ⟨hmap, _, hentry, rfl⟩

/-- A filter that is given stays the filter. -/
theorem filter_eq_of_given (h : RoutesTo keys o given sort filter)
    {c : Condition String AttributeValue} (hc : given = some c) : filter = some c := by
  cases h with
  | none | sort | map => exact hc
  | filter hrangeKey hnone => cases hnone.symm.trans hc

theorem sortFrom (h : RoutesTo keys o given sort filter) (c : Condition String AttributeValue)
    (hc : sort = some c) : o.rangeKeyCondition = some c ∨
      ∃ name entry, (name, entry) ∈ o.keyConditions ∧ entry.keyCondition name = .ok c := by
  cases h with
  | none | filter => cases hc
  | sort hrangeKey =>
    obtain rfl := Option.some.inj hc
    exact .inl hrangeKey
  | map hrangeKey hmap hrange hentry =>
    obtain rfl := Option.some.inj hc
    refine .inr ⟨_, _, ?_, hentry⟩
    rw [hmap]
    exact List.mem_singleton_self _

theorem filterFrom (h : RoutesTo keys o given sort filter) (c : Condition String AttributeValue)
    (hc : filter = some c) : given = some c ∨ o.rangeKeyCondition = some c := by
  cases h with
  | none | sort | map => exact .inl hc
  | filter hrangeKey =>
    obtain rfl := Option.some.inj hc
    exact .inr hrangeKey

end RoutesTo

/-- A map for the sort key has at most one entry, since the entries of a map have distinct names. -/
theorem sortOfMap_cases {entries : List (String × ConditionEntry)}
    {sort : Option (Condition String AttributeValue)} (hdistinct : (entries.map Prod.fst).Nodup)
    (h : sortOfMap keys entries = .ok sort) :
    (entries = [] ∧ sort = none) ∨ ∃ range entry c, entries = [(range, entry)] ∧
      keys.range = some range ∧ entry.keyCondition range = .ok c ∧ sort = some c := by
  cases entries with
  | nil => exact .inl ⟨rfl, (Except.ok.inj h).symm⟩
  | cons first entries =>
    obtain ⟨range, entry⟩ := first
    rw [sortOfMap, List.foldlM_cons, Except.bind_eq_ok_iff] at h
    obtain ⟨c?, hfirst, h⟩ := h
    dsimp only at hfirst
    split at hfirst
    · next hrange =>
      obtain ⟨c, hc, rfl⟩ := Except.map_eq_ok_iff.mp hfirst
      have hc := Except.mapError_eq_ok_iff.mp hc
      cases entries with
      | nil => exact .inr ⟨range, entry, c, rfl, hrange, hc, (Except.ok.inj h).symm⟩
      | cons second entries =>
        -- a second entry would be on the range key too
        rw [List.foldlM_cons, Except.bind_eq_ok_iff] at h
        obtain ⟨_, hsecond, -⟩ := h
        dsimp only at hsecond
        split at hsecond
        · next hrange' =>
          have hsame : range = second.1 := Option.some.inj (hrange.symm.trans hrange')
          simp [hsame] at hdistinct
        · cases hsecond
    · cases hfirst

theorem routesTo_of_routeConditions {given sort filter : Option (Condition String AttributeValue)}
    (hdistinct : (o.keyConditions.map Prod.fst).Nodup)
    (h : routeConditions keys o given = .ok (sort, filter)) :
    RoutesTo keys o given sort filter := by
  rw [routeConditions] at h
  cases hrangeKey : o.rangeKeyCondition with
  | some c =>
    rw [hrangeKey] at h
    dsimp only at h
    split at h
    · next hsort =>
      obtain ⟨rfl, rfl⟩ := Prod.mk.inj (Except.ok.inj h)
      cases hrange : keys.range with
      | none =>
        rw [hrange] at hsort
        cases hsort
      | some range =>
        rw [hrange] at hsort
        exact .sort hrangeKey hrange (.of_isSortCondition hsort)
    · split at h
      · next hgiven =>
        obtain ⟨rfl, rfl⟩ := Prod.mk.inj (Except.ok.inj h)
        exact .filter hrangeKey (Option.isNone_iff_eq_none.mp hgiven)
      · cases h
  | none =>
    rw [hrangeKey] at h
    simp only [Except.bind_eq_ok_iff, Except.pure_eq_ok_iff, Prod.mk.injEq] at h
    obtain ⟨_, hmap, rfl, rfl⟩ := h
    obtain ⟨hnil, rfl⟩ | ⟨range, entry, c, hentries, hrange, hentry, rfl⟩ :=
      sortOfMap_cases hdistinct hmap
    · exact .none hrangeKey hnil
    · exact .map hrangeKey hentries hrange hentry

/-! ## The request -/

/-- The condition that an expression of the request is. -/
def conditionOf? (i : QueryInput) (text : String) : Option (Condition String AttributeValue) :=
  Condition.ofExpression? i.expressionAttributeNames i.expressionAttributeValues text

/-- The condition that picks the partition, and in it what the sort condition picks. -/
def keyCondition (keys : KeyNames) (hash : AttributeValue)
    (sort : Option (Condition String AttributeValue)) : Condition String AttributeValue :=
  let partition := .compare (.reference ⟨keys.hash, []⟩) .eq (.literal hash)
  sort.elim partition (.logical .and partition)

/-- A request for a query: it has one condition on the sort key, if any, and one filter, if any, and
each condition that is given is one of the two. -/
structure Routed (keys : KeyNames) (hash : AttributeValue) (o : QueryOptions) (i : QueryInput)
    (sort filter : Option (Condition String AttributeValue)) : Prop where
  keyExpression : i.keyConditionExpression.map (conditionOf? i) =
    some (some (keyCondition keys hash sort))
  filterExpression : i.filterExpression.map (conditionOf? i) = filter.map some
  sortCondition : ∀ c, sort = some c → ∃ range, keys.range = some range ∧ SortCondition range c
  filterAvoids : ∀ c, filter = some c → ∀ path, c.LooksAt path →
    path.root ≠ keys.hash ∧ keys.range ≠ some path.root
  rangeKeyCondition : ∀ c, o.rangeKeyCondition = some c →
    (sort = some c ∧ filter ≠ some c) ∨ (sort = none ∧ filter = some c)
  keyConditions : ∀ name entry, (name, entry) ∈ o.keyConditions →
    o.keyConditions = [(name, entry)] ∧
      ∃ c, entry.keyCondition name = .ok c ∧ sort = some c ∧ filter ≠ some c
  filterCondition : ∀ c, o.filterCondition = some c → filter = some c
  queryFilter : o.queryFilter ≠ [] → ∃ c,
    Condition.ofFilter o.queryFilter o.conditionalOperator = .ok (some c) ∧ filter = some c
  sortFrom : ∀ c, sort = some c → o.rangeKeyCondition = some c ∨
    ∃ name entry, (name, entry) ∈ o.keyConditions ∧ entry.keyCondition name = .ok c
  filterFrom : ∀ c, filter = some c → o.filterCondition = some c ∨
    Condition.ofFilter o.queryFilter o.conditionalOperator = .ok (some c) ∨
      o.rangeKeyCondition = some c

theorem conditionOf?_of_compileKey {partition : Condition String AttributeValue}
    {sort : Option (Condition String AttributeValue)} {t u t' : PlaceholderTable} {text : String}
    {os : List (Operand ℕ ℕ)} (h : (partition.compileKey sort).Yields t text u)
    (hlater : NumberingOf u t' os) :
    Condition.ofExpression? t'.attributeNames t'.attributeValues text =
      some (sort.elim partition (.logical .and partition)) :=
  Condition.ofExpression?_of_compile_later (Condition.compile_of_compileKey h) hlater

theorem conditionOf?_of_optionalCondition {c : Option (Condition String AttributeValue)}
    {t u t' : PlaceholderTable} {text : Option String} {os : List (Operand ℕ ℕ)}
    (h : (optionalCondition c).Yields t text u) (hlater : NumberingOf u t' os) :
    text.map (Condition.ofExpression? t'.attributeNames t'.attributeValues) = c.map some := by
  cases c with
  | none =>
    obtain ⟨rfl, -⟩ := Interning.yields_pure_iff.mp h
    rfl
  | some c =>
    obtain ⟨text, htext, rfl⟩ := Interning.yields_map_iff.mp h
    exact congrArg some (Condition.ofExpression?_of_compile_later htext hlater)

theorem resolveFilter_cases {tree given : Option (Condition String AttributeValue)}
    {map : Dict ConditionEntry} {op : Option ConditionalOperator}
    (h : resolveFilter tree map op = .ok given) :
    (∃ c, tree = some c ∧ given = some c) ∨
      (tree = none ∧ Condition.ofFilter map op = .ok given) := by
  cases tree with
  | none => exact .inr ⟨rfl, Except.mapError_eq_ok_iff.mp h⟩
  | some c => exact .inl ⟨c, rfl, (Except.ok.inj h).symm⟩

theorem exclusive_of_checkQueryForms {u : Unit} (h : checkQueryForms o = .ok u) :
    (o.rangeKeyCondition.isSome → o.keyConditions = []) ∧
      (o.filterCondition.isSome → o.queryFilter = []) := by
  simp only [checkQueryForms, Except.bind_eq_ok_iff, Checked.refuseIf_eq_ok_iff,
    Bool.and_eq_false_iff, Bool.not_eq_false', List.isEmpty_iff] at h
  obtain ⟨_, hsort, _, hfilter, -⟩ := h
  refine ⟨fun hsome ↦ ?_, fun hsome ↦ ?_⟩
  · obtain hnone | hnil := hsort
    · cases hsome.symm.trans hnone
    · exact hnil
  · obtain hnone | hnil := hfilter
    · cases hsome.symm.trans hnone
    · exact hnil

end Request

/-- **Routing.** In every request for a query each condition that was given is in one place: with
the key condition, which begins with the partition, or as the filter, which looks at no key
attribute. The map for the sort key has distinct names, as maps have. -/
theorem query_routes_conditions {table : TableDescriptor} {config : ClientConfig}
    {hash : AttributeValue} {o : QueryOptions} {i : QueryInput}
    (hdistinct : (o.keyConditions.map Prod.fst).Nodup)
    (h : Request.query table config hash o = .ok i) :
    ∃ keys sort filter, table.indexKeys o.indexName = .ok keys ∧
      Request.Routed keys hash o i sort filter := by
  simp only [Request.query, Except.bind_eq_ok_iff, Prod.exists, Checked.expressions_eq_ok_iff,
    Interning.yields_bind_iff, Interning.yields_pure_iff] at h
  obtain ⟨keys, hkeys, _, -, _, hforms, given, hgiven, sort, filter, hroute, _, hcheck, key,
    filterText, projectionText, t, ⟨_, u, hkey, _, u', hfilter, _, t', hprojection, heq, rfl⟩,
    limit, -, h⟩ := h
  obtain ⟨rfl, htexts⟩ := Prod.mk.inj heq
  obtain ⟨rfl, rfl⟩ := Prod.mk.inj htexts
  obtain rfl := Except.ok.inj h
  obtain ⟨hsortForms, hfilterForms⟩ := Request.exclusive_of_checkQueryForms hforms
  have hroutes := Request.routesTo_of_routeConditions hdistinct hroute
  have havoids (c : Condition String AttributeValue) (hc : filter = some c) (path : Path String)
      (hpath : c.LooksAt path) : path.root ≠ keys.hash ∧ keys.range ≠ some path.root := by
    rw [hc] at hcheck
    exact Request.avoids_of_checkFilterKeys hcheck hpath
  have hdisjoint (c : Condition String AttributeValue) (hc : sort = some c) : filter ≠ some c := by
    intro hboth
    obtain ⟨range, hrange, hsort⟩ := hroutes.sortCondition c hc
    exact (havoids c hboth _ hsort.looksAt).2 hrange
  obtain ⟨os', hnum', -⟩ := Request.printed_of_projection hprojection
  obtain ⟨os, hnum, -⟩ := Request.printed_of_optionalCondition hfilter
  refine ⟨keys, sort, filter, hkeys, ?_, ?_, hroutes.sortCondition, havoids, ?_, ?_, ?_, ?_,
    hroutes.sortFrom, ?_⟩
  · exact congrArg some (Request.conditionOf?_of_compileKey hkey (hnum.append hnum'))
  · exact Request.conditionOf?_of_optionalCondition hfilter hnum'
  · intro c hc
    obtain hsort | hfallback := hroutes.of_rangeKeyCondition hc
    · exact .inl ⟨hsort, hdisjoint c hsort⟩
    · exact .inr hfallback
  · intro name entry hmem
    obtain ⟨hsingle, c, hentry, hsort⟩ := hroutes.of_mem_keyConditions hsortForms hmem
    exact ⟨hsingle, c, hentry, hsort, hdisjoint c hsort⟩
  · intro c hc
    obtain ⟨c', htree, hgiven⟩ | ⟨hnone, -⟩ := Request.resolveFilter_cases hgiven
    · obtain rfl := Option.some.inj (htree.symm.trans hc)
      exact hroutes.filter_eq_of_given hgiven
    · cases hnone.symm.trans hc
  · intro hmap
    obtain ⟨c, htree, -⟩ | ⟨-, hofFilter⟩ := Request.resolveFilter_cases hgiven
    · exact absurd (hfilterForms (by rw [htree]; rfl)) hmap
    · obtain ⟨c, rfl⟩ := Condition.exists_of_ofFilter hofFilter hmap
      exact ⟨c, hofFilter, hroutes.filter_eq_of_given rfl⟩
  · intro c hc
    obtain rfl | hrangeKey := hroutes.filterFrom c hc
    · obtain ⟨c', htree, hsome⟩ | ⟨-, hofFilter⟩ := Request.resolveFilter_cases hgiven
      · exact .inl (htree.trans hsome.symm)
      · exact .inr (.inl hofFilter)
    · exact .inr (.inr hrangeKey)

/-- The size of another attribute is no sort condition, so the condition becomes the filter. -/
theorem query_filters_by_size :
    let o : QueryOptions :=
      { rangeKeyCondition := some (.compare (.size ⟨"tags", []⟩) .gt (.literal (.number "1"))) }
    let i : QueryInput :=
      { tableName := "posts"
        keyConditionExpression := some "#0 = :0"
        filterExpression := some "size (#1) > :1"
        expressionAttributeNames := [("#0", "forum"), ("#1", "tags")]
        expressionAttributeValues := [(":0", .string "a"), (":1", .number "1")]
        returnConsumedCapacity := some .total }
    Request.query ⟨"posts", ⟨"forum", some "subject"⟩, [], []⟩ {} (.string "a") o = .ok i ∧
      ∃ keys, Request.Routed keys (.string "a") o i none o.rangeKeyCondition := by
  intro o i
  have hquery : Request.query ⟨"posts", ⟨"forum", some "subject"⟩, [], []⟩ {} (.string "a") o =
      .ok i := rfl
  obtain ⟨keys, sort, filter, hkeys, hrouted⟩ := query_routes_conditions (by decide) hquery
  obtain rfl := Except.ok.inj hkeys
  refine ⟨hquery, ⟨"forum", some "subject"⟩, ?_⟩
  obtain ⟨hsort, -⟩ | ⟨rfl, rfl⟩ := hrouted.rangeKeyCondition _ rfl
  · obtain ⟨range, -, hform⟩ := hrouted.sortCondition _ hsort
    cases hform
  · exact hrouted

end TableClient
