import TableClient.Proofs.Expression.KeyCondition
import TableClient.Proofs.Request.PrimaryKey
import TableClient.Proofs.Request.Routing

/-!
# The types of key literals

The key condition of a query compares the hash key with the value that is asked for, and the range
key with the literals of the sort condition. Only the first is checked against the declared types.
What the range key is compared with is sent as it is: the literals have the declared types exactly
if they were given so (`QueryOptions.SortLiteral`), and a query stays accepted with any other
literals in their place (`QueryOptions.mapSortLiterals`).
-/

namespace TableClient

/-! ## Comparisons with literals -/

namespace Condition

variable {ν α : Type}

/-- Some comparison of the condition, at any depth, is between this attribute and this literal. -/
def Compares (name : ν) (value : α) : Condition ν α → Prop
  | .logical _ left right => left.Compares name value ∨ right.Compares name value
  | .not inner => inner.Compares name value
  | c => .reference ⟨name, []⟩ ∈ c.operands ∧ .literal value ∈ c.operands

theorem mem_literals_iff {c : Condition ν α} {value : α} :
    value ∈ c.literals ↔ .literal value ∈ c.operands := by
  rw [literals, List.mem_filterMap]
  constructor
  · rintro ⟨operand, hmem, hliteral⟩
    cases operand with
    | literal => exact Option.some.inj hliteral ▸ hmem
    | reference | size => cases hliteral
  · intro hmem
    exact ⟨_, hmem, rfl⟩

theorem operands_map {β μ : Type} {f : ν → μ} {g : α → β} {c : Condition ν α} :
    (c.map f g).operands = c.operands.map (Operand.map f g) := by
  induction c with
  | compare | between | among | function => rfl
  | logical op left right ihl ihr => rw [map, operands, operands, ihl, ihr, List.map_append]
  | not inner ih => exact ih

theorem attributes_map {c : Condition String AttributeValue} {g : AttributeValue → AttributeValue} :
    (c.map id g).attributes = c.attributes := by
  rw [attributes, attributes, operands_map, List.filterMap_map]
  refine congrArg (List.filterMap · c.operands) (funext fun operand ↦ ?_)
  cases operand <;> rfl

end Condition

namespace SortCondition

variable {ν α : Type} {key name : ν} {c : Condition ν α} {value : α}

/-- A sort condition compares its key with all its literals. -/
theorem compares_iff (h : SortCondition key c) :
    c.Compares name value ↔ name = key ∧ value ∈ c.literals := by
  rw [Condition.mem_literals_iff]
  cases h with
  | compare | between | beginsWith => simp [Condition.Compares, Condition.operands]

end SortCondition

/-! ## Maps of key conditions -/

namespace ConditionEntry

variable {entry : ConditionEntry} {name : String} {c : Condition String AttributeValue}

/-- The entry with other operands. -/
def mapValues (g : AttributeValue → AttributeValue) (entry : ConditionEntry) : ConditionEntry :=
  { entry with attributeValueList := entry.attributeValueList.map g }

theorem keyCondition_eq_ok_iff : entry.keyCondition name = .ok c ↔
    entry.comparisonOperator.ofKeys = true ∧
      entry.comparisonOperator.takes entry.attributeValueList.length = true ∧
      entry.comparisonOperator.condition? ⟨name, []⟩ entry.attributeValueList = some c := by
  rw [keyCondition]
  by_cases hop : entry.comparisonOperator.ofKeys = true
  · rw [if_pos hop, condition, ComparisonOperator.condition_eq_ok_iff,
      ComparisonOperator.suits_iff_of_ofKeys hop]
    simp only [hop, true_and]
  · simp [hop]

theorem literals_of_keyCondition (h : entry.keyCondition name = .ok c) :
    c.literals = entry.attributeValueList :=
  ComparisonOperator.literals_of_condition? (keyCondition_eq_ok_iff.mp h).2.2

/-- Other operands make the same comparison with other literals. -/
theorem keyCondition_mapValues (h : entry.keyCondition name = .ok c)
    (g : AttributeValue → AttributeValue) :
    (entry.mapValues g).keyCondition name = .ok (c.map id g) := by
  obtain ⟨op, values⟩ := entry
  obtain ⟨hop, htakes, hcondition⟩ := keyCondition_eq_ok_iff.mp h
  refine keyCondition_eq_ok_iff.mpr ⟨hop, ?_, ?_⟩
  · rwa [mapValues, List.length_map]
  · dsimp only [mapValues] at hop hcondition ⊢
    cases op with
    | ne | notNull | null | contains | notContains | isIn => cases hop
    | eq | le | lt | ge | gt | beginsWith | between =>
      rcases values with _ | ⟨x, _ | ⟨y, _ | ⟨z, rest⟩⟩⟩
      all_goals cases hcondition
      all_goals rfl

end ConditionEntry

/-! ## What is given for the sort key -/

namespace QueryOptions

/-- The sort key has this name, and the options compare it with this literal, as a tree or as an
entry of the map. -/
def SortLiteral (keys : KeyNames) (o : QueryOptions) (name : String) (value : AttributeValue) :
    Prop :=
  keys.range = some name ∧
    ((∃ c, o.rangeKeyCondition = some c ∧ SortCondition name c ∧ value ∈ c.literals) ∨
      ∃ entry, (name, entry) ∈ o.keyConditions ∧ value ∈ entry.attributeValueList)

/-- The options with other literals in the conditions given for the sort key. -/
def mapSortLiterals (g : AttributeValue → AttributeValue) (o : QueryOptions) : QueryOptions :=
  { o with
    rangeKeyCondition := o.rangeKeyCondition.map (Condition.map id g)
    keyConditions := o.keyConditions.map fun (name, entry) ↦ (name, entry.mapValues g) }

end QueryOptions

namespace Request

variable {keys : KeyNames} {o : QueryOptions}
  {given sort filter : Option (Condition String AttributeValue)} {table : TableDescriptor}
  {config : ClientConfig} {hash : AttributeValue}

/-- The sort condition compares the sort key with the literals that are given for it. -/
theorem RoutesTo.compares_iff (h : RoutesTo keys o given sort filter)
    (hforms : o.rangeKeyCondition.isSome → o.keyConditions = [])
    (havoids : ∀ c, filter = some c → ∀ path, c.LooksAt path →
      path.root ≠ keys.hash ∧ keys.range ≠ some path.root)
    {name : String} {value : AttributeValue} :
    (∃ c, sort = some c ∧ c.Compares name value) ↔ o.SortLiteral keys name value := by
  rw [QueryOptions.SortLiteral]
  cases h with
  | none hrangeKey hmap => simp [hrangeKey, hmap]
  | @sort c range hrangeKey hrange hsort =>
    have hmap : o.keyConditions = [] := hforms (by rw [hrangeKey]; rfl)
    simp only [hrangeKey, hrange, hmap, Option.some.injEq, exists_eq_left', hsort.compares_iff,
      List.not_mem_nil, false_and, exists_false, or_false]
    constructor
    · rintro ⟨rfl, hvalue⟩
      exact ⟨rfl, hsort, hvalue⟩
    · rintro ⟨rfl, -, hvalue⟩
      exact ⟨rfl, hvalue⟩
  | @filter c hrangeKey hgiven =>
    have hmap : o.keyConditions = [] := hforms (by rw [hrangeKey]; rfl)
    -- a filter looks at no key attribute, so it is no condition on the sort key
    have hnot (hrange : keys.range = some name) (hsort : SortCondition name c) : False :=
      (havoids c rfl _ hsort.looksAt).2 hrange
    constructor
    · rintro ⟨_, hnone, -⟩
      cases hnone
    · rintro ⟨hrange, ⟨c', hc', hsort, -⟩ | ⟨entry, hmem, -⟩⟩
      · obtain rfl := Option.some.inj (hrangeKey.symm.trans hc')
        exact (hnot hrange hsort).elim
      · rw [hmap] at hmem
        cases hmem
  | @map range entry c hrangeKey hmap hrange hentry =>
    have hsort := SortCondition.of_keyCondition hentry
    have hliterals := ConditionEntry.literals_of_keyCondition hentry
    simp only [hrangeKey, hrange, hmap, Option.some.injEq, exists_eq_left', hsort.compares_iff,
      hliterals, reduceCtorEq, false_and, exists_false, false_or, List.mem_singleton,
      Prod.mk.injEq]
    constructor
    · rintro ⟨rfl, hvalue⟩
      exact ⟨rfl, entry, ⟨rfl, rfl⟩, hvalue⟩
    · rintro ⟨rfl, _, ⟨-, rfl⟩, hvalue⟩
      exact ⟨rfl, hvalue⟩

/-! ## Building a query -/

/-- A query is built if each step of building it succeeds. -/
theorem query_eq_ok_iff {i : QueryInput} : query table config hash o = .ok i ↔
    ∃ keys given sort filter limit key filterText projectionText u u' t,
      table.indexKeys o.indexName = .ok keys ∧ table.HasDeclaredType keys.hash hash ∧
      checkQueryForms o = .ok () ∧
      resolveFilter o.filterCondition o.queryFilter o.conditionalOperator = .ok given ∧
      routeConditions keys o given = .ok (sort, filter) ∧
      filter.forM (checkFilterKeys keys) = .ok () ∧ wireLimit o.limit = .ok limit ∧
      (((⟨keys.hash, []⟩ : Path String).equals hash).compileKey sort).Yields {} key u ∧
      (optionalCondition filter).Yields u filterText u' ∧
      (projection o.attributesToGet).Yields u' projectionText t ∧
      i = {
        tableName := table.tableName
        indexName := o.indexName
        keyConditionExpression := some key
        filterExpression := filterText
        projectionExpression := projectionText
        expressionAttributeNames := t.attributeNames
        expressionAttributeValues := t.attributeValues
        scanIndexForward := o.scanIndexForward
        limit := limit
        exclusiveStartKey := o.exclusiveStartKey.getD []
        select := o.select
        consistentRead := o.consistentRead
        returnConsumedCapacity := capacityLevel config o.returnConsumedCapacity } := by
  simp only [query, Except.bind_eq_ok_iff, Prod.exists, Checked.expressions_eq_ok_iff,
    Interning.yields_bind_iff, Interning.yields_pure_iff]
  constructor
  · rintro ⟨keys, hkeys, _, htype, _, hforms, given, hgiven, sort, filter, hroute, _, hcheck, key,
      filterText, projectionText, t, ⟨_, u, hkey, _, u', hfilter, _, t', hprojection, heq, rfl⟩,
      limit, hlimit, h⟩
    obtain ⟨rfl, htexts⟩ := Prod.mk.inj heq
    obtain ⟨rfl, rfl⟩ := Prod.mk.inj htexts
    obtain rfl := Except.ok.inj h
    exact ⟨keys, given, sort, filter, limit, _, _, _, u, u', _, hkeys,
      TableDescriptor.checkKeyType_eq_ok_iff.mp htype, hforms, hgiven, hroute, hcheck, hlimit, hkey,
      hfilter, hprojection, rfl⟩
  · rintro ⟨keys, given, sort, filter, limit, key, filterText, projectionText, u, u', t, hkeys,
      htype, hforms, hgiven, hroute, hcheck, hlimit, hkey, hfilter, hprojection, rfl⟩
    exact ⟨keys, hkeys, (), TableDescriptor.checkKeyType_eq_ok_iff.mpr htype, (), hforms, given,
      hgiven, sort, filter, hroute, (), hcheck, key, filterText, projectionText, t,
      ⟨_, u, hkey, _, u', hfilter, _, t, hprojection, rfl, rfl⟩, limit, hlimit, rfl⟩

/-- The key condition reads back with the placeholders of the whole request. -/
theorem ofExpression?_keyCondition {key : String} {filterText projectionText : Option String}
    {u u' t : PlaceholderTable}
    (hkey : (((⟨keys.hash, []⟩ : Path String).equals hash).compileKey sort).Yields {} key u)
    (hfilter : (optionalCondition filter).Yields u filterText u')
    (hprojection : (projection o.attributesToGet).Yields u' projectionText t) :
    Condition.ofExpression? t.attributeNames t.attributeValues key =
      some (keyCondition keys hash sort) := by
  obtain ⟨os, hnum, -⟩ := printed_of_optionalCondition hfilter
  obtain ⟨os', hnum', -⟩ := printed_of_projection hprojection
  exact conditionOf?_of_compileKey hkey (hnum.append hnum')

/-! ## Other literals for the sort key -/

section OtherLiterals

variable (g : AttributeValue → AttributeValue)

theorem sortOfMap_mapValues {entries : List (String × ConditionEntry)}
    (h : sortOfMap keys entries = .ok sort) :
    sortOfMap keys (entries.map fun (name, entry) ↦ (name, entry.mapValues g)) =
      .ok (sort.map (Condition.map id g)) := by
  have hnone : (none : Option (Condition String AttributeValue)) =
      Option.map (Condition.map id g) none := rfl
  rw [sortOfMap] at h ⊢
  rw [hnone]
  -- an entry replaces the sort condition so far, which is any one in the induction
  generalize (none : Option (Condition String AttributeValue)) = before at h ⊢
  induction entries generalizing before with
  | nil =>
    obtain rfl := Except.pure_eq_ok_iff.mp h
    rfl
  | cons first entries ih =>
    obtain ⟨name, entry⟩ := first
    rw [List.foldlM_cons, Except.bind_eq_ok_iff] at h
    obtain ⟨after, hfirst, h⟩ := h
    rw [List.map_cons, List.foldlM_cons, Except.bind_eq_ok_iff]
    refine ⟨_, ?_, ih after h⟩
    dsimp only at hfirst ⊢
    split at hfirst
    · next hrange =>
      obtain ⟨c, hc, rfl⟩ := Except.map_eq_ok_iff.mp hfirst
      have hc := ConditionEntry.keyCondition_mapValues (Except.mapError_eq_ok_iff.mp hc) g
      rw [if_pos hrange, hc]
      rfl
    · cases hfirst

theorem routeConditions_mapSortLiterals (h : routeConditions keys o given = .ok (sort, filter)) :
    ∃ filter', routeConditions keys (o.mapSortLiterals g) given =
        .ok (sort.map (Condition.map id g), filter') ∧
      (filter' = filter ∨ filter' = filter.map (Condition.map id g)) := by
  rw [routeConditions] at h ⊢
  cases hrangeKey : o.rangeKeyCondition with
  | none =>
    rw [hrangeKey] at h
    simp only [Except.bind_eq_ok_iff, Except.pure_eq_ok_iff, Prod.mk.injEq] at h
    obtain ⟨_, hmap, rfl, rfl⟩ := h
    refine ⟨given, ?_, .inl rfl⟩
    simp only [QueryOptions.mapSortLiterals, hrangeKey, Option.map_none,
      sortOfMap_mapValues g hmap]
    rfl
  | some c =>
    have hsame : (c.map id g).isSortCondition = c.isSortCondition :=
      funext (c.isSortCondition_map Function.injective_id)
    rw [hrangeKey] at h
    simp only [QueryOptions.mapSortLiterals, hrangeKey, Option.map_some, hsame]
    dsimp only at h
    split at h
    · next hsort =>
      obtain ⟨rfl, rfl⟩ := Prod.mk.inj (Except.ok.inj h)
      rw [if_pos hsort]
      exact ⟨_, rfl, .inl rfl⟩
    · next hsort =>
      rw [if_neg hsort]
      split at h
      · next hgiven =>
        obtain ⟨rfl, rfl⟩ := Prod.mk.inj (Except.ok.inj h)
        rw [if_pos hgiven]
        exact ⟨_, rfl, .inr rfl⟩
      · cases h

theorem checkQueryForms_mapSortLiterals :
    checkQueryForms (o.mapSortLiterals g) = checkQueryForms o := by
  simp [checkQueryForms, QueryOptions.mapSortLiterals]

theorem forM_checkFilterKeys_map :
    (filter.map (Condition.map id g)).forM (checkFilterKeys keys) =
      filter.forM (checkFilterKeys keys) := by
  cases filter with
  | none => rfl
  | some c =>
    show checkFilterKeys keys (c.map id g) = checkFilterKeys keys c
    rw [checkFilterKeys, checkFilterKeys, Condition.attributes_map]

/-- A key condition is compiled whatever literals it has and whatever was interned before. -/
theorem total_compileKey_map {t u : PlaceholderTable} {text : String}
    (h : (((⟨keys.hash, []⟩ : Path String).equals hash).compileKey sort).Yields t text u) :
    Interning.Total (((⟨keys.hash, []⟩ : Path String).equals hash).compileKey
      (sort.map (Condition.map id g))) := by
  have hkey := Condition.exists_compileKey_iff.mp ⟨text, u, h⟩
  intro t'
  exact Condition.exists_compileKey_iff.mpr (hkey.map_sort g)

theorem total_optionalCondition {filter' : Option (Condition String AttributeValue)}
    {t u : PlaceholderTable} {text : Option String}
    (h : (optionalCondition filter).Yields t text u)
    (hfilter : filter' = filter ∨ filter' = filter.map (Condition.map id g)) :
    Interning.Total (optionalCondition filter') := by
  cases filter with
  | none =>
    obtain rfl : filter' = none := hfilter.elim id id
    exact .pure _
  | some c =>
    obtain ⟨_, hc, -⟩ := Interning.yields_map_iff.mp h
    have hc := Condition.expressible_of_compile hc
    obtain rfl | rfl := hfilter
    · exact (Condition.total_compile hc).map _
    · exact (Condition.total_compile (Condition.expressible_map.mpr hc)).map _

theorem total_projection {attributesToGet : List String} {t u : PlaceholderTable}
    {text : Option String} (h : (projection attributesToGet).Yields t text u) :
    Interning.Total (projection attributesToGet) := by
  rw [projection] at h ⊢
  split at h
  · next hempty =>
    rw [if_pos hempty]
    exact .pure _
  · next hempty =>
    rw [if_neg hempty]
    obtain ⟨paths, _, hpaths, -⟩ := Interning.yields_bind_iff.mp h
    exact (Interning.Total.require (Interning.yields_require_iff.mp hpaths).1).bind fun paths ↦
      (Path.internsOf_compileProjection paths).total.map _

/-- A query is built whatever the literals are that the sort key is compared with. -/
theorem exists_query_mapSortLiterals {i : QueryInput} (h : query table config hash o = .ok i) :
    ∃ i', query table config hash (o.mapSortLiterals g) = .ok i' := by
  obtain ⟨keys, given, sort, filter, limit, _, _, _, _, _, _, hkeys, htype, hforms, hgiven, hroute,
    hcheck, hlimit, hkey, hfilter, hprojection, -⟩ := query_eq_ok_iff.mp h
  obtain ⟨filter', hroute', hfilter'⟩ := routeConditions_mapSortLiterals g hroute
  obtain ⟨key, u, hkey'⟩ := total_compileKey_map g hkey {}
  obtain ⟨filterText, u', hfilterText⟩ := total_optionalCondition g hfilter hfilter' u
  obtain ⟨projectionText, t, hprojectionText⟩ := total_projection hprojection u'
  have hcheck' : filter'.forM (checkFilterKeys keys) = .ok () := by
    obtain rfl | rfl := hfilter'
    · exact hcheck
    · rwa [forM_checkFilterKeys_map]
  rw [← checkQueryForms_mapSortLiterals g] at hforms
  exact ⟨_, query_eq_ok_iff.mpr ⟨keys, given, _, filter', limit, key, filterText, projectionText, u,
    u', t, hkeys, htype, hforms, hgiven, hroute', hcheck', hlimit, hkey', hfilterText,
    hprojectionText, rfl⟩⟩

end OtherLiterals

/-! ## What the key condition compares -/

theorem keyCondition_compares_iff {name : String} {value : AttributeValue} :
    (keyCondition keys hash sort).Compares name value ↔
      (name = keys.hash ∧ value = hash) ∨ ∃ c, sort = some c ∧ c.Compares name value := by
  have hpartition : (Condition.compare (.reference (⟨keys.hash, []⟩ : Path String)) .eq
      (.literal hash)).Compares name value ↔ name = keys.hash ∧ value = hash := by
    simp [Condition.Compares, Condition.operands]
  cases sort with
  | none => simpa [keyCondition] using hpartition
  | some c => simpa [keyCondition, Condition.Compares] using or_congr_left hpartition

theorem mem_literals_keyCondition_iff {value : AttributeValue} :
    value ∈ (keyCondition keys hash sort).literals ↔
      value = hash ∨ ∃ c, sort = some c ∧ value ∈ c.literals := by
  simp only [Condition.mem_literals_iff]
  cases sort with
  | none => simp [keyCondition, Condition.operands]
  | some c => simp [keyCondition, Condition.operands]

end Request

/-- **Key literals.** The key condition of a query compares the hash key with the value that is
asked for and the range key with the literals that are given for it, and nothing else. The value of
the hash key has its declared type. So all literals have the declared types of their keys exactly if
those given for the range key have, and any others in their place are accepted as well. -/
theorem query_key_literals_typed_iff {table : TableDescriptor} {config : ClientConfig}
    {hash : AttributeValue} {o : QueryOptions} {i : QueryInput}
    (hdistinct : (o.keyConditions.map Prod.fst).Nodup)
    (h : Request.query table config hash o = .ok i) :
    ∃ keys c, table.indexKeys o.indexName = .ok keys ∧
      i.keyConditionExpression.map (Request.conditionOf? i) = some (some c) ∧
      (∀ value ∈ c.literals, ∃ name ∈ keys.toList, c.Compares name value) ∧
      (∀ name value, c.Compares name value ↔
        (name = keys.hash ∧ value = hash) ∨ o.SortLiteral keys name value) ∧
      table.HasDeclaredType keys.hash hash ∧
      ((∀ name value, c.Compares name value → table.HasDeclaredType name value) ↔
        ∀ name value, o.SortLiteral keys name value → table.HasDeclaredType name value) ∧
      ∀ g, ∃ i', Request.query table config hash (o.mapSortLiterals g) = .ok i' := by
  obtain ⟨keys, given, sort, filter, limit, _, _, _, _, _, _, hkeys, htype, hforms, -, hroute,
    hcheck, -, hkey, hfilter, hprojection, rfl⟩ := Request.query_eq_ok_iff.mp h
  have hread := Request.ofExpression?_keyCondition hkey hfilter hprojection
  have havoids (c : Condition String AttributeValue) (hc : filter = some c) (path : Path String)
      (hpath : c.LooksAt path) : path.root ≠ keys.hash ∧ keys.range ≠ some path.root := by
    rw [hc] at hcheck
    exact Request.avoids_of_checkFilterKeys hcheck hpath
  have hroutes := Request.routesTo_of_routeConditions hdistinct hroute
  have hcompares (name : String) (value : AttributeValue) :
      (Request.keyCondition keys hash sort).Compares name value ↔
        (name = keys.hash ∧ value = hash) ∨ o.SortLiteral keys name value := by
    rw [Request.keyCondition_compares_iff,
      hroutes.compares_iff (Request.exclusive_of_checkQueryForms hforms).1 havoids]
  refine ⟨keys, Request.keyCondition keys hash sort, hkeys, congrArg some hread, ?_, hcompares,
    htype, ?_, fun g ↦ Request.exists_query_mapSortLiterals g h⟩
  · intro value hvalue
    obtain rfl | ⟨c, hc, hvalue⟩ := Request.mem_literals_keyCondition_iff.mp hvalue
    · exact ⟨keys.hash, .head _, (hcompares _ _).mpr (.inl ⟨rfl, rfl⟩)⟩
    · obtain ⟨range, hrange, hsort⟩ := hroutes.sortCondition c hc
      refine ⟨range, .tail _ (Option.mem_toList.mpr hrange), ?_⟩
      exact Request.keyCondition_compares_iff.mpr
        (.inr ⟨c, hc, hsort.compares_iff.mpr ⟨rfl, hvalue⟩⟩)
  · constructor
    · intro hall name value hvalue
      exact hall name value ((hcompares name value).mpr (.inr hvalue))
    · intro hgiven name value hvalue
      obtain ⟨rfl, rfl⟩ | hvalue := (hcompares name value).mp hvalue
      · exact htype
      · exact hgiven name value hvalue

/-! ## Sort conditions on a text key -/

private def forumThreads : TableDescriptor :=
  ⟨"threads", ⟨"forum", some "subject"⟩, [("forum", .s), ("subject", .s)], []⟩

/-- A text key is compared with numbers, in a tree and in a map, though no number is taken for the
hash key. -/
theorem query_with_numbers_for_text_key :
    let equal : Condition String AttributeValue :=
      (⟨"subject", []⟩ : Path String).equals (.number "7")
    (∃ i c, Request.query forumThreads {} (.string "f") { rangeKeyCondition := some equal } =
        .ok i ∧ i.keyConditionExpression.map (Request.conditionOf? i) = some (some c) ∧
        c.Compares "subject" (.number "7")) ∧
      ¬ forumThreads.HasDeclaredType "subject" (.number "7") ∧
      (∃ i, Request.query forumThreads {} (.string "f")
        { keyConditions := [("subject", ⟨.between, [.string "a", .number "7"]⟩)] } = .ok i) ∧
      Request.query forumThreads {} (.number "7") {} =
        .error (.validation (.keyType "forum" .s .n)) := by
  intro equal
  have hquery : Request.query forumThreads {} (.string "f") { rangeKeyCondition := some equal } =
      .ok
        { tableName := "threads"
          keyConditionExpression := some "(#0 = :0 AND #1 = :1)"
          expressionAttributeNames := [("#0", "forum"), ("#1", "subject")]
          expressionAttributeValues := [(":0", .string "f"), (":1", .number "7")]
          returnConsumedCapacity := some .total } := rfl
  obtain ⟨keys, given, sort, filter, _, _, _, _, _, _, _, hkeys, -, -, -, hroute, -, -, hkey,
    hfilter, hprojection, heq⟩ := Request.query_eq_ok_iff.mp hquery
  obtain rfl : forumThreads.keys = keys := Except.ok.inj hkeys
  obtain ⟨rfl, -⟩ : some equal = sort ∧ given = filter := Prod.mk.inj (Except.ok.inj hroute)
  have hread := Request.ofExpression?_keyCondition hkey hfilter hprojection
  rw [heq] at hquery
  refine ⟨⟨_, _, hquery, congrArg some hread, ?_⟩, ?_, ⟨_, rfl⟩, rfl⟩
  · exact .inr ⟨.head _, .tail _ (.head _)⟩
  · intro htype
    cases htype .s rfl

/-- A range of texts on a text key. -/
theorem query_with_texts_for_text_key :
    let o : QueryOptions :=
      { keyConditions := [("subject", ⟨.between, [.string "a", .string "c"]⟩)] }
    ∃ i c, Request.query forumThreads {} (.string "f") o = .ok i ∧
      i.keyConditionExpression.map (Request.conditionOf? i) = some (some c) ∧
      c.Compares "subject" (.string "c") ∧
      ∀ name value, c.Compares name value → forumThreads.HasDeclaredType name value := by
  intro o
  have hquery : Request.query forumThreads {} (.string "f") o = .ok
      { tableName := "threads"
        keyConditionExpression := some "(#0 = :0 AND #1 BETWEEN :1 AND :2)"
        expressionAttributeNames := [("#0", "forum"), ("#1", "subject")]
        expressionAttributeValues :=
          [(":0", .string "f"), (":1", .string "a"), (":2", .string "c")]
        returnConsumedCapacity := some .total } := rfl
  obtain ⟨keys, c, hkeys, hread, -, hcompares, -, htyped, -⟩ :=
    query_key_literals_typed_iff (by decide) hquery
  obtain rfl := Except.ok.inj hkeys
  refine ⟨_, c, hquery, hread, (hcompares _ _).mpr (.inr ⟨rfl, .inr ⟨_, .head _, ?_⟩⟩), ?_⟩
  · exact .tail _ (.head _)
  · refine htyped.mpr ?_
    rintro name value ⟨-, ⟨_, hnone, -⟩ | ⟨entry, hmem, hvalue⟩⟩
    · cases hnone
    · obtain ⟨rfl, rfl⟩ := Prod.mk.inj (List.mem_singleton.mp hmem)
      intro type htype
      obtain rfl : .s = type := Option.some.inj htype
      obtain rfl | rfl : value = .string "a" ∨ value = .string "c" := by simpa using hvalue
      · rfl
      · rfl

end TableClient
