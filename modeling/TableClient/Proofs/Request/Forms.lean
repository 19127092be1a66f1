import TableClient.Proofs.Expression.SortCondition
import TableClient.Request.Item
import TableClient.Request.Query
import TableClient.Request.Scan

/-!
# Maps and trees build the same requests

Conditions, updates and filters are given as trees or as maps. A map that can be read as a tree
builds the request that the tree builds, or is refused for the same reason: what is checked
beforehand does not tell the two forms apart, and behind the checks only the tree is used. Each
place where they meet has one equation (`resolveCondition`, `resolveActions`, `resolveFilter`,
`checkQueryForms`, `routeConditions`); the builders are not looked at any closer.
-/

namespace TableClient

/-! ## Maps that are trees -/

/-- What expectations are joined to needs one of them. -/
theorem Condition.ne_nil_of_ofExpected {expected : Dict ExpectedEntry}
    {op : Option ConditionalOperator} {c : Condition String AttributeValue}
    (h : ofExpected expected op = .ok (some c)) : expected ≠ [] := by
  rintro rfl
  cases h

theorem Condition.ne_nil_of_ofFilter {filter : Dict ConditionEntry}
    {op : Option ConditionalOperator} {c : Condition String AttributeValue}
    (h : ofFilter filter op = .ok (some c)) : filter ≠ [] := by
  rintro rfl
  cases h

namespace Request

/-! ## Where the forms meet -/

/-- Expectations that are joined to a tree are the condition that is this tree. -/
theorem resolveCondition_of_ofExpected {expected : Dict ExpectedEntry}
    {op : Option ConditionalOperator} {c : Condition String AttributeValue}
    (h : Condition.ofExpected expected op = .ok (some c)) :
    resolveCondition none expected op = resolveCondition (some c) [] none := by
  have hempty : expected.isEmpty = false :=
    List.isEmpty_eq_false_iff.mpr (Condition.ne_nil_of_ofExpected h)
  have hmap : resolveCondition none expected op = .ok (some c) := by
    rw [resolveCondition, hempty, h, Bool.and_false]
    rfl
  exact hmap

theorem resolveActions_of_ofMap (o : UpdateItemOptions) {updates : Dict UpdateEntry}
    {actions : List (UpdateAction String AttributeValue)} (hupdates : updates ≠ [])
    (h : UpdateAction.ofMap updates = .ok actions) :
    resolveActions { o with actions := [], attributeUpdates := updates } =
      resolveActions { o with actions, attributeUpdates := [] } := by
  have hempty : updates.isEmpty = false := List.isEmpty_eq_false_iff.mpr hupdates
  have htree : resolveActions { o with actions, attributeUpdates := [] } = .ok actions := by
    rw [resolveActions]
    dsimp only
    rw [List.isEmpty_nil, Bool.not_true, Bool.and_false]
    rfl
  rw [htree, resolveActions]
  dsimp only
  rw [hempty, h]
  rfl

theorem resolveFilter_of_ofFilter {filter : Dict ConditionEntry} {op : Option ConditionalOperator}
    {c : Condition String AttributeValue} (h : Condition.ofFilter filter op = .ok (some c)) :
    resolveFilter none filter op = resolveFilter (some c) [] none := by
  have hmap : resolveFilter none filter op = .ok (some c) := by
    rw [resolveFilter, h]
    rfl
  exact hmap

/-- An operator goes with a map that has entries. -/
theorem checkQueryForms_of_ne_nil (o : QueryOptions) {filter : Dict ConditionEntry}
    (op : Option ConditionalOperator) (c : Condition String AttributeValue)
    (hfilter : filter ≠ []) :
    checkQueryForms
        { o with filterCondition := none, queryFilter := filter, conditionalOperator := op } =
      checkQueryForms
        { o with filterCondition := some c, queryFilter := [], conditionalOperator := none } := by
  have hempty : filter.isEmpty = false := List.isEmpty_eq_false_iff.mpr hfilter
  rw [checkQueryForms, checkQueryForms]
  dsimp only
  rw [hempty, Bool.and_false]
  rfl

/-- One entry on the range key makes the sort condition that its tree is. -/
theorem routeConditions_of_keyCondition {keys : KeyNames} (o : QueryOptions) {range : String}
    {entry : ConditionEntry} {c : Condition String AttributeValue}
    (hrange : keys.range = some range)
    (h : entry.keyCondition range = .ok c) (filter : Option (Condition String AttributeValue)) :
    routeConditions keys { o with rangeKeyCondition := none, keyConditions := [(range, entry)] }
        filter =
      routeConditions keys { o with rangeKeyCondition := some c, keyConditions := [] } filter := by
  have hmap : sortOfMap keys [(range, entry)] = .ok (some c) := by
    rw [sortOfMap, List.foldlM_cons]
    dsimp only
    rw [if_pos hrange, h]
    rfl
  have htree : (keys.range.any fun name ↦ c.isSortCondition name) = true := by
    rw [hrange]
    exact (SortCondition.of_keyCondition h).isSortCondition
  rw [routeConditions, routeConditions]
  dsimp only
  rw [hmap, if_pos htree]
  rfl

/-! ## Builders -/

variable (table : TableDescriptor) (config : ClientConfig) (hash : AttributeValue)
  (range : Option AttributeValue)

section Expected

variable {expected : Dict ExpectedEntry} {op : Option ConditionalOperator}
  {c : Condition String AttributeValue}

theorem putItem_of_ofExpected (attributes : Item) (o : WriteOptions)
    (h : Condition.ofExpected expected op = .ok (some c)) :
    putItem table config hash range attributes
        { o with condition := none, expected, conditionalOperator := op } =
      putItem table config hash range attributes
        { o with condition := some c, expected := [], conditionalOperator := none } := by
  rw [putItem, putItem]
  dsimp only
  rw [resolveCondition_of_ofExpected h]

theorem updateItem_of_ofExpected (o : UpdateItemOptions)
    (h : Condition.ofExpected expected op = .ok (some c)) :
    updateItem table config hash range
        { o with condition := none, expected, conditionalOperator := op } =
      updateItem table config hash range
        { o with condition := some c, expected := [], conditionalOperator := none } := by
  rw [updateItem, updateItem]
  dsimp only
  rw [resolveCondition_of_ofExpected h]
  rfl

theorem deleteItem_of_ofExpected (o : WriteOptions)
    (h : Condition.ofExpected expected op = .ok (some c)) :
    deleteItem table config hash range
        { o with condition := none, expected, conditionalOperator := op } =
      deleteItem table config hash range
        { o with condition := some c, expected := [], conditionalOperator := none } := by
  rw [deleteItem, deleteItem]
  dsimp only
  rw [resolveCondition_of_ofExpected h]

end Expected

theorem updateItem_of_ofMap (o : UpdateItemOptions) {updates : Dict UpdateEntry}
    {actions : List (UpdateAction String AttributeValue)} (hupdates : updates ≠ [])
    (h : UpdateAction.ofMap updates = .ok actions) :
    updateItem table config hash range { o with actions := [], attributeUpdates := updates } =
      updateItem table config hash range { o with actions, attributeUpdates := [] } := by
  rw [updateItem, updateItem, resolveActions_of_ofMap o hupdates h]

section Filter

variable {filter : Dict ConditionEntry} {op : Option ConditionalOperator}
  {c : Condition String AttributeValue}

theorem query_of_ofFilter (o : QueryOptions) (h : Condition.ofFilter filter op = .ok (some c)) :
    query table config hash
        { o with filterCondition := none, queryFilter := filter, conditionalOperator := op } =
      query table config hash
        { o with filterCondition := some c, queryFilter := [], conditionalOperator := none } := by
  rw [query, query, checkQueryForms_of_ne_nil o op c (Condition.ne_nil_of_ofFilter h)]
  dsimp only
  rw [resolveFilter_of_ofFilter h]
  rfl

theorem scan_of_ofFilter (o : ScanOptions) (h : Condition.ofFilter filter op = .ok (some c)) :
    scan table config
        { o with filterCondition := none, scanFilter := filter, conditionalOperator := op } =
      scan table config
        { o with filterCondition := some c, scanFilter := [], conditionalOperator := none } := by
  have hempty : filter.isEmpty = false :=
    List.isEmpty_eq_false_iff.mpr (Condition.ne_nil_of_ofFilter h)
  rw [scan, scan]
  dsimp only
  rw [resolveFilter_of_ofFilter h, hempty, Bool.and_false]
  rfl

end Filter

theorem query_of_keyCondition {keys : KeyNames} (o : QueryOptions) {rangeKey : String}
    {entry : ConditionEntry} {c : Condition String AttributeValue}
    (hkeys : table.indexKeys o.indexName = .ok keys) (hrange : keys.range = some rangeKey)
    (h : entry.keyCondition rangeKey = .ok c) :
    query table config hash
        { o with rangeKeyCondition := none, keyConditions := [(rangeKey, entry)] } =
      query table config hash { o with rangeKeyCondition := some c, keyConditions := [] } := by
  have hforms : checkQueryForms
      { o with rangeKeyCondition := none, keyConditions := [(rangeKey, entry)] } =
      checkQueryForms { o with rangeKeyCondition := some c, keyConditions := [] } := rfl
  have hroute : routeConditions keys
      { o with rangeKeyCondition := none, keyConditions := [(rangeKey, entry)] } =
      routeConditions keys { o with rangeKeyCondition := some c, keyConditions := [] } :=
    funext (routeConditions_of_keyCondition o hrange h)
  have hkeys : table.indexKeys o.indexName = pure keys := hkeys
  -- the range key is that of the queried table or index, so the keys have to be known first
  rw [query, query, hforms]
  dsimp only
  rw [hkeys, pure_bind, pure_bind, hroute]

end Request

/-- **One request, two forms.** Wherever a map can be read as a tree, the request that is built from
the map is the one that is built from the tree, with all other options alike; and if one of them is
refused, so is the other one, for the same reason. -/
theorem maps_and_trees_build_same_requests (table : TableDescriptor) (config : ClientConfig)
    (hash : AttributeValue) :
    (∀ (expected : Dict ExpectedEntry) (op : Option ConditionalOperator)
        (c : Condition String AttributeValue), Condition.ofExpected expected op = .ok (some c) →
      ∀ range : Option AttributeValue,
        (∀ (attributes : Item) (o : WriteOptions),
          Request.putItem table config hash range attributes
              { o with condition := none, expected, conditionalOperator := op } =
            Request.putItem table config hash range attributes
              { o with condition := some c, expected := [], conditionalOperator := none }) ∧
        (∀ o : UpdateItemOptions,
          Request.updateItem table config hash range
              { o with condition := none, expected, conditionalOperator := op } =
            Request.updateItem table config hash range
              { o with condition := some c, expected := [], conditionalOperator := none }) ∧
        ∀ o : WriteOptions,
          Request.deleteItem table config hash range
              { o with condition := none, expected, conditionalOperator := op } =
            Request.deleteItem table config hash range
              { o with condition := some c, expected := [], conditionalOperator := none }) ∧
    (∀ (updates : Dict UpdateEntry) (actions : List (UpdateAction String AttributeValue)),
      updates ≠ [] → UpdateAction.ofMap updates = .ok actions →
      ∀ (range : Option AttributeValue) (o : UpdateItemOptions),
        Request.updateItem table config hash range
            { o with actions := [], attributeUpdates := updates } =
          Request.updateItem table config hash range { o with actions, attributeUpdates := [] }) ∧
    (∀ (filter : Dict ConditionEntry) (op : Option ConditionalOperator)
        (c : Condition String AttributeValue), Condition.ofFilter filter op = .ok (some c) →
      (∀ o : QueryOptions,
        Request.query table config hash
            { o with filterCondition := none, queryFilter := filter, conditionalOperator := op } =
          Request.query table config hash
            { o with filterCondition := some c, queryFilter := [], conditionalOperator := none }) ∧
      ∀ o : ScanOptions,
        Request.scan table config
            { o with filterCondition := none, scanFilter := filter, conditionalOperator := op } =
          Request.scan table config
            { o with filterCondition := some c, scanFilter := [], conditionalOperator := none }) ∧
    ∀ (o : QueryOptions) (keys : KeyNames) (rangeKey : String) (entry : ConditionEntry)
        (c : Condition String AttributeValue), table.indexKeys o.indexName = .ok keys →
      keys.range = some rangeKey → entry.keyCondition rangeKey = .ok c →
        Request.query table config hash
            { o with rangeKeyCondition := none, keyConditions := [(rangeKey, entry)] } =
          Request.query table config hash
            { o with rangeKeyCondition := some c, keyConditions := [] } := by
  refine ⟨?_, ?_, ?_, ?_⟩
  · intro expected op c h range
    refine ⟨?_, ?_, ?_⟩
    · intro attributes o
      exact Request.putItem_of_ofExpected table config hash range attributes o h
    · intro o
      exact Request.updateItem_of_ofExpected table config hash range o h
    · intro o
      exact Request.deleteItem_of_ofExpected table config hash range o h
  · intro updates actions hupdates h range o
    exact Request.updateItem_of_ofMap table config hash range o hupdates h
  · intro filter op c h
    constructor
    · intro o
      exact Request.query_of_ofFilter table config hash o h
    · intro o
      exact Request.scan_of_ofFilter table config o h
  · intro o keys rangeKey entry c hkeys hrange h
    exact Request.query_of_keyCondition table config hash o hkeys hrange h

private def threads : TableDescriptor where
  tableName := "threads"
  keys := ⟨"forum", some "subject"⟩
  attributeTypes := []
  indexes := [("byDate", ⟨"forum", some "posted"⟩)]

private def unpostedOrThreeReplies : Condition String AttributeValue :=
  .or (Path.missing ⟨"posted", []⟩) (Path.equals ⟨"replies", []⟩ (.number "3"))

private def titleLacksX : Condition String AttributeValue :=
  .not (Path.contains ⟨"title", []⟩ (.literal (.string "x")))

/-- An update and a query of an index, with everything given as maps. -/
theorem thread_requests_from_maps :
    let update : UpdateItemInput :=
      { tableName := "threads"
        key := [("forum", .string "f"), ("subject", .string "s")]
        updateExpression := some "REMOVE #2 ADD #1 :1"
        conditionExpression := some "(attribute_not_exists (#0) OR #1 = :0)"
        expressionAttributeNames := [("#0", "posted"), ("#1", "replies"), ("#2", "title")]
        expressionAttributeValues := [(":0", .number "3"), (":1", .number "1")]
        returnConsumedCapacity := some .total }
    let query : QueryInput :=
      { tableName := "threads"
        indexName := some "byDate"
        keyConditionExpression := some "(#0 = :0 AND #1 >= :1)"
        filterExpression := some "(NOT contains (#2, :2))"
        expressionAttributeNames := [("#0", "forum"), ("#1", "posted"), ("#2", "title")]
        expressionAttributeValues :=
          [(":0", .string "f"), (":1", .string "2020"), (":2", .string "x")]
        returnConsumedCapacity := some .total }
    Request.updateItem threads {} (.string "f") (some (.string "s"))
        { expected := [("posted", { comparisonOperator := some .null }),
            ("replies", { value := some (.number "3") })]
          conditionalOperator := some .or
          attributeUpdates := [("replies", { value := some (.number "1"), action := some .add }),
            ("title", { action := some .delete })] } = .ok update ∧
      Request.query threads {} (.string "f")
        { indexName := some "byDate"
          keyConditions := [("posted", ⟨.ge, [.string "2020"]⟩)]
          queryFilter := [("title", ⟨.notContains, [.string "x"]⟩)] } = .ok query := by
  intro update query
  obtain ⟨hexpected, hupdates, hfilter, hkey⟩ :=
    maps_and_trees_build_same_requests threads {} (.string "f")
  constructor
  · obtain ⟨-, hcondition, -⟩ := hexpected
      [("posted", { comparisonOperator := some .null }),
        ("replies", { value := some (.number "3") })]
      (some .or) unpostedOrThreeReplies rfl (some (.string "s"))
    have hactions := hupdates
      [("replies", { value := some (.number "1"), action := some .add }),
        ("title", { action := some .delete })]
      [.add ⟨"replies", []⟩ (.number "1"), .remove ⟨"title", []⟩] (List.cons_ne_nil _ _) rfl
      (some (.string "s")) { condition := some unpostedOrThreeReplies }
    refine (hcondition { attributeUpdates := _ }).trans (hactions.trans ?_)
    rfl
  · have hsort := hkey
      { indexName := some "byDate", queryFilter := [("title", ⟨.notContains, [.string "x"]⟩)] }
      ⟨"forum", some "posted"⟩ "posted" ⟨.ge, [.string "2020"]⟩
      (Path.compare ⟨"posted", []⟩ .ge (.string "2020")) rfl rfl rfl
    obtain ⟨htitle, -⟩ := hfilter [("title", ⟨.notContains, [.string "x"]⟩)] none titleLacksX rfl
    refine hsort.trans ((htitle { indexName := some "byDate", rangeKeyCondition := _ }).trans ?_)
    rfl

end TableClient
