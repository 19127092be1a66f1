import TableClient.Ascending
import TableClient.Payload.Input
import TableClient.Request.Parts
import TableClient.TableDescriptor
/-!
# Query requests

A query names one partition and may narrow it by a condition on the sort key. A condition given for
the sort key that is none is taken as the filter, if there is no other filter.
-/

namespace TableClient

/-- What a query looks for, the value of the hash key apart. -/
structure QueryOptions where
  rangeKeyCondition : Option (Condition String AttributeValue) := none
  filterCondition : Option (Condition String AttributeValue) := none
  /-- The condition on the sort key as a map, its entries in the order in which they are visited. -/
  keyConditions : List (String × ConditionEntry) := []
  /-- The filter as a map. -/
  queryFilter : Dict ConditionEntry := []
  /-- How the entries of `queryFilter` are joined. -/
  conditionalOperator : Option ConditionalOperator := none
  attributesToGet : List String := []
  consistentRead : Option Bool := none
  exclusiveStartKey : Option Key := none
  indexName : Option String := none
  limit : Option UInt32 := none
  returnConsumedCapacity : Option ReturnConsumedCapacity := none
  scanIndexForward : Option Bool := none
  select : Option Select := none

namespace Request

/-- The sort condition that a map of key conditions makes. The first entry that is not on the range
key or is no key condition is refused; of several entries the last one counts. -/
def sortOfMap (keys : KeyNames) (entries : List (String × ConditionEntry)) :
    Checked (Option (Condition String AttributeValue)) :=
  entries.foldlM
    (fun _ (name, entry) =>
      if keys.range = some name then some <$> Checked.expression (entry.keyCondition name)
      else .error (.validation (.keyConditionOff name)))
    none

/-- The sort condition and the filter of a query, given its filter so far. -/
def routeConditions (keys : KeyNames) (o : QueryOptions)
    (filter : Option (Condition String AttributeValue)) :
    Checked (Option (Condition String AttributeValue) × Option (Condition String AttributeValue)) :=
  match o.rangeKeyCondition with
  | some c =>
    if keys.range.any fun name => c.isSortCondition name then .ok (some c, filter)
    else if filter.isNone then .ok (none, some c)
    else .error (.validation (.notRangeKeyCondition keys.range))
  | none => do
    let sort ← sortOfMap keys o.keyConditions
    return (sort, filter)

/-- Refuses a filter that looks at a key attribute, and reports the smallest one. -/
def checkFilterKeys (keys : KeyNames) (filter : Condition String AttributeValue) : Checked Unit :=
  match (ascending (fun x y => decide (x < y)) filter.attributes).find? keys.has with
  | some name => .error (.validation (.filterOnKey name))
  | none => .ok ()

/-- Refuses conditions that are given twice, and an operator that joins nothing. -/
def checkQueryForms (o : QueryOptions) : Checked Unit := do
  Checked.refuseIf (o.rangeKeyCondition.isSome && !o.keyConditions.isEmpty)
    .rangeKeyAndKeyConditions
  Checked.refuseIf (o.filterCondition.isSome && !o.queryFilter.isEmpty) .filterAndQueryFilter
  Checked.refuseIf (o.conditionalOperator.isSome && o.queryFilter.isEmpty)
    .operatorWithoutQueryFilter
  checkSelect o.select (!o.attributesToGet.isEmpty) o.indexName.isSome

def query (table : TableDescriptor) (config : ClientConfig) (hash : AttributeValue)
    (o : QueryOptions) : Checked QueryInput := do
  let keys ← table.indexKeys o.indexName
  table.checkKeyType keys.hash hash
  checkQueryForms o
  let filter ← resolveFilter o.filterCondition o.queryFilter o.conditionalOperator
  let (sort, filter) ← routeConditions keys o filter
  filter.forM (checkFilterKeys keys)
  let partition := (⟨keys.hash, []⟩ : Path String).equals hash
  let ((keyCondition, filter, projection), placeholders) ← Checked.expressions do
    let keyCondition ← partition.compileKey sort
    let filter ← optionalCondition filter
    let projection ← projection o.attributesToGet
    return (keyCondition, filter, projection)
  return {
    tableName := table.tableName
    indexName := o.indexName
    keyConditionExpression := some keyCondition
    filterExpression := filter
    projectionExpression := projection
    expressionAttributeNames := placeholders.attributeNames
    expressionAttributeValues := placeholders.attributeValues
    scanIndexForward := o.scanIndexForward
    limit := ← wireLimit o.limit
    exclusiveStartKey := o.exclusiveStartKey.getD []
    select := o.select
    consistentRead := o.consistentRead
    returnConsumedCapacity := capacityLevel config o.returnConsumedCapacity }

end Request
end TableClient
