import TableClient.Payload.Input
import TableClient.Request.Parts
import TableClient.TableDescriptor
/-!
# Requests about single items
-/

namespace TableClient

/-- How items are read. -/
structure ReadOptions where
  consistentRead : Option Bool := none
  /-- Paths of what to return; everything if there are none. -/
  attributesToGet : List String := []
  returnConsumedCapacity : Option ReturnConsumedCapacity := none

/-- On what condition an item is written, and what the answer is to hold. -/
structure WriteOptions where
  condition : Option (Condition String AttributeValue) := none
  /-- The condition as a map. -/
  expected : Dict ExpectedEntry := []
  /-- How the entries of `expected` are joined. -/
  conditionalOperator : Option ConditionalOperator := none
  returnValues : Option ReturnValue := none
  returnConsumedCapacity : Option ReturnConsumedCapacity := none
  returnItemCollectionMetrics : Option ReturnItemCollectionMetrics := none

/-- How an item is updated. -/
structure UpdateItemOptions extends WriteOptions where
  actions : List (UpdateAction String AttributeValue) := []
  /-- The actions as a map. -/
  attributeUpdates : Dict UpdateEntry := []

namespace Request

def getItem (table : TableDescriptor) (hash : AttributeValue) (range : Option AttributeValue)
    (o : ReadOptions) : Checked GetItemInput := do
  let key ← table.buildKey hash range
  let (projection, placeholders) ← Checked.expressions (projection o.attributesToGet)
  return {
    tableName := table.tableName
    key
    consistentRead := o.consistentRead
    projectionExpression := projection
    expressionAttributeNames := placeholders.attributeNames
    returnConsumedCapacity := o.returnConsumedCapacity }

/-- The request to put an item: the key together with the attributes. Where the attributes name a
key attribute, theirs is sent. -/
def putItem (table : TableDescriptor) (config : ClientConfig) (hash : AttributeValue)
    (range : Option AttributeValue) (attributes : Item) (o : WriteOptions) :
    Checked PutItemInput := do
  let key ← table.buildKey hash range
  let condition ← resolveCondition o.condition o.expected o.conditionalOperator
  let (condition, placeholders) ← Checked.expressions (optionalCondition condition)
  return {
    tableName := table.tableName
    item := Dict.merge key attributes
    conditionExpression := condition
    expressionAttributeNames := placeholders.attributeNames
    expressionAttributeValues := placeholders.attributeValues
    returnValues := o.returnValues
    returnConsumedCapacity := capacityLevel config o.returnConsumedCapacity
    returnItemCollectionMetrics := o.returnItemCollectionMetrics }

/-- The actions of an update, given as such or as a map. -/
def resolveActions (o : UpdateItemOptions) :
    Checked (List (UpdateAction String AttributeValue)) := do
  Checked.refuseIf (!o.actions.isEmpty && !o.attributeUpdates.isEmpty) .actionsAndUpdates
  if o.attributeUpdates.isEmpty then return o.actions
  else Checked.expression (UpdateAction.ofMap o.attributeUpdates)

def updateItem (table : TableDescriptor) (config : ClientConfig) (hash : AttributeValue)
    (range : Option AttributeValue) (o : UpdateItemOptions) : Checked UpdateItemInput := do
  let key ← table.buildKey hash range
  let actions ← resolveActions o
  let condition ← resolveCondition o.condition o.expected o.conditionalOperator
  let ((condition, update), placeholders) ← Checked.expressions do
    let condition ← optionalCondition condition
    let update ← UpdateAction.compile actions
    return (condition, update)
  return {
    tableName := table.tableName
    key
    updateExpression := some update
    conditionExpression := condition
    expressionAttributeNames := placeholders.attributeNames
    expressionAttributeValues := placeholders.attributeValues
    returnValues := o.returnValues
    returnConsumedCapacity := capacityLevel config o.returnConsumedCapacity
    returnItemCollectionMetrics := o.returnItemCollectionMetrics }

def deleteItem (table : TableDescriptor) (config : ClientConfig) (hash : AttributeValue)
    (range : Option AttributeValue) (o : WriteOptions) : Checked DeleteItemInput := do
  let key ← table.buildKey hash range
  let condition ← resolveCondition o.condition o.expected o.conditionalOperator
  let (condition, placeholders) ← Checked.expressions (optionalCondition condition)
  return {
    tableName := table.tableName
    key
    conditionExpression := condition
    expressionAttributeNames := placeholders.attributeNames
    expressionAttributeValues := placeholders.attributeValues
    returnValues := o.returnValues
    returnConsumedCapacity := capacityLevel config o.returnConsumedCapacity
    returnItemCollectionMetrics := o.returnItemCollectionMetrics }

end Request
end TableClient
