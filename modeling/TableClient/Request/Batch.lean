import TableClient.Request.Item
/-!
# Batch requests

A batch is cut into requests of the greatest number of elements that the service takes in one, in
the order of its elements; puts come before deletes.
-/

namespace TableClient

/-- What the answers to a batch of writes are to hold. -/
structure BatchWriteOptions where
  returnConsumedCapacity : Option ReturnConsumedCapacity := none
  returnItemCollectionMetrics : Option ReturnItemCollectionMetrics := none

/-- The parts of a list with `size` items each, the last one with what is left. -/
def chunks {α : Type} (size : Nat) : List α → List (List α)
  | [] => []
  | x :: xs => (x :: xs.take (size - 1)) :: chunks size (xs.drop (size - 1))
termination_by items => items.length
decreasing_by simp only [List.length_drop, List.length_cons]; omega

namespace Request

/-- How many keys one request reads. -/
def maxBatchGetKeys : Nat := 100

/-- How many items one request puts and deletes. -/
def maxBatchWriteItems : Nat := 25

def batchGet (table : TableDescriptor) (config : ClientConfig) (keys : List Key)
    (o : ReadOptions) : Checked (List BatchGetItemInput) := do
  Checked.refuseIf keys.isEmpty .emptyBatchGet
  keys.forM table.checkItemKeys
  let (projection, placeholders) ← Checked.expressions (projection o.attributesToGet)
  return (chunks maxBatchGetKeys keys).map fun chunk => {
    requestItems := [(table.tableName, {
      keys := chunk
      projectionExpression := projection
      expressionAttributeNames := placeholders.attributeNames
      consistentRead := o.consistentRead })]
    returnConsumedCapacity := capacityLevel config o.returnConsumedCapacity }

/-- The requests to put many items and to delete those under many keys. -/
def batchWrite (table : TableDescriptor) (config : ClientConfig) (putItems : List Item)
    (deleteKeys : List Key) (o : BatchWriteOptions) : Checked (List BatchWriteItemInput) := do
  Checked.refuseIf (putItems.isEmpty && deleteKeys.isEmpty) .emptyBatchWrite
  (putItems ++ deleteKeys).forM table.checkItemKeys
  let writes := putItems.map WriteRequest.put ++ deleteKeys.map WriteRequest.delete
  return (chunks maxBatchWriteItems writes).map fun chunk => {
    requestItems := [(table.tableName, chunk)]
    returnConsumedCapacity := capacityLevel config o.returnConsumedCapacity
    returnItemCollectionMetrics := o.returnItemCollectionMetrics }

end Request
end TableClient
