import TableClient.Payload.Input
import TableClient.Request.Parts
/-!
# Requests about tables
-/

namespace TableClient

/-- What a new table is to be. -/
structure CreateTableOptions where
  /-- The types of all key attributes of the table and its indexes. -/
  attributeDefinitions : List AttributeDefinition := []
  keySchema : List KeySchemaElement := []
  readCapacityUnits : Option Int64 := none
  writeCapacityUnits : Option Int64 := none
  billingMode : Option BillingMode := none
  globalSecondaryIndexes : List GlobalSecondaryIndex := []
  localSecondaryIndexes : List LocalSecondaryIndex := []
  streamSpecification : Option StreamSpecification := none

/-- New capacity for one index. -/
structure IndexThroughput where
  indexName : String
  readCapacityUnits : Int64
  writeCapacityUnits : Int64

/-- What is to change of a table. -/
structure UpdateTableOptions where
  readCapacityUnits : Option Int64 := none
  writeCapacityUnits : Option Int64 := none
  billingMode : Option BillingMode := none
  globalSecondaryIndexUpdates : List IndexThroughput := []

namespace Request

/-- The capacity of a table; its two numbers are given together or not at all. -/
def throughput : Option Int64 → Option Int64 → Checked (Option ProvisionedThroughput)
  | some read, some write => .ok (some ⟨read, write⟩)
  | none, none => .ok none
  | _, _ => .error (.validation .throughputIncomplete)

def createTable (tableName : String) (o : CreateTableOptions) : Checked CreateTableInput := do
  Checked.refuseIf o.attributeDefinitions.isEmpty .definitionsRequired
  Checked.refuseIf o.keySchema.isEmpty .keySchemaRequired
  let capacity ← throughput o.readCapacityUnits o.writeCapacityUnits
  Checked.refuseIf (o.billingMode = some .payPerRequest && capacity.isSome) .throughputOnDemand
  return {
    tableName
    keySchema := o.keySchema
    attributeDefinitions := o.attributeDefinitions
    billingMode := o.billingMode
    provisionedThroughput := capacity
    globalSecondaryIndexes := o.globalSecondaryIndexes
    localSecondaryIndexes := o.localSecondaryIndexes
    streamSpecification := o.streamSpecification }

def deleteTable (tableName : String) : DeleteTableInput :=
  ⟨tableName⟩

def describeTable (tableName : String) : DescribeTableInput :=
  ⟨tableName⟩

def updateTable (tableName : String) (o : UpdateTableOptions) : Checked UpdateTableInput := do
  let capacity ← throughput o.readCapacityUnits o.writeCapacityUnits
  Checked.refuseIf
    (capacity.isNone && o.billingMode.isNone && o.globalSecondaryIndexUpdates.isEmpty)
    .nothingToUpdate
  return {
    tableName
    provisionedThroughput := capacity
    billingMode := o.billingMode
    globalSecondaryIndexUpdates := o.globalSecondaryIndexUpdates.map fun u =>
      ⟨some ⟨u.indexName, ⟨u.readCapacityUnits, u.writeCapacityUnits⟩⟩⟩ }

end Request
end TableClient
