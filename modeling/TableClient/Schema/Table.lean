import TableClient.Wire.Record
/-!
# Tables and their indexes

The documents that describe a table: its key, the types of key attributes, its indexes, capacity and
change stream. The `record` of a type lists its fields under the names that documents have for them.
-/

namespace TableClient

open Record

/-- One attribute of a key and its role there. -/
structure KeySchemaElement where
  attributeName : String
  keyType : KeyType

def KeySchemaElement.record : Record KeySchemaElement KeySchemaElement :=
  KeySchemaElement.mk <$> required "AttributeName" (·.attributeName)
    <*> required "KeyType" (·.keyType)

instance : Wire KeySchemaElement := KeySchemaElement.record.wire

/-- The type of a key attribute. -/
structure AttributeDefinition where
  attributeName : String
  attributeType : ScalarAttributeType

def AttributeDefinition.record : Record AttributeDefinition AttributeDefinition :=
  AttributeDefinition.mk <$> required "AttributeName" (·.attributeName)
    <*> required "AttributeType" (·.attributeType)

instance : Wire AttributeDefinition := AttributeDefinition.record.wire

/-- How the capacity of a described table is paid for, and since when (epoch seconds). -/
structure BillingModeSummary where
  billingMode : Option BillingMode := none
  lastUpdateToPayPerRequestDateTime : Option Float := none

def BillingModeSummary.record : Record BillingModeSummary BillingModeSummary :=
  BillingModeSummary.mk <$> option "BillingMode" (·.billingMode)
    <*> option "LastUpdateToPayPerRequestDateTime" (·.lastUpdateToPayPerRequestDateTime)

instance : Wire BillingModeSummary := BillingModeSummary.record.wire

/-- Requested capacity of a table or an index, in units per second. -/
structure ProvisionedThroughput where
  readCapacityUnits : Int64
  writeCapacityUnits : Int64

def ProvisionedThroughput.record : Record ProvisionedThroughput ProvisionedThroughput :=
  ProvisionedThroughput.mk <$> required "ReadCapacityUnits" (·.readCapacityUnits)
    <*> required "WriteCapacityUnits" (·.writeCapacityUnits)

instance : Wire ProvisionedThroughput := ProvisionedThroughput.record.wire

/-- Capacity as the service reports it. -/
structure ProvisionedThroughputDescription where
  readCapacityUnits : Int64
  writeCapacityUnits : Int64
  numberOfDecreasesToday : Option Int64 := none
  lastIncreaseDateTime : Option Float := none
  lastDecreaseDateTime : Option Float := none

def ProvisionedThroughputDescription.record :
    Record ProvisionedThroughputDescription ProvisionedThroughputDescription :=
  ProvisionedThroughputDescription.mk <$> defaulted "ReadCapacityUnits" 0 (·.readCapacityUnits)
    <*> defaulted "WriteCapacityUnits" 0 (·.writeCapacityUnits)
    <*> option "NumberOfDecreasesToday" (·.numberOfDecreasesToday)
    <*> option "LastIncreaseDateTime" (·.lastIncreaseDateTime)
    <*> option "LastDecreaseDateTime" (·.lastDecreaseDateTime)

instance : Wire ProvisionedThroughputDescription := ProvisionedThroughputDescription.record.wire

/-- What an index copies from its table. -/
structure Projection where
  projectionType : Option ProjectionType := none
  nonKeyAttributes : List String := []

def Projection.record : Record Projection Projection :=
  Projection.mk <$> option "ProjectionType" (·.projectionType)
    <*> nonempty "NonKeyAttributes" (·.nonKeyAttributes)

instance : Wire Projection := Projection.record.wire

/-- A global secondary index to be created with a table. -/
structure GlobalSecondaryIndex where
  indexName : String
  keySchema : List KeySchemaElement
  projection : Projection
  provisionedThroughput : Option ProvisionedThroughput := none

def GlobalSecondaryIndex.record : Record GlobalSecondaryIndex GlobalSecondaryIndex :=
  GlobalSecondaryIndex.mk <$> required "IndexName" (·.indexName)
    <*> required "KeySchema" (·.keySchema)
    <*> required "Projection" (·.projection)
    <*> option "ProvisionedThroughput" (·.provisionedThroughput)

instance : Wire GlobalSecondaryIndex := GlobalSecondaryIndex.record.wire

/-- A global secondary index as the service reports it. -/
structure GlobalSecondaryIndexDescription where
  indexName : Option String := none
  keySchema : List KeySchemaElement := []
  projection : Option Projection := none
  indexStatus : Option IndexStatus := none
  backfilling : Option Bool := none
  provisionedThroughput : Option ProvisionedThroughputDescription := none
  indexSizeBytes : Option Int64 := none
  itemCount : Option Int64 := none
  indexArn : Option String := none

def GlobalSecondaryIndexDescription.record :
    Record GlobalSecondaryIndexDescription GlobalSecondaryIndexDescription :=
  GlobalSecondaryIndexDescription.mk <$> option "IndexName" (·.indexName)
    <*> nonempty "KeySchema" (·.keySchema)
    <*> option "Projection" (·.projection)
    <*> option "IndexStatus" (·.indexStatus)
    <*> option "Backfilling" (·.backfilling)
    <*> option "ProvisionedThroughput" (·.provisionedThroughput)
    <*> option "IndexSizeBytes" (·.indexSizeBytes)
    <*> option "ItemCount" (·.itemCount)
    <*> option "IndexArn" (·.indexArn)

instance : Wire GlobalSecondaryIndexDescription := GlobalSecondaryIndexDescription.record.wire

/-- A local secondary index to be created with a table; it shares the partition key. -/
structure LocalSecondaryIndex where
  indexName : String
  keySchema : List KeySchemaElement
  projection : Projection

def LocalSecondaryIndex.record : Record LocalSecondaryIndex LocalSecondaryIndex :=
  LocalSecondaryIndex.mk <$> required "IndexName" (·.indexName)
    <*> required "KeySchema" (·.keySchema)
    <*> required "Projection" (·.projection)

instance : Wire LocalSecondaryIndex := LocalSecondaryIndex.record.wire

/-- A local secondary index as the service reports it. -/
structure LocalSecondaryIndexDescription where
  indexName : Option String := none
  keySchema : List KeySchemaElement := []
  projection : Option Projection := none
  indexSizeBytes : Option Int64 := none
  itemCount : Option Int64 := none
  indexArn : Option String := none

def LocalSecondaryIndexDescription.record :
    Record LocalSecondaryIndexDescription LocalSecondaryIndexDescription :=
  LocalSecondaryIndexDescription.mk <$> option "IndexName" (·.indexName)
    <*> nonempty "KeySchema" (·.keySchema)
    <*> option "Projection" (·.projection)
    <*> option "IndexSizeBytes" (·.indexSizeBytes)
    <*> option "ItemCount" (·.itemCount)
    <*> option "IndexArn" (·.indexArn)

instance : Wire LocalSecondaryIndexDescription := LocalSecondaryIndexDescription.record.wire

/-- Whether a table has a change stream, and what its records hold. -/
structure StreamSpecification where
  streamEnabled : Bool
  streamViewType : Option StreamViewType := none

def StreamSpecification.record : Record StreamSpecification StreamSpecification :=
  StreamSpecification.mk <$> required "StreamEnabled" (·.streamEnabled)
    <*> option "StreamViewType" (·.streamViewType)

instance : Wire StreamSpecification := StreamSpecification.record.wire

/-- New capacity for an index. -/
structure IndexCapacityUpdate where
  indexName : String
  provisionedThroughput : ProvisionedThroughput

def IndexCapacityUpdate.record : Record IndexCapacityUpdate IndexCapacityUpdate :=
  IndexCapacityUpdate.mk <$> required "IndexName" (·.indexName)
    <*> required "ProvisionedThroughput" (·.provisionedThroughput)

instance : Wire IndexCapacityUpdate := IndexCapacityUpdate.record.wire

/-- One change of an index in a change of a table. -/
structure IndexUpdate where
  update : Option IndexCapacityUpdate := none

def IndexUpdate.record : Record IndexUpdate IndexUpdate :=
  IndexUpdate.mk <$> option "Update" (·.update)

instance : Wire IndexUpdate := IndexUpdate.record.wire

/-- A table as the service reports it. -/
structure TableDescription where
  tableName : Option String := none
  tableStatus : Option TableStatus := none
  keySchema : List KeySchemaElement := []
  attributeDefinitions : List AttributeDefinition := []
  creationDateTime : Option Float := none
  itemCount : Option Int64 := none
  tableSizeBytes : Option Int64 := none
  tableArn : Option String := none
  billingModeSummary : Option BillingModeSummary := none
  provisionedThroughput : Option ProvisionedThroughputDescription := none
  globalSecondaryIndexes : List GlobalSecondaryIndexDescription := []
  localSecondaryIndexes : List LocalSecondaryIndexDescription := []
  streamSpecification : Option StreamSpecification := none
  latestStreamArn : Option String := none

def TableDescription.record : Record TableDescription TableDescription :=
  TableDescription.mk <$> option "TableName" (·.tableName)
    <*> option "TableStatus" (·.tableStatus)
    <*> nonempty "KeySchema" (·.keySchema)
    <*> nonempty "AttributeDefinitions" (·.attributeDefinitions)
    <*> option "CreationDateTime" (·.creationDateTime)
    <*> option "ItemCount" (·.itemCount)
    <*> option "TableSizeBytes" (·.tableSizeBytes)
    <*> option "TableArn" (·.tableArn)
    <*> option "BillingModeSummary" (·.billingModeSummary)
    <*> option "ProvisionedThroughput" (·.provisionedThroughput)
    <*> nonempty "GlobalSecondaryIndexes" (·.globalSecondaryIndexes)
    <*> nonempty "LocalSecondaryIndexes" (·.localSecondaryIndexes)
    <*> option "StreamSpecification" (·.streamSpecification)
    <*> option "LatestStreamArn" (·.latestStreamArn)

instance : Wire TableDescription := TableDescription.record.wire

end TableClient
