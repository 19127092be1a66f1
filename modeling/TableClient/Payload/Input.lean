import TableClient.Schema.Table
import TableClient.Schema.Batch
/-!
# Request payloads

The document that each operation sends, with a `record` of its fields. Absent options and empty
lists and dictionaries are left out.
-/

namespace TableClient

open Record

structure CreateTableInput where
  tableName : String
  keySchema : List KeySchemaElement
  attributeDefinitions : List AttributeDefinition
  billingMode : Option BillingMode := none
  provisionedThroughput : Option ProvisionedThroughput := none
  globalSecondaryIndexes : List GlobalSecondaryIndex := []
  localSecondaryIndexes : List LocalSecondaryIndex := []
  streamSpecification : Option StreamSpecification := none

def CreateTableInput.record : Record CreateTableInput CreateTableInput :=
  CreateTableInput.mk <$> required "TableName" (·.tableName)
    <*> required "KeySchema" (·.keySchema)
    <*> required "AttributeDefinitions" (·.attributeDefinitions)
    <*> option "BillingMode" (·.billingMode)
    <*> option "ProvisionedThroughput" (·.provisionedThroughput)
    <*> nonempty "GlobalSecondaryIndexes" (·.globalSecondaryIndexes)
    <*> nonempty "LocalSecondaryIndexes" (·.localSecondaryIndexes)
    <*> option "StreamSpecification" (·.streamSpecification)

instance : Wire CreateTableInput := CreateTableInput.record.wire

structure DeleteTableInput where
  tableName : String

def DeleteTableInput.record : Record DeleteTableInput DeleteTableInput :=
  DeleteTableInput.mk <$> required "TableName" (·.tableName)

instance : Wire DeleteTableInput := DeleteTableInput.record.wire

structure DescribeTableInput where
  tableName : String

def DescribeTableInput.record : Record DescribeTableInput DescribeTableInput :=
  DescribeTableInput.mk <$> required "TableName" (·.tableName)

instance : Wire DescribeTableInput := DescribeTableInput.record.wire

/-- Change of the capacity, billing or indexes of a table. -/
structure UpdateTableInput where
  tableName : String
  provisionedThroughput : Option ProvisionedThroughput := none
  billingMode : Option BillingMode := none
  globalSecondaryIndexUpdates : List IndexUpdate := []

def UpdateTableInput.record : Record UpdateTableInput UpdateTableInput :=
  UpdateTableInput.mk <$> required "TableName" (·.tableName)
    <*> option "ProvisionedThroughput" (·.provisionedThroughput)
    <*> option "BillingMode" (·.billingMode)
    <*> nonempty "GlobalSecondaryIndexUpdates" (·.globalSecondaryIndexUpdates)

instance : Wire UpdateTableInput := UpdateTableInput.record.wire

structure PutItemInput where
  tableName : String
  item : Item
  conditionExpression : Option String := none
  expressionAttributeNames : Dict String := []
  expressionAttributeValues : Dict AttributeValue := []
  returnValues : Option ReturnValue := none
  returnConsumedCapacity : Option ReturnConsumedCapacity := none
  returnItemCollectionMetrics : Option ReturnItemCollectionMetrics := none

def PutItemInput.record : Record PutItemInput PutItemInput :=
  PutItemInput.mk <$> required "TableName" (·.tableName)
    <*> required "Item" (·.item)
    <*> option "ConditionExpression" (·.conditionExpression)
    <*> nonempty "ExpressionAttributeNames" (·.expressionAttributeNames)
    <*> nonempty "ExpressionAttributeValues" (·.expressionAttributeValues)
    <*> option "ReturnValues" (·.returnValues)
    <*> option "ReturnConsumedCapacity" (·.returnConsumedCapacity)
    <*> option "ReturnItemCollectionMetrics" (·.returnItemCollectionMetrics)

instance : Wire PutItemInput := PutItemInput.record.wire

structure GetItemInput where
  tableName : String
  key : Key
  consistentRead : Option Bool := none
  projectionExpression : Option String := none
  expressionAttributeNames : Dict String := []
  returnConsumedCapacity : Option ReturnConsumedCapacity := none

def GetItemInput.record : Record GetItemInput GetItemInput :=
  GetItemInput.mk <$> required "TableName" (·.tableName)
    <*> required "Key" (·.key)
    <*> option "ConsistentRead" (·.consistentRead)
    <*> option "ProjectionExpression" (·.projectionExpression)
    <*> nonempty "ExpressionAttributeNames" (·.expressionAttributeNames)
    <*> option "ReturnConsumedCapacity" (·.returnConsumedCapacity)

instance : Wire GetItemInput := GetItemInput.record.wire

structure UpdateItemInput where
  tableName : String
  key : Key
  updateExpression : Option String := none
  conditionExpression : Option String := none
  expressionAttributeNames : Dict String := []
  expressionAttributeValues : Dict AttributeValue := []
  returnValues : Option ReturnValue := none
  returnConsumedCapacity : Option ReturnConsumedCapacity := none
  returnItemCollectionMetrics : Option ReturnItemCollectionMetrics := none

def UpdateItemInput.record : Record UpdateItemInput UpdateItemInput :=
  UpdateItemInput.mk <$> required "TableName" (·.tableName)
    <*> required "Key" (·.key)
    <*> option "UpdateExpression" (·.updateExpression)
    <*> option "ConditionExpression" (·.conditionExpression)
    <*> nonempty "ExpressionAttributeNames" (·.expressionAttributeNames)
    <*> nonempty "ExpressionAttributeValues" (·.expressionAttributeValues)
    <*> option "ReturnValues" (·.returnValues)
    <*> option "ReturnConsumedCapacity" (·.returnConsumedCapacity)
    <*> option "ReturnItemCollectionMetrics" (·.returnItemCollectionMetrics)

instance : Wire UpdateItemInput := UpdateItemInput.record.wire

structure DeleteItemInput where
  tableName : String
  key : Key
  conditionExpression : Option String := none
  expressionAttributeNames : Dict String := []
  expressionAttributeValues : Dict AttributeValue := []
  returnValues : Option ReturnValue := none
  returnConsumedCapacity : Option ReturnConsumedCapacity := none
  returnItemCollectionMetrics : Option ReturnItemCollectionMetrics := none

def DeleteItemInput.record : Record DeleteItemInput DeleteItemInput :=
  DeleteItemInput.mk <$> required "TableName" (·.tableName)
    <*> required "Key" (·.key)
    <*> option "ConditionExpression" (·.conditionExpression)
    <*> nonempty "ExpressionAttributeNames" (·.expressionAttributeNames)
    <*> nonempty "ExpressionAttributeValues" (·.expressionAttributeValues)
    <*> option "ReturnValues" (·.returnValues)
    <*> option "ReturnConsumedCapacity" (·.returnConsumedCapacity)
    <*> option "ReturnItemCollectionMetrics" (·.returnItemCollectionMetrics)

instance : Wire DeleteItemInput := DeleteItemInput.record.wire

/-- Query of the items under one partition key. -/
structure QueryInput where
  tableName : String
  indexName : Option String := none
  keyConditionExpression : Option String := none
  filterExpression : Option String := none
  projectionExpression : Option String := none
  expressionAttributeNames : Dict String := []
  expressionAttributeValues : Dict AttributeValue := []
  scanIndexForward : Option Bool := none
  limit : Option Int32 := none
  exclusiveStartKey : Key := []
  select : Option Select := none
  consistentRead : Option Bool := none
  returnConsumedCapacity : Option ReturnConsumedCapacity := none

def QueryInput.record : Record QueryInput QueryInput :=
  QueryInput.mk <$> required "TableName" (·.tableName)
    <*> option "IndexName" (·.indexName)
    <*> option "KeyConditionExpression" (·.keyConditionExpression)
    <*> option "FilterExpression" (·.filterExpression)
    <*> option "ProjectionExpression" (·.projectionExpression)
    <*> nonempty "ExpressionAttributeNames" (·.expressionAttributeNames)
    <*> nonempty "ExpressionAttributeValues" (·.expressionAttributeValues)
    <*> option "ScanIndexForward" (·.scanIndexForward)
    <*> option "Limit" (·.limit)
    <*> nonempty "ExclusiveStartKey" (·.exclusiveStartKey)
    <*> option "Select" (·.select)
    <*> option "ConsistentRead" (·.consistentRead)
    <*> option "ReturnConsumedCapacity" (·.returnConsumedCapacity)

instance : Wire QueryInput := QueryInput.record.wire

/-- Scan of a table or an index, one page. -/
structure ScanInput where
  tableName : String
  indexName : Option String := none
  filterExpression : Option String := none
  projectionExpression : Option String := none
  expressionAttributeNames : Dict String := []
  expressionAttributeValues : Dict AttributeValue := []
  limit : Option Int32 := none
  exclusiveStartKey : Key := []
  segment : Option Int32 := none
  totalSegments : Option Int32 := none
  select : Option Select := none
  consistentRead : Option Bool := none
  returnConsumedCapacity : Option ReturnConsumedCapacity := none

def ScanInput.record : Record ScanInput ScanInput :=
  ScanInput.mk <$> required "TableName" (·.tableName)
    <*> option "IndexName" (·.indexName)
    <*> option "FilterExpression" (·.filterExpression)
    <*> option "ProjectionExpression" (·.projectionExpression)
    <*> nonempty "ExpressionAttributeNames" (·.expressionAttributeNames)
    <*> nonempty "ExpressionAttributeValues" (·.expressionAttributeValues)
    <*> option "Limit" (·.limit)
    <*> nonempty "ExclusiveStartKey" (·.exclusiveStartKey)
    <*> option "Segment" (·.segment)
    <*> option "TotalSegments" (·.totalSegments)
    <*> option "Select" (·.select)
    <*> option "ConsistentRead" (·.consistentRead)
    <*> option "ReturnConsumedCapacity" (·.returnConsumedCapacity)

instance : Wire ScanInput := ScanInput.record.wire

structure BatchGetItemInput where
  requestItems : Dict KeysAndAttributes
  returnConsumedCapacity : Option ReturnConsumedCapacity := none

def BatchGetItemInput.record : Record BatchGetItemInput BatchGetItemInput :=
  BatchGetItemInput.mk <$> required "RequestItems" (·.requestItems)
    <*> option "ReturnConsumedCapacity" (·.returnConsumedCapacity)

instance : Wire BatchGetItemInput := BatchGetItemInput.record.wire

structure BatchWriteItemInput where
  requestItems : Dict (List WriteRequest)
  returnConsumedCapacity : Option ReturnConsumedCapacity := none
  returnItemCollectionMetrics : Option ReturnItemCollectionMetrics := none

def BatchWriteItemInput.record : Record BatchWriteItemInput BatchWriteItemInput :=
  BatchWriteItemInput.mk <$> required "RequestItems" (·.requestItems)
    <*> option "ReturnConsumedCapacity" (·.returnConsumedCapacity)
    <*> option "ReturnItemCollectionMetrics" (·.returnItemCollectionMetrics)

instance : Wire BatchWriteItemInput := BatchWriteItemInput.record.wire

end TableClient
