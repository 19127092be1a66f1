import TableClient.Wire.Record
/-!
# Accounts of capacity and size

What the service reports beside a result: the capacity that a request used, and estimates of the
size of item collections.
-/

namespace TableClient

open Record

/-- Capacity used on one table or index. -/
structure Capacity where
  readCapacityUnits : Option Float := none
  writeCapacityUnits : Option Float := none
  capacityUnits : Option Float := none

def Capacity.record : Record Capacity Capacity :=
  Capacity.mk <$> option "ReadCapacityUnits" (·.readCapacityUnits)
    <*> option "WriteCapacityUnits" (·.writeCapacityUnits)
    <*> option "CapacityUnits" (·.capacityUnits)

instance : Wire Capacity := Capacity.record.wire

/-- Capacity used by one request, with its shares where they were asked for. -/
structure ConsumedCapacity where
  tableName : Option String := none
  capacityUnits : Option Float := none
  readCapacityUnits : Option Float := none
  writeCapacityUnits : Option Float := none
  table : Option Capacity := none
  localSecondaryIndexes : Dict Capacity := []
  globalSecondaryIndexes : Dict Capacity := []

def ConsumedCapacity.record : Record ConsumedCapacity ConsumedCapacity :=
  ConsumedCapacity.mk <$> option "TableName" (·.tableName)
    <*> option "CapacityUnits" (·.capacityUnits)
    <*> option "ReadCapacityUnits" (·.readCapacityUnits)
    <*> option "WriteCapacityUnits" (·.writeCapacityUnits)
    <*> option "Table" (·.table)
    <*> nonempty "LocalSecondaryIndexes" (·.localSecondaryIndexes)
    <*> nonempty "GlobalSecondaryIndexes" (·.globalSecondaryIndexes)

instance : Wire ConsumedCapacity := ConsumedCapacity.record.wire

/-- The key of an item collection and the bounds of its size in gigabytes. -/
structure ItemCollectionMetrics where
  itemCollectionKey : Dict AttributeValue := []
  sizeEstimateRangeGb : List Float := []

def ItemCollectionMetrics.record : Record ItemCollectionMetrics ItemCollectionMetrics :=
  ItemCollectionMetrics.mk <$> nonempty "ItemCollectionKey" (·.itemCollectionKey)
    <*> nonempty "SizeEstimateRangeGB" (·.sizeEstimateRangeGb)

instance : Wire ItemCollectionMetrics := ItemCollectionMetrics.record.wire

end TableClient
