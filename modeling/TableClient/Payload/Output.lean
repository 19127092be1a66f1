import TableClient.Schema.Table
import TableClient.Schema.Batch
import TableClient.Schema.Capacity
/-!
# Answer payloads

The document that each operation answers with. Every field may be missing. The answers to the parts
of a batch are merged into one: `merge` concatenates what they report, table by table.
-/

namespace TableClient

open Record

/-- The table as created. -/
structure CreateTableOutput where
  tableDescription : TableDescription

def CreateTableOutput.record : Record CreateTableOutput CreateTableOutput :=
  CreateTableOutput.mk <$> defaulted "TableDescription" {} (·.tableDescription)

instance : Wire CreateTableOutput := CreateTableOutput.record.wire

/-- The table as it was when its deletion began. -/
structure DeleteTableOutput where
  tableDescription : TableDescription

def DeleteTableOutput.record : Record DeleteTableOutput DeleteTableOutput :=
  DeleteTableOutput.mk <$> defaulted "TableDescription" {} (·.tableDescription)

instance : Wire DeleteTableOutput := DeleteTableOutput.record.wire

structure DescribeTableOutput where
  table : TableDescription

def DescribeTableOutput.record : Record DescribeTableOutput DescribeTableOutput :=
  DescribeTableOutput.mk <$> defaulted "Table" {} (·.table)

instance : Wire DescribeTableOutput := DescribeTableOutput.record.wire

/-- The table once the change was accepted. -/
structure UpdateTableOutput where
  tableDescription : TableDescription

def UpdateTableOutput.record : Record UpdateTableOutput UpdateTableOutput :=
  UpdateTableOutput.mk <$> defaulted "TableDescription" {} (·.tableDescription)

instance : Wire UpdateTableOutput := UpdateTableOutput.record.wire

/-- Answer to a put, with the attributes that were replaced if they were asked for. -/
structure PutItemOutput where
  attributes : Item := []
  consumedCapacity : Option ConsumedCapacity := none
  itemCollectionMetrics : Option ItemCollectionMetrics := none

def PutItemOutput.record : Record PutItemOutput PutItemOutput :=
  PutItemOutput.mk <$> nonempty "Attributes" (·.attributes)
    <*> option "ConsumedCapacity" (·.consumedCapacity)
    <*> option "ItemCollectionMetrics" (·.itemCollectionMetrics)

instance : Wire PutItemOutput := PutItemOutput.record.wire

/-- Answer to a read, without item if there is none under the key. -/
structure GetItemOutput where
  item : Option Item := none
  consumedCapacity : Option ConsumedCapacity := none

def GetItemOutput.record : Record GetItemOutput GetItemOutput :=
  GetItemOutput.mk <$> option "Item" (·.item)
    <*> option "ConsumedCapacity" (·.consumedCapacity)

instance : Wire GetItemOutput := GetItemOutput.record.wire

/-- Answer to an update, with the attributes that were asked for. -/
structure UpdateItemOutput where
  attributes : Item := []
  consumedCapacity : Option ConsumedCapacity := none
  itemCollectionMetrics : Option ItemCollectionMetrics := none

def UpdateItemOutput.record : Record UpdateItemOutput UpdateItemOutput :=
  UpdateItemOutput.mk <$> nonempty "Attributes" (·.attributes)
    <*> option "ConsumedCapacity" (·.consumedCapacity)
    <*> option "ItemCollectionMetrics" (·.itemCollectionMetrics)

instance : Wire UpdateItemOutput := UpdateItemOutput.record.wire

/-- Answer to a delete, with the attributes that were deleted if they were asked for. -/
structure DeleteItemOutput where
  attributes : Item := []
  consumedCapacity : Option ConsumedCapacity := none
  itemCollectionMetrics : Option ItemCollectionMetrics := none

def DeleteItemOutput.record : Record DeleteItemOutput DeleteItemOutput :=
  DeleteItemOutput.mk <$> nonempty "Attributes" (·.attributes)
    <*> option "ConsumedCapacity" (·.consumedCapacity)
    <*> option "ItemCollectionMetrics" (·.itemCollectionMetrics)

instance : Wire DeleteItemOutput := DeleteItemOutput.record.wire

/-- One page of a query and where the next one starts. -/
structure QueryOutput where
  items : List Item := []
  count : Int32
  scannedCount : Int32
  lastEvaluatedKey : Key := []
  consumedCapacity : Option ConsumedCapacity := none

def QueryOutput.record : Record QueryOutput QueryOutput :=
  QueryOutput.mk <$> nonempty "Items" (·.items)
    <*> defaulted "Count" 0 (·.count)
    <*> defaulted "ScannedCount" 0 (·.scannedCount)
    <*> nonempty "LastEvaluatedKey" (·.lastEvaluatedKey)
    <*> option "ConsumedCapacity" (·.consumedCapacity)

instance : Wire QueryOutput := QueryOutput.record.wire

/-- One page of a scan and where the next one starts. -/
structure ScanOutput where
  items : List Item := []
  count : Int32
  scannedCount : Int32
  lastEvaluatedKey : Key := []
  consumedCapacity : Option ConsumedCapacity := none

def ScanOutput.record : Record ScanOutput ScanOutput :=
  ScanOutput.mk <$> nonempty "Items" (·.items)
    <*> defaulted "Count" 0 (·.count)
    <*> defaulted "ScannedCount" 0 (·.scannedCount)
    <*> nonempty "LastEvaluatedKey" (·.lastEvaluatedKey)
    <*> option "ConsumedCapacity" (·.consumedCapacity)

instance : Wire ScanOutput := ScanOutput.record.wire

/-- The items read, by table, and the keys that were not reached. -/
structure BatchGetItemOutput where
  responses : Dict (List Item) := []
  unprocessedKeys : Dict KeysAndAttributes := []
  consumedCapacity : List ConsumedCapacity := []

def BatchGetItemOutput.record : Record BatchGetItemOutput BatchGetItemOutput :=
  BatchGetItemOutput.mk <$> defaulted "Responses" [] (·.responses)
    <*> defaulted "UnprocessedKeys" [] (·.unprocessedKeys)
    <*> nonempty "ConsumedCapacity" (·.consumedCapacity)

instance : Wire BatchGetItemOutput := BatchGetItemOutput.record.wire

/-- The writes that were not reached, by table. -/
structure BatchWriteItemOutput where
  unprocessedItems : Dict (List WriteRequest) := []
  itemCollectionMetrics : Dict (List ItemCollectionMetrics) := []
  consumedCapacity : List ConsumedCapacity := []

def BatchWriteItemOutput.record : Record BatchWriteItemOutput BatchWriteItemOutput :=
  BatchWriteItemOutput.mk <$> defaulted "UnprocessedItems" [] (·.unprocessedItems)
    <*> nonempty "ItemCollectionMetrics" (·.itemCollectionMetrics)
    <*> nonempty "ConsumedCapacity" (·.consumedCapacity)

instance : Wire BatchWriteItemOutput := BatchWriteItemOutput.record.wire

/-! ## Merging answers -/

/-- Unreached keys together: the keys of a table are concatenated, and what to return of its items
is what the first of the two says. -/
def KeysAndAttributes.appendKeys (d e : Dict KeysAndAttributes) : Dict KeysAndAttributes :=
  e.foldl
    (fun d (table, pending) =>
      match d.get? table with
      | some known => d.insert table { known with keys := known.keys ++ pending.keys }
      | none => d.insert table pending)
    d

/-- The answers to two parts of a batch as one. -/
def BatchGetItemOutput.merge (a b : BatchGetItemOutput) : BatchGetItemOutput where
  responses := a.responses.appendLists b.responses
  unprocessedKeys := KeysAndAttributes.appendKeys a.unprocessedKeys b.unprocessedKeys
  consumedCapacity := a.consumedCapacity ++ b.consumedCapacity

/-- The answers to two parts of a batch as one. -/
def BatchWriteItemOutput.merge (a b : BatchWriteItemOutput) : BatchWriteItemOutput where
  unprocessedItems := a.unprocessedItems.appendLists b.unprocessedItems
  itemCollectionMetrics := a.itemCollectionMetrics.appendLists b.itemCollectionMetrics
  consumedCapacity := a.consumedCapacity ++ b.consumedCapacity

end TableClient
