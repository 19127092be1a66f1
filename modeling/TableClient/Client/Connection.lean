import TableClient.Client.World
import TableClient.Payload.Output
import TableClient.Request.Batch
import TableClient.Request.Query
import TableClient.Request.Scan
import TableClient.Request.Table
/-!
# Connections to a table

A connection knows the name of a table, and its key metadata once it was needed. Operations on items
fetch the metadata first if it is not known; describing the table fetches it anew, deleting the
table forgets it. A request that is refused is not sent.
-/

namespace TableClient

structure Connection where
  tableName : String
  config : ClientConfig := {}
  /-- The key metadata of the table, if it is known. -/
  descriptor : Option TableDescriptor := none

namespace Connection

/-- The connection with the metadata of a description. -/
def withDescription (c : Connection) (d : TableDescription) : Except ClientError Connection := do
  return { c with descriptor := some (← TableDescriptor.ofDescription d) }

variable {σ α : Type}

/-- What an operation of a connection does. -/
abbrev Step (σ α : Type) := Client Connection σ α

/-- Fetches the description of the table and keeps its metadata. -/
def refresh (env : Environment σ) : Step σ (TableDescription × TableDescriptor) := do
  let name := (← Client.own).tableName
  let output : DescribeTableOutput ← Client.send env .describeTable (Request.describeTable name)
  let descriptor ← Client.check (TableDescriptor.ofDescription output.table)
  Client.update fun c => { c with descriptor := some descriptor }
  return (output.table, descriptor)

/-- The key metadata, fetched if it is not known. -/
def known (env : Environment σ) : Step σ TableDescriptor := do
  match (← Client.own).descriptor with
  | some descriptor => return descriptor
  | none => return (← refresh env).2

/-- Sends the request that is built from the metadata and the configuration. -/
def request {ι ο : Type} [Wire ι] [Wire ο] (env : Environment σ) (op : Operation)
    (build : TableDescriptor → ClientConfig → Checked ι) : Step σ ο := do
  let table ← known env
  let input ← Client.check (build table (← Client.own).config)
  Client.send env op input

/-! ## Tables -/

/-- Describes the table and keeps its metadata. -/
def describeTable (env : Environment σ) : Step σ TableDescription := do
  return (← refresh env).1

def createTable (env : Environment σ) (o : CreateTableOptions) : Step σ TableDescription := do
  let input ← Client.check (Request.createTable (← Client.own).tableName o)
  let output : CreateTableOutput ← Client.send env .createTable input
  return output.tableDescription

/-- Deletes the table and forgets its metadata. -/
def deleteTable (env : Environment σ) : Step σ TableDescription := do
  let input := Request.deleteTable (← Client.own).tableName
  let output : DeleteTableOutput ← Client.send env .deleteTable input
  Client.update fun c => { c with descriptor := none }
  return output.tableDescription

def updateTable (env : Environment σ) (o : UpdateTableOptions) : Step σ TableDescription := do
  let input ← Client.check (Request.updateTable (← Client.own).tableName o)
  let output : UpdateTableOutput ← Client.send env .updateTable input
  return output.tableDescription

/-! ## Items -/

def getItem (env : Environment σ) (hash : AttributeValue) (range : Option AttributeValue)
    (o : ReadOptions) : Step σ GetItemOutput :=
  request env .getItem fun table _ => Request.getItem table hash range o

def putItem (env : Environment σ) (hash : AttributeValue) (range : Option AttributeValue)
    (attributes : Item) (o : WriteOptions) : Step σ PutItemOutput :=
  request env .putItem fun table config => Request.putItem table config hash range attributes o

def updateItem (env : Environment σ) (hash : AttributeValue) (range : Option AttributeValue)
    (o : UpdateItemOptions) : Step σ UpdateItemOutput :=
  request env .updateItem fun table config => Request.updateItem table config hash range o

def deleteItem (env : Environment σ) (hash : AttributeValue) (range : Option AttributeValue)
    (o : WriteOptions) : Step σ DeleteItemOutput :=
  request env .deleteItem fun table config => Request.deleteItem table config hash range o

def query (env : Environment σ) (hash : AttributeValue) (o : QueryOptions) : Step σ QueryOutput :=
  request env .query fun table config => Request.query table config hash o

def scan (env : Environment σ) (o : ScanOptions) : Step σ ScanOutput :=
  request env .scan fun table config => Request.scan table config o

/-! ## Batches -/

/-- Sends requests one after another and merges their answers; the first failure ends it. -/
def sendAll {ι ο : Type} [Wire ι] [Wire ο] (env : Environment σ) (op : Operation)
    (merge : ο → ο → ο) (nothing : ο) (inputs : List ι) : Step σ ο :=
  inputs.foldlM (fun merged input => do return merge merged (← Client.send env op input)) nothing

def batchGetItem (env : Environment σ) (keys : List Key) (o : ReadOptions) :
    Step σ BatchGetItemOutput := do
  let table ← known env
  let inputs ← Client.check (Request.batchGet table (← Client.own).config keys o)
  sendAll env .batchGetItem BatchGetItemOutput.merge {} inputs

/-- Puts many items and then deletes those under many keys. -/
def batchWriteItem (env : Environment σ) (putItems : List Item) (deleteKeys : List Key)
    (o : BatchWriteOptions) : Step σ BatchWriteItemOutput := do
  let table ← known env
  let inputs ← Client.check (Request.batchWrite table (← Client.own).config putItems deleteKeys o)
  sendAll env .batchWriteItem BatchWriteItemOutput.merge {} inputs

end Connection
end TableClient
