import TableClient.Payload.Input
import TableClient.Payload.Output
import TableClient.Schema.ConditionMap
/-!
# Kinds of documents

The service has a name for every kind of document that goes to it or comes from it.
`DocumentKind.all` lists these names with the types that hold such documents, `Enumeration.all` the
types whose values are names. Reading a document of a kind and writing it again gives its normal
form.
-/

namespace TableClient

/-- A type whose values are names. -/
structure Enumeration : Type 1 where
  Carrier : Type
  [enum : WireEnum Carrier]

namespace Enumeration

/-- The name that the service has for the type. -/
def kind (e : Enumeration) : String :=
  e.enum.kind

def all : List Enumeration := [
  ⟨KeyType⟩, ⟨ScalarAttributeType⟩, ⟨TableStatus⟩, ⟨BillingMode⟩, ⟨ProjectionType⟩,
  ⟨StreamViewType⟩, ⟨IndexStatus⟩, ⟨ReturnValue⟩, ⟨ReturnConsumedCapacity⟩,
  ⟨ReturnItemCollectionMetrics⟩, ⟨Select⟩, ⟨ConditionalOperator⟩, ⟨ComparisonOperator⟩,
  ⟨AttributeAction⟩]

/-- The type that the service knows by this name. -/
def ofKind? (kind : String) : Option Enumeration :=
  all.find? fun e => e.kind == kind

end Enumeration

/-- A kind of document. -/
structure DocumentKind : Type 1 where
  /-- The name that the service has for the kind. -/
  name : String
  Carrier : Type
  [wire : Wire Carrier]

namespace DocumentKind

/-- The parts that larger documents share. -/
def parts : List DocumentKind := [
  ⟨"AttributeValue", AttributeValue⟩,
  ⟨"KeySchemaElement", KeySchemaElement⟩,
  ⟨"AttributeDefinition", AttributeDefinition⟩,
  ⟨"BillingModeSummary", BillingModeSummary⟩,
  ⟨"ProvisionedThroughput", ProvisionedThroughput⟩,
  ⟨"ProvisionedThroughputDescription", ProvisionedThroughputDescription⟩,
  ⟨"Projection", Projection⟩,
  ⟨"GlobalSecondaryIndex", GlobalSecondaryIndex⟩,
  ⟨"GlobalSecondaryIndexDescription", GlobalSecondaryIndexDescription⟩,
  ⟨"LocalSecondaryIndex", LocalSecondaryIndex⟩,
  ⟨"LocalSecondaryIndexDescription", LocalSecondaryIndexDescription⟩,
  ⟨"StreamSpecification", StreamSpecification⟩,
  ⟨"GlobalSecondaryIndexUpdate", IndexUpdate⟩,
  ⟨"UpdateGlobalSecondaryIndexAction", IndexCapacityUpdate⟩,
  ⟨"TableDescription", TableDescription⟩,
  ⟨"Capacity", Capacity⟩,
  ⟨"ConsumedCapacity", ConsumedCapacity⟩,
  ⟨"ItemCollectionMetrics", ItemCollectionMetrics⟩,
  ⟨"Condition", ConditionEntry⟩,
  ⟨"AttributeValueUpdate", UpdateEntry⟩,
  ⟨"ExpectedAttributeValue", ExpectedEntry⟩,
  ⟨"KeysAndAttributes", KeysAndAttributes⟩,
  ⟨"WriteRequest", WriteRequest⟩,
  ⟨"PutRequest", PutRequest⟩,
  ⟨"DeleteRequest", DeleteRequest⟩]

/-- The documents of requests. -/
def inputs : List DocumentKind := [
  ⟨"CreateTableInput", CreateTableInput⟩,
  ⟨"DeleteTableInput", DeleteTableInput⟩,
  ⟨"DescribeTableInput", DescribeTableInput⟩,
  ⟨"UpdateTableInput", UpdateTableInput⟩,
  ⟨"PutItemInput", PutItemInput⟩,
  ⟨"GetItemInput", GetItemInput⟩,
  ⟨"UpdateItemInput", UpdateItemInput⟩,
  ⟨"DeleteItemInput", DeleteItemInput⟩,
  ⟨"QueryInput", QueryInput⟩,
  ⟨"ScanInput", ScanInput⟩,
  ⟨"BatchGetItemInput", BatchGetItemInput⟩,
  ⟨"BatchWriteItemInput", BatchWriteItemInput⟩]

/-- The documents of answers. -/
def outputs : List DocumentKind := [
  ⟨"CreateTableOutput", CreateTableOutput⟩,
  ⟨"DeleteTableOutput", DeleteTableOutput⟩,
  ⟨"DescribeTableOutput", DescribeTableOutput⟩,
  ⟨"UpdateTableOutput", UpdateTableOutput⟩,
  ⟨"PutItemOutput", PutItemOutput⟩,
  ⟨"GetItemOutput", GetItemOutput⟩,
  ⟨"UpdateItemOutput", UpdateItemOutput⟩,
  ⟨"DeleteItemOutput", DeleteItemOutput⟩,
  ⟨"QueryOutput", QueryOutput⟩,
  ⟨"ScanOutput", ScanOutput⟩,
  ⟨"BatchGetItemOutput", BatchGetItemOutput⟩,
  ⟨"BatchWriteItemOutput", BatchWriteItemOutput⟩]

/-- The documents that are one name. -/
def ofEnumeration (e : Enumeration) : DocumentKind :=
  letI := e.enum
  ⟨e.kind, e.Carrier⟩

def all : List DocumentKind :=
  Enumeration.all.map ofEnumeration ++ parts ++ inputs ++ outputs

/-- The kind that the service knows by this name. -/
def ofName? (name : String) : Option DocumentKind :=
  all.find? fun k => k.name == name

/-- The form in which a document of the kind is written, if it is one. -/
def normalize (k : DocumentKind) (document : Json) : Except WireError Json :=
  (k.wire.read document).map k.wire.write

end DocumentKind
end TableClient
