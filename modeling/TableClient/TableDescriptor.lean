import TableClient.Client.Error
import TableClient.Schema.Table
/-!
# Key metadata of a table

What requests need to know of a table: the names of its key attributes and of those of its indexes,
and the types that key attributes are declared with. It is taken from the description of the table.

The first hash and the first range element of a key schema count, the last definition of an
attribute, and the last index of a name, local ones behind global ones.
-/

namespace TableClient

/-- The key attributes of a table or an index. -/
structure KeyNames where
  hash : String
  range : Option String
deriving DecidableEq

namespace KeyNames

/-- The attribute of the first element with a role. -/
def withRole (schema : List KeySchemaElement) (role : KeyType) : Option String :=
  (schema.find? fun element => element.keyType = role).map (·.attributeName)

/-- The key attributes of a key schema, if it has a hash key. -/
def ofSchema (schema : List KeySchemaElement) : Option KeyNames :=
  (withRole schema .hash).map fun hash => ⟨hash, withRole schema .range⟩

/-- The names in order, the hash key first. -/
def toList (keys : KeyNames) : List String :=
  keys.hash :: keys.range.toList

def has (keys : KeyNames) (name : String) : Bool :=
  keys.hash = name || keys.range = some name

end KeyNames

/-- The key metadata of a table. -/
structure TableDescriptor where
  tableName : String
  /-- The key of the table itself. -/
  keys : KeyNames
  /-- The declared types of key attributes. -/
  attributeTypes : Dict ScalarAttributeType
  indexes : Dict KeyNames

namespace TableDescriptor

/-- The named key schemas of all indexes, the global ones first. -/
def indexSchemas (d : TableDescription) : List (Option String × List KeySchemaElement) :=
  d.globalSecondaryIndexes.map (fun i => (i.indexName, i.keySchema)) ++
    d.localSecondaryIndexes.map fun i => (i.indexName, i.keySchema)

/-- The metadata of a described table. Indexes without name or hash key are left out. -/
def ofDescription (d : TableDescription) : Except ClientError TableDescriptor :=
  match d.tableName with
  | none => .error (.validation .unnamedTable)
  | some tableName =>
    match KeyNames.ofSchema d.keySchema with
    | none => .error (.validation (.noHashKey tableName))
    | some keys => .ok {
        tableName
        keys
        attributeTypes :=
          Dict.ofList (d.attributeDefinitions.map fun a => (a.attributeName, a.attributeType))
        indexes := Dict.ofList ((indexSchemas d).filterMap fun (name, schema) => do
          return (← name, ← KeyNames.ofSchema schema)) }

/-- The declared type of an attribute. -/
def attributeType? (t : TableDescriptor) (name : String) : Option ScalarAttributeType :=
  t.attributeTypes.get? name

/-- The key attributes of the table, or of one of its indexes. -/
def indexKeys (t : TableDescriptor) : Option String → Except ClientError KeyNames
  | none => .ok t.keys
  | some index =>
    (t.indexes.get? index).elim (.error (.validation (.unknownIndex t.tableName index))) .ok

/-- Refuses a value whose type is not the one that the key attribute is declared with. -/
def checkKeyType (t : TableDescriptor) (name : String) (value : AttributeValue) :
    Except ClientError Unit :=
  match t.attributeType? name with
  | none => .ok ()
  | some type =>
    if value.scalarType? = some type then .ok ()
    else .error (.validation (.keyType name type value.tag))

/-- The primary key with these values. -/
def buildKey (t : TableDescriptor) (hash : AttributeValue) (range : Option AttributeValue) :
    Except ClientError Key := do
  t.checkKeyType t.keys.hash hash
  let key : Key := [(t.keys.hash, hash)]
  match t.keys.range, range with
  | some name, some value =>
    t.checkKeyType name value
    return key.insert name value
  | some name, none => .error (.validation (.rangeKeyRequired t.tableName name))
  | none, some _ => .error (.validation (.noRangeKey t.tableName))
  | none, none => return key

/-- Refuses an item or a key that lacks a key attribute of the table or has one of another type. -/
def checkItemKeys (t : TableDescriptor) (item : Item) : Except ClientError Unit :=
  t.keys.toList.forM fun name =>
    match item.get? name with
    | none => .error (.validation (.missingKey name))
    | some value => t.checkKeyType name value

end TableDescriptor
end TableClient
