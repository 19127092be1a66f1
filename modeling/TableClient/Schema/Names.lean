import TableClient.Naming
/-!
# Enumerations of the wire documents

Each type with the names that the service gives its values.
-/

namespace TableClient

/-- Role of an attribute within a key. -/
inductive KeyType where
  | hash
  | range
deriving DecidableEq

instance : WireEnum KeyType where
  kind := "KeyType"
  all := [.hash, .range]
  name
    | .hash => "HASH"
    | .range => "RANGE"
  mem_all := by rintro ⟨⟩ <;> decide
  name_injective := by rintro ⟨⟩ ⟨⟩ <;> decide

/-- The types that a key attribute may have. -/
inductive ScalarAttributeType where
  | s
  | n
  | b
deriving DecidableEq

instance : WireEnum ScalarAttributeType where
  kind := "ScalarAttributeType"
  all := [.s, .n, .b]
  name
    | .s => "S"
    | .n => "N"
    | .b => "B"
  mem_all := by rintro ⟨⟩ <;> decide
  name_injective := by rintro ⟨⟩ ⟨⟩ <;> decide

/-- Where a table stands in its life. -/
inductive TableStatus where
  | creating
  | updating
  | deleting
  | active
  | inaccessibleEncryptionCredentials
  | archiving
  | archived
deriving DecidableEq

instance : WireEnum TableStatus where
  kind := "TableStatus"
  all := [.creating, .updating, .deleting, .active, .inaccessibleEncryptionCredentials,
    .archiving, .archived]
  name
    | .creating => "CREATING"
    | .updating => "UPDATING"
    | .deleting => "DELETING"
    | .active => "ACTIVE"
    | .inaccessibleEncryptionCredentials => "INACCESSIBLE_ENCRYPTION_CREDENTIALS"
    | .archiving => "ARCHIVING"
    | .archived => "ARCHIVED"
  mem_all := by rintro ⟨⟩ <;> decide
  name_injective := by rintro ⟨⟩ ⟨⟩ <;> decide

/-- How the capacity of a table is paid for. -/
inductive BillingMode where
  | provisioned
  | payPerRequest
deriving DecidableEq

instance : WireEnum BillingMode where
  kind := "BillingMode"
  all := [.provisioned, .payPerRequest]
  name
    | .provisioned => "PROVISIONED"
    | .payPerRequest => "PAY_PER_REQUEST"
  mem_all := by rintro ⟨⟩ <;> decide
  name_injective := by rintro ⟨⟩ ⟨⟩ <;> decide

/-- Which attributes an index copies from its table. -/
inductive ProjectionType where
  | all
  | keysOnly
  | include
deriving DecidableEq

instance : WireEnum ProjectionType where
  kind := "ProjectionType"
  all := [.all, .keysOnly, .include]
  name
    | .all => "ALL"
    | .keysOnly => "KEYS_ONLY"
    | .include => "INCLUDE"
  mem_all := by rintro ⟨⟩ <;> decide
  name_injective := by rintro ⟨⟩ ⟨⟩ <;> decide

/-- What a record of a change stream holds. -/
inductive StreamViewType where
  | newImage
  | oldImage
  | newAndOldImages
  | keysOnly
deriving DecidableEq

instance : WireEnum StreamViewType where
  kind := "StreamViewType"
  all := [.newImage, .oldImage, .newAndOldImages, .keysOnly]
  name
    | .newImage => "NEW_IMAGE"
    | .oldImage => "OLD_IMAGE"
    | .newAndOldImages => "NEW_AND_OLD_IMAGES"
    | .keysOnly => "KEYS_ONLY"
  mem_all := by rintro ⟨⟩ <;> decide
  name_injective := by rintro ⟨⟩ ⟨⟩ <;> decide

/-- Where a secondary index stands in its life. -/
inductive IndexStatus where
  | creating
  | updating
  | deleting
  | active
deriving DecidableEq

instance : WireEnum IndexStatus where
  kind := "IndexStatus"
  all := [.creating, .updating, .deleting, .active]
  name
    | .creating => "CREATING"
    | .updating => "UPDATING"
    | .deleting => "DELETING"
    | .active => "ACTIVE"
  mem_all := by rintro ⟨⟩ <;> decide
  name_injective := by rintro ⟨⟩ ⟨⟩ <;> decide

/-- Which attributes a write answers with. -/
inductive ReturnValue where
  | none
  | allOld
  | updatedOld
  | allNew
  | updatedNew
deriving DecidableEq

instance : WireEnum ReturnValue where
  kind := "ReturnValue"
  all := [.none, .allOld, .updatedOld, .allNew, .updatedNew]
  name
    | .none => "NONE"
    | .allOld => "ALL_OLD"
    | .updatedOld => "UPDATED_OLD"
    | .allNew => "ALL_NEW"
    | .updatedNew => "UPDATED_NEW"
  mem_all := by rintro ⟨⟩ <;> decide
  name_injective := by rintro ⟨⟩ ⟨⟩ <;> decide

/-- How much of the capacity account an answer holds. -/
inductive ReturnConsumedCapacity where
  | indexes
  | total
  | none
deriving DecidableEq

instance : WireEnum ReturnConsumedCapacity where
  kind := "ReturnConsumedCapacity"
  all := [.indexes, .total, .none]
  name
    | .indexes => "INDEXES"
    | .total => "TOTAL"
    | .none => "NONE"
  mem_all := by rintro ⟨⟩ <;> decide
  name_injective := by rintro ⟨⟩ ⟨⟩ <;> decide

/-- Whether a write answers with sizes of item collections. -/
inductive ReturnItemCollectionMetrics where
  | size
  | none
deriving DecidableEq

instance : WireEnum ReturnItemCollectionMetrics where
  kind := "ReturnItemCollectionMetrics"
  all := [.size, .none]
  name
    | .size => "SIZE"
    | .none => "NONE"
  mem_all := by rintro ⟨⟩ <;> decide
  name_injective := by rintro ⟨⟩ ⟨⟩ <;> decide

/-- Which attributes a query or a scan answers with. -/
inductive Select where
  | allAttributes
  | allProjectedAttributes
  | specificAttributes
  | count
deriving DecidableEq

instance : WireEnum Select where
  kind := "Select"
  all := [.allAttributes, .allProjectedAttributes, .specificAttributes, .count]
  name
    | .allAttributes => "ALL_ATTRIBUTES"
    | .allProjectedAttributes => "ALL_PROJECTED_ATTRIBUTES"
    | .specificAttributes => "SPECIFIC_ATTRIBUTES"
    | .count => "COUNT"
  mem_all := by rintro ⟨⟩ <;> decide
  name_injective := by rintro ⟨⟩ ⟨⟩ <;> decide

/-- How the entries of a condition map are joined. -/
inductive ConditionalOperator where
  | and
  | or
deriving DecidableEq

instance : WireEnum ConditionalOperator where
  kind := "ConditionalOperator"
  all := [.and, .or]
  name
    | .and => "AND"
    | .or => "OR"
  mem_all := by rintro ⟨⟩ <;> decide
  name_injective := by rintro ⟨⟩ ⟨⟩ <;> decide

/-- The comparison of one entry of a condition map. -/
inductive ComparisonOperator where
  | eq
  | ne
  | le
  | lt
  | ge
  | gt
  | notNull
  | null
  | contains
  | notContains
  | beginsWith
  | isIn
  | between
deriving DecidableEq

instance : WireEnum ComparisonOperator where
  kind := "ComparisonOperator"
  all := [.eq, .ne, .le, .lt, .ge, .gt, .notNull, .null, .contains, .notContains, .beginsWith,
    .isIn, .between]
  name
    | .eq => "EQ"
    | .ne => "NE"
    | .le => "LE"
    | .lt => "LT"
    | .ge => "GE"
    | .gt => "GT"
    | .notNull => "NOT_NULL"
    | .null => "NULL"
    | .contains => "CONTAINS"
    | .notContains => "NOT_CONTAINS"
    | .beginsWith => "BEGINS_WITH"
    | .isIn => "IN"
    | .between => "BETWEEN"
  mem_all := by rintro ⟨⟩ <;> decide
  name_injective := by rintro ⟨⟩ ⟨⟩ <;> decide

/-- What an entry of an update map does to its attribute. -/
inductive AttributeAction where
  | put
  | delete
  | add
deriving DecidableEq

instance : WireEnum AttributeAction where
  kind := "AttributeAction"
  all := [.put, .delete, .add]
  name
    | .put => "PUT"
    | .delete => "DELETE"
    | .add => "ADD"
  mem_all := by rintro ⟨⟩ <;> decide
  name_injective := by rintro ⟨⟩ ⟨⟩ <;> decide

end TableClient
