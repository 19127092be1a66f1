import TableClient.Naming
/-!
# Operations of the service
-/

namespace TableClient

/-- An action of the service that the client uses. -/
inductive Operation where
  | createTable
  | deleteTable
  | describeTable
  | updateTable
  | putItem
  | getItem
  | updateItem
  | deleteItem
  | query
  | scan
  | batchGetItem
  | batchWriteItem
deriving DecidableEq

instance : Named Operation where
  all := [.createTable, .deleteTable, .describeTable, .updateTable, .putItem, .getItem, .updateItem,
    .deleteItem, .query, .scan, .batchGetItem, .batchWriteItem]
  name
    | .createTable => "CreateTable"
    | .deleteTable => "DeleteTable"
    | .describeTable => "DescribeTable"
    | .updateTable => "UpdateTable"
    | .putItem => "PutItem"
    | .getItem => "GetItem"
    | .updateItem => "UpdateItem"
    | .deleteItem => "DeleteItem"
    | .query => "Query"
    | .scan => "Scan"
    | .batchGetItem => "BatchGetItem"
    | .batchWriteItem => "BatchWriteItem"
  mem_all := by rintro ⟨⟩ <;> decide
  name_injective := by rintro ⟨⟩ ⟨⟩ <;> decide

namespace Operation

/-- Whether the operation is about tables and not about their items. -/
def isControlPlane : Operation → Bool
  | .createTable | .deleteTable | .describeTable | .updateTable => true
  | _ => false

/-- The value of the header that names the operation. -/
def target (op : Operation) : String :=
  "DynamoDB_20120810." ++ Named.name op

end Operation
end TableClient
