import TableClient.AttributeValue.Wire
import TableClient.Duration
import TableClient.Expression.Error
import TableClient.Service.Error
/-!
# Errors of the client

A request that is refused before it is sent has a `ValidationFault`. All failures of a client
operation are a `ClientError`.
-/

namespace TableClient

/-- Why a request is refused before it is sent. -/
inductive ValidationFault where
  -- tables and keys
  | unnamedTable
  | noHashKey (table : String)
  | unknownIndex (table index : String)
  | keyType (name : String) (expected : ScalarAttributeType) (found : TypeTag)
  | rangeKeyRequired (table name : String)
  | noRangeKey (table : String)
  | missingKey (name : String)
  -- creation and change of tables
  | definitionsRequired
  | keySchemaRequired
  | throughputIncomplete
  | throughputOnDemand
  | nothingToUpdate
  -- conditions and updates given twice or without their map
  | actionsAndUpdates
  | conditionAndExpected
  | operatorWithoutExpected
  | rangeKeyAndKeyConditions
  | filterAndQueryFilter
  | operatorWithoutQueryFilter
  | filterAndScanFilter
  | operatorWithoutScanFilter
  -- what a query or scan returns
  | projectedWithoutIndex
  | specificWithoutAttributes
  | attributesWith (select : Select)
  | limitTooLarge (limit : UInt32)
  -- keys and filters of a query
  | notRangeKeyCondition (rangeKey : Option String)
  | keyConditionOff (name : String)
  | filterOnKey (name : String)
  -- parallel and paced scans
  | segmentIncomplete
  | totalSegmentsOutOfRange (total : UInt32)
  | segmentOutOfRange (segment total : UInt32)
  | zeroRate
  | zeroPageSize
  -- batches
  | emptyBatchGet
  | emptyBatchWrite

/-- The largest number of segments of a parallel scan. -/
def maxTotalSegments : UInt32 := 1000000

def ValidationFault.message : ValidationFault → String
  | .unnamedTable => "table description has no TableName"
  | .noHashKey table => "table " ++ table ++ " has no HASH key in its schema"
  | .unknownIndex table index => "table " ++ table ++ " has no index named " ++ index
  | .keyType name expected found =>
    "key attribute " ++ name ++ " must be of type " ++ Named.name expected ++ ", got " ++ found.name
  | .rangeKeyRequired table name => "table " ++ table ++ " requires a value for range key " ++ name
  | .noRangeKey table => "table " ++ table ++ " has no range key"
  | .missingKey name => "missing key attribute " ++ name
  | .definitionsRequired => "attribute_definitions argument is required"
  | .keySchemaRequired => "key_schema argument is required"
  | .throughputIncomplete => "read_capacity_units and write_capacity_units must be given together"
  | .throughputOnDemand => "provisioned throughput cannot be set with PAY_PER_REQUEST billing"
  | .nothingToUpdate => "update_table requires throughput, billing mode or index updates"
  | .actionsAndUpdates => "actions and attribute_updates are mutually exclusive"
  | .conditionAndExpected => "condition and expected are mutually exclusive"
  | .operatorWithoutExpected =>
    "ConditionalOperator cannot be used without Expected or with an empty Expected map"
  | .rangeKeyAndKeyConditions => "range_key_condition and key_conditions are mutually exclusive"
  | .filterAndQueryFilter => "filter_condition and query_filter are mutually exclusive"
  | .operatorWithoutQueryFilter => "ConditionalOperator cannot be used without QueryFilter"
  | .filterAndScanFilter => "filter_condition and scan_filter are mutually exclusive"
  | .operatorWithoutScanFilter => "ConditionalOperator cannot be used without ScanFilter"
  | .projectedWithoutIndex => "ALL_PROJECTED_ATTRIBUTES is only supported for secondary indexes"
  | .specificWithoutAttributes => "SPECIFIC_ATTRIBUTES requires attributes_to_get"
  | .attributesWith select =>
    "Cannot specify attributes_to_get when choosing to get " ++ Named.name select ++ " results"
  | .limitTooLarge limit => "limit " ++ toString limit ++ " is too large"
  | .notRangeKeyCondition rangeKey =>
    "range_key_condition is not a valid condition on range key " ++ rangeKey.getD "(none)"
  | .keyConditionOff name => "key_conditions may only constrain the range key, got " ++ name
  | .filterOnKey name => "Filter Expression can not contain key attribute " ++ name
  | .segmentIncomplete => "segment and total_segments must be given together"
  | .totalSegmentsOutOfRange total =>
    "total_segments must be between 1 and " ++ toString maxTotalSegments ++ ", got " ++
      toString total
  | .segmentOutOfRange segment total =>
    "segment is zero-indexed and must be less than total_segments. Segment: " ++
      toString segment ++ ", TotalSegments: " ++ toString total
  | .zeroRate => "read_capacity_to_consume_per_second must be positive"
  | .zeroPageSize => "page_size must be positive"
  | .emptyBatchGet => "batch_get_item requires at least one key"
  | .emptyBatchWrite => "batch_write_item requires put_items or delete_items"

/-- Why an operation of the client failed. -/
inductive ClientError where
  | validation (fault : ValidationFault)
  | compile (error : ExpressionError)
  | service (error : ServiceError)
  /-- A scan was throttled more often in a row than it bears. -/
  | exhausted (attempts : Nat) (last : ServiceError)
  | scanTimeout (timeout : Duration)
  /-- A page of a scan does not tell what it cost. -/
  | missingConsumedCapacity
  /-- An answer of the service does not fit its type. -/
  | serialization (error : WireError)

namespace ClientError

def message : ClientError → String
  | .validation fault => "Validation error: " ++ fault.message
  | .compile error => error.message
  | .service error => error.message
  | .exhausted attempts last =>
    "Scan throttled " ++ toString attempts ++ " consecutive times; last error: " ++ last.message
  | .scanTimeout timeout => "Scan timed out after " ++ timeout.text
  | .missingConsumedCapacity =>
    "Scan response is missing ConsumedCapacity; request TOTAL capacity or allow scanning without it"
  | .serialization error => "Serialization error: " ++ error.message?.getD "unexpected document"

/-- Whether the operation may succeed when it is repeated later. -/
def isRetryable : ClientError → Bool
  | .service error => error.isThrottling
  | _ => false

/-- The failed call behind the failure, if there is one. -/
def serviceError? : ClientError → Option ServiceError
  | .service error => some error
  | .exhausted _ last => some last
  | _ => none

end ClientError
end TableClient
