import TableClient.Payload.Input
import TableClient.Request.Parts
import TableClient.TableDescriptor
/-!
# Scan requests
-/

namespace TableClient

/-- What a scan reads. -/
structure ScanOptions where
  filterCondition : Option (Condition String AttributeValue) := none
  /-- The filter as a map. -/
  scanFilter : Dict ConditionEntry := []
  /-- How the entries of `scanFilter` are joined. -/
  conditionalOperator : Option ConditionalOperator := none
  attributesToGet : List String := []
  limit : Option UInt32 := none
  /-- The part that this scan reads of a parallel scan, counted from zero. -/
  segment : Option UInt32 := none
  totalSegments : Option UInt32 := none
  exclusiveStartKey : Option Key := none
  consistentRead : Option Bool := none
  indexName : Option String := none
  select : Option Select := none
  returnConsumedCapacity : Option ReturnConsumedCapacity := none

namespace Request

/-- The segment of a parallel scan and their number as they are sent; both are given or none. -/
def parallelScan : Option UInt32 → Option UInt32 → Checked (Option Int32 × Option Int32)
  | some segment, some total =>
    if total = 0 ∨ maxTotalSegments < total then
      .error (.validation (.totalSegmentsOutOfRange total))
    else if total ≤ segment then .error (.validation (.segmentOutOfRange segment total))
    else .ok (some (Int32.ofNat segment.toNat), some (Int32.ofNat total.toNat))
  | none, none => .ok (none, none)
  | _, _ => .error (.validation .segmentIncomplete)

def scan (table : TableDescriptor) (config : ClientConfig) (o : ScanOptions) :
    Checked ScanInput := do
  o.indexName.forM fun index => do
    let _ ← table.indexKeys (some index)
  Checked.refuseIf (o.filterCondition.isSome && !o.scanFilter.isEmpty) .filterAndScanFilter
  Checked.refuseIf (o.conditionalOperator.isSome && o.scanFilter.isEmpty) .operatorWithoutScanFilter
  let (segment, totalSegments) ← parallelScan o.segment o.totalSegments
  checkSelect o.select (!o.attributesToGet.isEmpty) o.indexName.isSome
  let filter ← resolveFilter o.filterCondition o.scanFilter o.conditionalOperator
  let ((filter, projection), placeholders) ← Checked.expressions do
    let filter ← optionalCondition filter
    let projection ← projection o.attributesToGet
    return (filter, projection)
  return {
    tableName := table.tableName
    indexName := o.indexName
    filterExpression := filter
    projectionExpression := projection
    expressionAttributeNames := placeholders.attributeNames
    expressionAttributeValues := placeholders.attributeValues
    limit := ← wireLimit o.limit
    exclusiveStartKey := o.exclusiveStartKey.getD []
    segment
    totalSegments
    select := o.select
    consistentRead := o.consistentRead
    returnConsumedCapacity := capacityLevel config o.returnConsumedCapacity }

end Request
end TableClient
