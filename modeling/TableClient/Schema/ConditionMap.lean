import TableClient.Wire.Record
/-!
# Conditions and updates as maps

The older form of conditions and updates: an entry for each attribute, in place of an expression.
-/

namespace TableClient

open Record

/-- What one attribute is compared with, in a filter or a key condition. -/
structure ConditionEntry where
  comparisonOperator : ComparisonOperator
  attributeValueList : List AttributeValue := []

def ConditionEntry.record : Record ConditionEntry ConditionEntry :=
  ConditionEntry.mk <$> required "ComparisonOperator" (·.comparisonOperator)
    <*> nonempty "AttributeValueList" (·.attributeValueList)

instance : Wire ConditionEntry := ConditionEntry.record.wire

/-- What one attribute is changed to; without an action it is replaced. -/
structure UpdateEntry where
  value : Option AttributeValue := none
  action : Option AttributeAction := none

def UpdateEntry.record : Record UpdateEntry UpdateEntry :=
  UpdateEntry.mk <$> option "Value" (·.value)
    <*> option "Action" (·.action)

instance : Wire UpdateEntry := UpdateEntry.record.wire

/-- What a write expects of one attribute: in the simple form a value or its existence, in the
extended form a comparison and its operands. -/
structure ExpectedEntry where
  value : Option AttributeValue := none
  present : Option Bool := none
  comparisonOperator : Option ComparisonOperator := none
  attributeValueList : List AttributeValue := []

def ExpectedEntry.record : Record ExpectedEntry ExpectedEntry :=
  ExpectedEntry.mk <$> option "Value" (·.value)
    <*> option "Exists" (·.present)
    <*> option "ComparisonOperator" (·.comparisonOperator)
    <*> nonempty "AttributeValueList" (·.attributeValueList)

instance : Wire ExpectedEntry := ExpectedEntry.record.wire

end TableClient
