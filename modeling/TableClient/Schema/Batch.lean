import TableClient.Wire.Record
/-!
# Elements of batches

What a batch asks for or changes, item by item. A put and a delete are one type of document, in
which the field of the other is left out.
-/

namespace TableClient

open Record

/-- The keys to be read from one table, and what to return of the items. -/
structure KeysAndAttributes where
  keys : List Key
  projectionExpression : Option String := none
  expressionAttributeNames : Dict String := []
  consistentRead : Option Bool := none

def KeysAndAttributes.record : Record KeysAndAttributes KeysAndAttributes :=
  KeysAndAttributes.mk <$> required "Keys" (·.keys)
    <*> option "ProjectionExpression" (·.projectionExpression)
    <*> nonempty "ExpressionAttributeNames" (·.expressionAttributeNames)
    <*> option "ConsistentRead" (·.consistentRead)

instance : Wire KeysAndAttributes := KeysAndAttributes.record.wire

/-- An item to be put. -/
structure PutRequest where
  item : Item

def PutRequest.record : Record PutRequest PutRequest :=
  PutRequest.mk <$> required "Item" (·.item)

instance : Wire PutRequest := PutRequest.record.wire

/-- The key of an item to be deleted. -/
structure DeleteRequest where
  key : Key

def DeleteRequest.record : Record DeleteRequest DeleteRequest :=
  DeleteRequest.mk <$> required "Key" (·.key)

instance : Wire DeleteRequest := DeleteRequest.record.wire

/-- A put or a delete; the one that it is not is absent. -/
structure WriteRequest where
  putRequest : Option PutRequest := none
  deleteRequest : Option DeleteRequest := none

def WriteRequest.record : Record WriteRequest WriteRequest :=
  WriteRequest.mk <$> option "PutRequest" (·.putRequest)
    <*> option "DeleteRequest" (·.deleteRequest)

instance : Wire WriteRequest := WriteRequest.record.wire

def WriteRequest.put (item : Item) : WriteRequest :=
  ⟨some ⟨item⟩, none⟩

def WriteRequest.delete (key : Key) : WriteRequest :=
  ⟨none, some ⟨key⟩⟩

end TableClient
