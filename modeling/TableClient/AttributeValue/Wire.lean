import TableClient.AttributeValue.Basic
import TableClient.Json.Value
/-!
# Attribute values as JSON documents

Every value is an object with one field: its tag, with the payload of that type. Bytes are base64
text. Reading takes exactly the documents that writing makes, up to the order of fields.
-/

namespace TableClient

/-- Why a document does not fit a type. -/
inductive WireError where
  /-- A document of the wrong form, or a field that is missing or out of range. -/
  | misfit
  /-- An attribute value with no tag or with several. -/
  | notOneTag
  /-- An attribute value with an unknown tag. -/
  | unknownTag (tag : String)
deriving DecidableEq

/-- A word between marks that set it off as code. -/
private def asCode (word : String) : String :=
  String.singleton (Char.ofNat 96) ++ word ++ String.singleton (Char.ofNat 96)

/-- The text for the causes that have one of their own. -/
def WireError.message? : WireError → Option String
  | .misfit => none
  | .notOneTag => some "AttributeValue must have exactly one key"
  | .unknownTag tag =>
    some ("unknown field " ++ asCode tag ++ ", expected one of " ++
      ", ".intercalate ((Named.names TypeTag).map asCode))

namespace AttributeValue

/-! ## Writing -/

mutual
def toJson : AttributeValue → Json
  | .string x => .object [("S", .string x)]
  | .number x => .object [("N", .string x)]
  | .binary x => .object [("B", .string (Base64.encode x))]
  | .stringSet x => .object [("SS", .array (x.map .string))]
  | .numberSet x => .object [("NS", .array (x.map .string))]
  | .binarySet x => .object [("BS", .array (x.map fun bytes => .string (Base64.encode bytes)))]
  | .bool x => .object [("BOOL", .bool x)]
  | .null x => .object [("NULL", .bool x)]
  | .list x => .object [("L", .array (itemsToJson x))]
  | .map x => .object [("M", .object (entriesToJson x))]

def itemsToJson : List AttributeValue → List Json
  | [] => []
  | item :: rest => toJson item :: itemsToJson rest

def entriesToJson : List (String × AttributeValue) → List (String × Json)
  | [] => []
  | (name, value) :: rest => (name, toJson value) :: entriesToJson rest
end

/-! ## Reading -/

/-- The texts of an array of strings. -/
def texts? : List Json → Option (List String)
  | [] => some []
  | .string x :: rest => (texts? rest).map (x :: ·)
  | _ :: _ => none

/-- A payload of a type without values inside. -/
def flat? : TypeTag → Json → Option AttributeValue
  | .s, .string x => some (.string x)
  | .n, .string x => some (.number x)
  | .b, .string x => (Base64.decode? x).map .binary
  | .ss, .array xs => (texts? xs).map .stringSet
  | .ns, .array xs => (texts? xs).map .numberSet
  | .bs, .array xs => (texts? xs).bind fun members => (members.mapM Base64.decode?).map .binarySet
  | .bool, .bool x => some (.bool x)
  | .null, .bool x => some (.null x)
  | _, _ => none

mutual
/-- The value of a document. The field that comes first is read before it is asked whether another
follows. -/
def ofJson : Json → Except WireError AttributeValue
  | .object [] => .error .notOneTag
  | .object ((name, payload) :: rest) =>
    match Named.ofName? name with
    | none => .error (.unknownTag name)
    | some tag => do
      let value ← ofPayload tag payload
      match rest with
      | [] => return value
      | _ :: _ => .error .notOneTag
  | _ => .error .misfit

/-- The value of a type with this payload. -/
def ofPayload (tag : TypeTag) : Json → Except WireError AttributeValue
  | .array items =>
    if tag = .l then (itemsOfJson items).map .list
    else (flat? tag (.array items)).elim (.error .misfit) .ok
  | .object fields => if tag = .m then (entriesOfJson fields).map .map else .error .misfit
  | payload => (flat? tag payload).elim (.error .misfit) .ok

/-- The values of an array; the first failure counts. -/
def itemsOfJson : List Json → Except WireError (List AttributeValue)
  | [] => .ok []
  | item :: rest => do
    let value ← ofJson item
    let values ← itemsOfJson rest
    return value :: values

/-- The values of the fields of an object; the first failure counts. -/
def entriesOfJson : List (String × Json) → Except WireError (List (String × AttributeValue))
  | [] => .ok []
  | (name, field) :: rest => do
    let value ← ofJson field
    let values ← entriesOfJson rest
    return (name, value) :: values
end

end AttributeValue
end TableClient
