import TableClient.AttributeValue.Wire
/-!
# Values in wire documents

A `Wire` type has a written form as a JSON document. This module holds the forms of texts, flags,
numbers, enumerations, lists and dictionaries; records are built from them in `Wire.Record`.
-/

namespace TableClient

/-- A type with a form as a JSON document. -/
class Wire (α : Type) where
  read : Json → Except WireError α
  write : α → Json

namespace Wire

instance : Wire String where
  read
    | .string x => .ok x
    | _ => .error .misfit
  write := .string

instance : Wire Bool where
  read
    | .bool x => .ok x
    | _ => .error .misfit
  write := .bool

/-- An integer stands for itself if it fits; a number with a point is none, whatever its value. -/
instance : Wire Int32 where
  read
    | .number (.integer n) =>
      if Int32.minValue.toInt ≤ n ∧ n ≤ Int32.maxValue.toInt then .ok (Int32.ofInt n)
      else .error .misfit
    | _ => .error .misfit
  write n := .integer n.toInt

instance : Wire Int64 where
  read
    | .number (.integer n) =>
      if Int64.minValue.toInt ≤ n ∧ n ≤ Int64.maxValue.toInt then .ok (Int64.ofInt n)
      else .error .misfit
    | _ => .error .misfit
  write n := .integer n.toInt

/-- A floating-point field takes integers too and is written with a point. -/
instance : Wire Float where
  read
    | .number (.integer n) => .ok (Float.ofInt n)
    | .number (.real x) => .ok x
    | _ => .error .misfit
  write x := if x.isFinite then .number (.real x) else .null

instance : Wire AttributeValue where
  read := AttributeValue.ofJson
  write := AttributeValue.toJson

/-- An enumeration is its exact name, or an object with that name as its only field, of value null.
-/
instance {α : Type} [WireEnum α] : Wire α where
  read
    | .string text => (Named.ofName? text).elim (.error .misfit) .ok
    | .object [(text, .null)] => (Named.ofName? text).elim (.error .misfit) .ok
    | _ => .error .misfit
  write a := .string (Named.name a)

/-- A list is an array; the first item that does not fit counts. -/
instance {α : Type} [Wire α] : Wire (List α) where
  read
    | .array items => items.mapM read
    | _ => .error .misfit
  write xs := .array (xs.map write)

/-- A dictionary is an object; the first field that does not fit counts. -/
instance (priority := high) {α : Type} [Wire α] : Wire (Dict α) where
  read
    | .object fields => Dict.mapValuesM read fields
    | _ => .error .misfit
  write d := .object (Dict.mapValues write d)

end Wire
end TableClient
