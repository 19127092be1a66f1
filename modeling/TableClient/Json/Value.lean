import TableClient.Dict
/-!
# JSON documents

A number is an integer of at most 64 bits, signed or not, or a floating-point value: the two print
differently and fit different fields. The fields of an object form a dictionary.
-/

namespace TableClient

inductive JsonNumber where
  /-- A number written without point and exponent that fits 64 bits. -/
  | integer (value : Int)
  /-- Any other number. -/
  | real (value : Float)
deriving Inhabited

inductive Json where
  | null
  | bool (value : Bool)
  | number (value : JsonNumber)
  | string (value : String)
  | array (items : List Json)
  /-- The fields stand in ascending order of their names. -/
  | object (fields : List (String × Json))
deriving Inhabited

namespace Json

def integer (n : Int) : Json :=
  .number (.integer n)

/-- An object whose fields are given in any order. -/
def ofFields (fields : List (String × Json)) : Json :=
  .object (Dict.ofList fields)

/-- The value of a field, if the document is an object that has it. -/
def field? : Json → String → Option Json
  | .object fields, name => Dict.get? fields name
  | _, _ => none

/-- The text, if the document is a string. -/
def string? : Json → Option String
  | .string s => some s
  | _ => none

end Json
end TableClient
