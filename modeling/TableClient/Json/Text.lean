import TableClient.Json.Value
import TableClient.Decimal.Layout
/-!
# The compact text of a JSON document

No blanks, the fields in the order of their names. In strings the quote, the backslash and the
control characters are escaped and every other character stands for itself.
-/

namespace TableClient

/-- Floating-point numbers in JSON: whole ones end in `.0`, and a power of ten is used where the
point would stand more than 16 places right of the first digit or five left of it. JSON has no
spelling for the values that are not numbers; they are written `null`. -/
def JsonNumber.layout : Decimal.Layout where
  tie := .toEven
  wholeMark := ".0"
  isPositional place := -5 < place && place ≤ 16
  infinity := "null"
  notANumber := "null"

def JsonNumber.text : JsonNumber → String
  | .integer n => toString n
  | .real x =>
    if x.isFinite then JsonNumber.layout.text Decimal.binary64 x.toBits.toNat else "null"

namespace Json

/-- A digit of base 16, in lower case. -/
def hexDigit (n : Nat) : Char :=
  Nat.digitChar n

/-- One character inside a string. -/
def escapeChar (c : Char) : List Char :=
  match c with
  | '"' => ['\\', '"']
  | '\\' => ['\\', '\\']
  | '\n' => ['\\', 'n']
  | '\r' => ['\\', 'r']
  | '\t' => ['\\', 't']
  | '\x08' => ['\\', 'b']
  | '\x0c' => ['\\', 'f']
  | c =>
    if c.toNat < 0x20 then
      ['\\', 'u', '0', '0', hexDigit (c.toNat / 16), hexDigit (c.toNat % 16)]
    else [c]

/-- A string with its quotes. -/
def quoted (s : String) : String :=
  String.ofList ('"' :: s.toList.flatMap escapeChar ++ ['"'])

mutual
def text : Json → String
  | .null => "null"
  | .bool true => "true"
  | .bool false => "false"
  | .number n => n.text
  | .string s => quoted s
  | .array items => "[" ++ itemsText items ++ "]"
  | .object fields => "\x7b" ++ fieldsText fields ++ "\x7d"

/-- The items of an array with their commas. -/
def itemsText : List Json → String
  | [] => ""
  | [item] => text item
  | item :: rest => text item ++ "," ++ itemsText rest

/-- The fields of an object with their commas. -/
def fieldsText : List (String × Json) → String
  | [] => ""
  | [(name, value)] => quoted name ++ ":" ++ text value
  | (name, value) :: rest => quoted name ++ ":" ++ text value ++ "," ++ fieldsText rest
end

end Json
end TableClient
