import TableClient.Ascending
import TableClient.AttributeValue.Basic
import TableClient.Decimal.Layout
import TableClient.Decimal.Literal
/-!
# Native values

`NativeType` is the universe of types that programs keep in attributes, `NativeType.Value` what a
value of such a type is, `encode` and `decode` the way to attribute values and back. An absent
option is encoded as null, so an option around an absent option comes back absent.
-/

namespace TableClient

/-! ## Failures -/

/-- Why an attribute value and a native type do not go together. -/
inductive CodecError where
  | typeMismatch (expected found : TypeTag)
  | invalidNumber (literal : String)
  /-- The service refuses empty sets. -/
  | emptySet (tag : TypeTag)
deriving DecidableEq

def CodecError.message : CodecError → String
  | .typeMismatch expected found =>
    "expected " ++ expected.name ++ " attribute value, found " ++ found.name
  | .invalidNumber literal => "invalid number literal '" ++ literal ++ "'"
  | .emptySet tag => tag.name ++ " sets must contain at least one element"

/-! ## Numbers and sets as attribute values -/

namespace AttributeValue

def ofInteger (n : Int) : AttributeValue :=
  .number (toString n)

/-- Floating-point numbers in number literals: every digit in its place, never a power of ten. -/
def realLayout : Decimal.Layout where
  tie := .up
  wholeMark := ""
  isPositional _ := true
  infinity := "inf"
  notANumber := "NaN"

def realLiteral (x : Float) : String :=
  realLayout.text Decimal.binary64 x.toBits.toNat

/-- The literal of a floating-point number of single precision. -/
def singleLiteral (x : Float32) : String :=
  realLayout.text Decimal.binary32 x.toBits.toNat

def ofReal (x : Float) : AttributeValue :=
  .number (realLiteral x)

def ofSingle (x : Float32) : AttributeValue :=
  .number (singleLiteral x)

/-- What an absent value is written as. -/
def absent : AttributeValue := .null true

/-- A set of strings, refused when empty. -/
def stringSet? (members : List String) : Except CodecError AttributeValue :=
  if members.isEmpty then .error (.emptySet .ss) else .ok (.stringSet members)

/-- A set of numbers by their literals, refused when empty. -/
def numberSet? (literals : List String) : Except CodecError AttributeValue :=
  if literals.isEmpty then .error (.emptySet .ns) else .ok (.numberSet literals)

/-- A set of byte sequences, refused when empty. -/
def binarySet? (members : List Bytes) : Except CodecError AttributeValue :=
  if members.isEmpty then .error (.emptySet .bs) else .ok (.binarySet members)

end AttributeValue

/-! ## The universe -/

/-- The types of native values. -/
inductive NativeType where
  | string
  | bool
  | bytes
  /-- The integers of a range. -/
  | integer (range : Decimal.IntegerRange)
  | real
  | option (element : NativeType)
  | list (element : NativeType)
  | map (element : NativeType)
  | stringSet
  | numberSet
  | binarySet

namespace NativeType

/-- The integers that sets of numbers hold. -/
abbrev setRange : Decimal.IntegerRange := .signed 64

def Value : NativeType → Type
  | string => String
  | bool => Bool
  | bytes => Bytes
  | integer range => { n : Int // range.has n = true }
  | real => Float
  | option element => Option element.Value
  | list element => List element.Value
  | map element => Dict element.Value
  | stringSet => List String
  | numberSet => List { n : Int // setRange.has n = true }
  | binarySet => List Bytes

/-- The attribute value of a native value. -/
def encode : (t : NativeType) → t.Value → AttributeValue
  | string, x => .string x
  | bool, x => .bool x
  | bytes, x => .binary x
  | integer _, n => .ofInteger n.val
  | real, x => .ofReal x
  | option _, none => .absent
  | option element, some x => element.encode x
  | list element, xs => .list (List.map element.encode xs)
  | map element, xs => .map (Dict.mapValues element.encode xs)
  | stringSet, xs => .stringSet xs
  | numberSet, xs => .numberSet (List.map (fun n => toString n.val) xs)
  | binarySet, xs => .binarySet xs

/-- The failure of a value of another type. -/
def mismatch {α : Type} (expected : TypeTag) (value : AttributeValue) : Except CodecError α :=
  .error (.typeMismatch expected value.tag)

/-- The integer of a range that a literal denotes. -/
def readInteger (range : Decimal.IntegerRange) (literal : String) :
    Except CodecError { n : Int // range.has n = true } :=
  match range.ofText? literal with
  | some n =>
    if h : range.has n = true then .ok ⟨n, h⟩ else .error (.invalidNumber literal)
  | none => .error (.invalidNumber literal)

/-- The native value of an attribute value. Inside a collection the first failure counts. -/
def decode : (t : NativeType) → AttributeValue → Except CodecError t.Value
  | string, .string x => .ok x
  | string, v => mismatch .s v
  | bool, .bool x => .ok x
  | bool, v => mismatch .bool v
  | bytes, .binary x => .ok x
  | bytes, v => mismatch .b v
  | integer range, .number literal => readInteger range literal
  | integer _, v => mismatch .n v
  | real, .number literal =>
    match Decimal.real? literal with
    | some x => .ok x
    | none => .error (.invalidNumber literal)
  | real, v => mismatch .n v
  | option element, v => if v.isNull then .ok none else (element.decode v).map some
  | list element, .list items => items.mapM element.decode
  | list _, v => mismatch .l v
  | map element, .map entries => Dict.mapValuesM element.decode entries
  | map _, v => mismatch .m v
  | stringSet, .stringSet members => .ok (ascending (fun x y => decide (x < y)) members)
  | stringSet, v => mismatch .ss v
  | numberSet, .numberSet literals =>
    (literals.mapM (readInteger setRange)).map
      (ascending fun (x y : { n : Int // setRange.has n = true }) => decide (x.val < y.val))
  | numberSet, v => mismatch .ns v
  | binarySet, .binarySet members => .ok (ascending (fun x y => decide (x < y)) members)
  | binarySet, v => mismatch .bs v

end NativeType
end TableClient
