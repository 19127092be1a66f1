import TableClient.Base64
import TableClient.Dict
import TableClient.Schema.Names
/-!
# Attribute values

What an item holds under a name. Numbers are kept as their decimal text, so no digit is lost on the
way to the service. A map holds its entries in the order of their names; `WellFormed` says so at
every depth, and then equal content is equality.
-/

namespace TableClient

inductive AttributeValue where
  | string (text : String)
  /-- A number, by its decimal text. -/
  | number (literal : String)
  | binary (bytes : Bytes)
  | stringSet (members : List String)
  | numberSet (members : List String)
  | binarySet (members : List Bytes)
  | bool (value : Bool)
  /-- The null marker; the service sends no other than `true`. -/
  | null (marker : Bool)
  | list (items : List AttributeValue)
  | map (entries : List (String × AttributeValue))
deriving Inhabited

/-- An item: its attributes by name. -/
abbrev Item := Dict AttributeValue

/-- A primary key: its key attributes by name. -/
abbrev Key := Dict AttributeValue

/-! ## Type tags -/

/-- The types of attribute values. -/
inductive TypeTag where
  | s
  | n
  | b
  | ss
  | ns
  | bs
  | bool
  | null
  | l
  | m
deriving DecidableEq

instance : Named TypeTag where
  all := [.s, .n, .b, .ss, .ns, .bs, .bool, .null, .l, .m]
  name
    | .s => "S"
    | .n => "N"
    | .b => "B"
    | .ss => "SS"
    | .ns => "NS"
    | .bs => "BS"
    | .bool => "BOOL"
    | .null => "NULL"
    | .l => "L"
    | .m => "M"
  mem_all := by rintro ⟨⟩ <;> decide
  name_injective := by rintro ⟨⟩ ⟨⟩ <;> decide

abbrev TypeTag.name (tag : TypeTag) : String :=
  Named.name tag

namespace AttributeValue

def tag : AttributeValue → TypeTag
  | .string _ => .s
  | .number _ => .n
  | .binary _ => .b
  | .stringSet _ => .ss
  | .numberSet _ => .ns
  | .binarySet _ => .bs
  | .bool _ => .bool
  | .null _ => .null
  | .list _ => .l
  | .map _ => .m

/-- The type of a value as a key attribute, if it can be one. -/
def scalarType? : AttributeValue → Option ScalarAttributeType
  | .string _ => some .s
  | .number _ => some .n
  | .binary _ => some .b
  | _ => none

/-- Whether the value is the null marker that the service sends. -/
def isNull : AttributeValue → Bool
  | .null marker => marker
  | _ => false

def isSet : AttributeValue → Bool
  | .stringSet _ | .numberSet _ | .binarySet _ => true
  | _ => false

def isNumber : AttributeValue → Bool
  | .number _ => true
  | _ => false

/-! ## Equality -/

mutual
/-- Whether two values are the same. -/
def beq : AttributeValue → AttributeValue → Bool
  | .string x, .string y => x = y
  | .number x, .number y => x = y
  | .binary x, .binary y => x = y
  | .stringSet x, .stringSet y => x = y
  | .numberSet x, .numberSet y => x = y
  | .binarySet x, .binarySet y => x = y
  | .bool x, .bool y => x = y
  | .null x, .null y => x = y
  | .list x, .list y => beqItems x y
  | .map x, .map y => beqEntries x y
  | _, _ => false

def beqItems : List AttributeValue → List AttributeValue → Bool
  | [], [] => true
  | a :: as, b :: bs => beq a b && beqItems as bs
  | _, _ => false

def beqEntries : List (String × AttributeValue) → List (String × AttributeValue) → Bool
  | [], [] => true
  | (k, a) :: as, (l, b) :: bs => k = l && beq a b && beqEntries as bs
  | _, _ => false
end

mutual
theorem beq_iff : ∀ a b : AttributeValue, beq a b = true ↔ a = b
  | .list x, .list y => by simp [beq, beqItems_iff x y]
  | .map x, .map y => by simp [beq, beqEntries_iff x y]
  | .string _, b | .number _, b | .binary _, b | .stringSet _, b | .numberSet _, b
  | .binarySet _, b | .bool _, b | .null _, b => by cases b <;> simp [beq]
  | .list _, .string _ | .list _, .number _ | .list _, .binary _ | .list _, .stringSet _
  | .list _, .numberSet _ | .list _, .binarySet _ | .list _, .bool _ | .list _, .null _
  | .list _, .map _ => by simp [beq]
  | .map _, .string _ | .map _, .number _ | .map _, .binary _ | .map _, .stringSet _
  | .map _, .numberSet _ | .map _, .binarySet _ | .map _, .bool _ | .map _, .null _
  | .map _, .list _ => by simp [beq]

theorem beqItems_iff : ∀ as bs : List AttributeValue, beqItems as bs = true ↔ as = bs
  | [], [] => by simp [beqItems]
  | [], _ :: _ => by simp [beqItems]
  | _ :: _, [] => by simp [beqItems]
  | a :: as, b :: bs => by simp [beqItems, beq_iff a b, beqItems_iff as bs]

theorem beqEntries_iff : ∀ as bs : List (String × AttributeValue), beqEntries as bs = true ↔ as = bs
  | [], [] => by simp [beqEntries]
  | [], _ :: _ => by simp [beqEntries]
  | _ :: _, [] => by simp [beqEntries]
  | (k, a) :: as, (l, b) :: bs => by simp [beqEntries, beq_iff a b, beqEntries_iff as bs]
end

instance : DecidableEq AttributeValue := fun a b => decidable_of_iff _ (beq_iff a b)

/-! ## Form -/

mutual
/-- Every map in the value has its entries in strictly ascending order of their names. -/
def WellFormed : AttributeValue → Prop
  | .list items => ItemsWellFormed items
  | .map entries => Dict.Sorted entries ∧ EntriesWellFormed entries
  | _ => True

def ItemsWellFormed : List AttributeValue → Prop
  | [] => True
  | item :: rest => WellFormed item ∧ ItemsWellFormed rest

def EntriesWellFormed : List (String × AttributeValue) → Prop
  | [] => True
  | (_, value) :: rest => WellFormed value ∧ EntriesWellFormed rest
end

/-- The value in short, for messages. -/
def summary : AttributeValue → String
  | .string x => "\x7bS: " ++ x ++ "\x7d"
  | .number x => "\x7bN: " ++ x ++ "\x7d"
  | .binary x => "\x7bB: " ++ toString x.length ++ " bytes\x7d"
  | .stringSet x => "\x7bSS: " ++ Text.quotedList x ++ "\x7d"
  | .numberSet x => "\x7bNS: " ++ Text.quotedList x ++ "\x7d"
  | .binarySet x => "\x7bBS: " ++ toString x.length ++ " items\x7d"
  | .bool x => "\x7bBOOL: " ++ toString x ++ "\x7d"
  | .null x => "\x7bNULL: " ++ toString x ++ "\x7d"
  | .list x => "\x7bL: " ++ toString x.length ++ " items\x7d"
  | .map x => "\x7bM: " ++ toString x.length ++ " keys\x7d"

end AttributeValue
end TableClient
