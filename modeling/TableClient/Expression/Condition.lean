import TableClient.Expression.Path
/-!
# Conditions

A condition on an item, as a tree. The types of names and of literal values are left open: users
write conditions over texts and attribute values, expressions are printed from conditions over
numbers.
-/

namespace TableClient

/-- Where a value inside a condition or an update comes from. -/
inductive Operand (ν α : Type) where
  | literal (value : α)
  /-- The value at a place of the item. -/
  | reference (path : Path ν)
  /-- The size of the value at a place of the item. -/
  | size (path : Path ν)
deriving DecidableEq

namespace Operand

variable {ν α : Type}

/-- The place that the operand looks at. -/
def path? : Operand ν α → Option (Path ν)
  | .literal _ => none
  | .reference path | .size path => some path

/-- The literal that the operand is. -/
def literal? : Operand ν α → Option α
  | .literal value => some value
  | _ => none

/-- The attribute that the operand is the value of. -/
def attribute? : Operand ν α → Option ν
  | .reference path => path.attribute?
  | _ => none

/-- Whether the operand is the value of a place, and not its size or a literal. -/
def isReference : Operand ν α → Bool
  | .reference _ => true
  | _ => false

end Operand

inductive Condition (ν α : Type) where
  | compare (left : Operand ν α) (op : CompareOp) (right : Operand ν α)
  /-- Both bounds belong to the range. -/
  | between (value low high : Operand ν α)
  | among (value : Operand ν α) (candidates : List (Operand ν α))
  | function (name : FunctionName) (arguments : List (Operand ν α))
  | logical (op : LogicalOp) (left right : Condition ν α)
  | not (inner : Condition ν α)
deriving DecidableEq

namespace Condition

variable {ν α : Type}

def and (left right : Condition ν α) : Condition ν α :=
  .logical .and left right

def or (left right : Condition ν α) : Condition ν α :=
  .logical .or left right

/-! ## Operands -/

/-- The operands in the order of the written form. -/
def operands : Condition ν α → List (Operand ν α)
  | .compare left _ right => [left, right]
  | .between value low high => [value, low, high]
  | .among value candidates => value :: candidates
  | .function _ arguments => arguments
  | .logical _ left right => left.operands ++ right.operands
  | .not inner => inner.operands

/-- The attributes that the condition looks at, in the order of the written form. -/
def attributes (c : Condition ν α) : List ν :=
  c.operands.filterMap fun operand => operand.path?.map (·.root)

/-- The literals in the order of the written form. -/
def literals (c : Condition ν α) : List α :=
  c.operands.filterMap Operand.literal?

/-! ## Sort key conditions -/

/-- Whether the condition compares exactly this attribute with literals in a way that the sort key
of a query allows. -/
def isSortCondition [DecidableEq ν] (name : ν) : Condition ν α → Bool
  | .compare left op (.literal _) => op ≠ .ne && left.attribute? = some name
  | .between value (.literal _) (.literal _) => value.attribute? = some name
  | .function .beginsWith [value, .literal _] => value.attribute? = some name
  | _ => false

/-- The attribute that a comparison is about. -/
def subject? : Condition ν α → Option ν
  | .compare left _ _ => left.attribute?
  | .between value _ _ => value.attribute?
  | .function _ (value :: _) => value.attribute?
  | _ => none

/-- The attribute that the condition holds equal to a literal. -/
def partition? : Condition ν α → Option ν
  | .compare left .eq (.literal _) => left.attribute?
  | _ => none

end Condition

/-! ## Building conditions -/

namespace Path

variable {ν α : Type}

/-- A comparison of the value at a place with a literal. -/
def compare (p : Path ν) (op : CompareOp) (value : α) : Condition ν α :=
  .compare (.reference p) op (.literal value)

def equals (p : Path ν) (value : α) : Condition ν α :=
  p.compare .eq value

/-- There is a value at the place. -/
def present (p : Path ν) : Condition ν α :=
  .function .attributeExists [.reference p]

/-- There is no value at the place. -/
def missing (p : Path ν) : Condition ν α :=
  .function .attributeNotExists [.reference p]

def beginsWith (p : Path ν) (operand : Operand ν α) : Condition ν α :=
  .function .beginsWith [.reference p, operand]

/-- The value at a place contains an operand, as a part of a text or a member of a set. -/
def contains (p : Path ν) (operand : Operand ν α) : Condition ν α :=
  .function .contains [.reference p, operand]

/-- The value at a place is of the type with this tag. -/
def hasType (p : Path String) (tag : String) :
    Except ExpressionError (Condition String AttributeValue) :=
  match (Named.ofName? tag : Option TypeTag) with
  | some _ => .ok (.function .attributeType [.reference p, .literal (.string tag)])
  | none => .error (.invalidOperand (.unknownTag tag))

end Path
end TableClient
