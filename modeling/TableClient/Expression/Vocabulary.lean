import TableClient.Naming
/-!
# The words of expressions

Comparison and logical operators, the functions of conditions and the clauses of updates, each with
the word that expressions use for it.
-/

namespace TableClient

/-- A comparison of two operands. -/
inductive CompareOp where
  | eq
  | ne
  | lt
  | le
  | gt
  | ge
deriving DecidableEq

instance : Named CompareOp where
  all := [.eq, .ne, .lt, .le, .gt, .ge]
  name
    | .eq => "="
    | .ne => "<>"
    | .lt => "<"
    | .le => "<="
    | .gt => ">"
    | .ge => ">="
  mem_all := by rintro ⟨⟩ <;> decide
  name_injective := by rintro ⟨⟩ ⟨⟩ <;> decide

/-- A join of two conditions. -/
inductive LogicalOp where
  | and
  | or
deriving DecidableEq

instance : Named LogicalOp where
  all := [.and, .or]
  name
    | .and => "AND"
    | .or => "OR"
  mem_all := by rintro ⟨⟩ <;> decide
  name_injective := by rintro ⟨⟩ ⟨⟩ <;> decide

/-- A function that is a condition. -/
inductive FunctionName where
  | attributeExists
  | attributeNotExists
  | attributeType
  | beginsWith
  | contains
deriving DecidableEq

instance : Named FunctionName where
  all := [.attributeExists, .attributeNotExists, .attributeType, .beginsWith, .contains]
  name
    | .attributeExists => "attribute_exists"
    | .attributeNotExists => "attribute_not_exists"
    | .attributeType => "attribute_type"
    | .beginsWith => "begins_with"
    | .contains => "contains"
  mem_all := by rintro ⟨⟩ <;> decide
  name_injective := by rintro ⟨⟩ ⟨⟩ <;> decide

/-- How many arguments a function takes. -/
def FunctionName.arity : FunctionName → Nat
  | .attributeExists | .attributeNotExists => 1
  | .attributeType | .beginsWith | .contains => 2

/-- A clause of an update. -/
inductive Clause where
  | set
  | remove
  | add
  | delete
deriving DecidableEq

/-- The order of `all` is the order of the clauses in an update. -/
instance : Named Clause where
  all := [.set, .remove, .add, .delete]
  name
    | .set => "SET"
    | .remove => "REMOVE"
    | .add => "ADD"
    | .delete => "DELETE"
  mem_all := by rintro ⟨⟩ <;> decide
  name_injective := by rintro ⟨⟩ ⟨⟩ <;> decide

end TableClient
