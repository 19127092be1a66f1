import TableClient.AttributeValue.Basic
import TableClient.Expression.Vocabulary
/-!
# Faults of expressions

Everything that can be wrong with a path, a condition, an update or a condition map, and the report
of each fault.
-/

namespace TableClient

/-- What is wrong with the text of a path. -/
inductive PathFault where
  | emptyName
  | unbalancedBracket
  | unterminatedIndex
  | badIndex
  /-- Something other than an index stands behind an index. -/
  | expectedIndex
deriving DecidableEq

def PathFault.message : PathFault → String
  | .emptyName => "empty attribute name"
  | .unbalancedBracket => "unbalanced ']'"
  | .unterminatedIndex => "unterminated list index"
  | .badIndex => "list index must be a non-negative integer"
  | .expectedIndex => "expected '[' after list index"

/-- Why an operand does not suit its operation. -/
inductive OperandFault where
  /-- Membership in an empty list. -/
  | noCandidate
  | argumentCount (function : FunctionName) (found : Nat)
  | firstArgumentNotPath (function : FunctionName)
  | unknownTag (tag : String)
  /-- Only numbers and sets can be added to. -/
  | notAddable (found : TypeTag)
  /-- Only members of sets can be deleted from. -/
  | notASet (found : TypeTag)
  /-- The comparison takes no documents and sets. -/
  | notScalar (operator : ComparisonOperator) (found : TypeTag)
  /-- The action needs a value. -/
  | valueRequired (action : AttributeAction) (name : String)
  /-- An expectation in the simple and in the extended form at once. -/
  | mixedForms (name : String)
  /-- A value is expected of an attribute that shall not exist. -/
  | valueOfAbsent (name : String)
  /-- An expectation that says nothing. -/
  | emptyExpectation (name : String)
deriving DecidableEq

/-- The operation whose operand does not suit. -/
def OperandFault.operation : OperandFault → String
  | .noCandidate => "IN"
  | .argumentCount function _ | .firstArgumentNotPath function => Named.name function
  | .unknownTag _ => Named.name FunctionName.attributeType
  | .notAddable _ => Named.name Clause.add
  | .notASet _ => Named.name Clause.delete
  | .notScalar operator _ => Named.name operator
  | .valueRequired action _ => Named.name action
  | .mixedForms _ | .valueOfAbsent _ | .emptyExpectation _ => "Expected"

/-- The report of a fault, without the operation. -/
def OperandFault.message : OperandFault → String
  | .noCandidate => "at least one candidate value is required"
  | .argumentCount function found =>
    "expected " ++ toString function.arity ++ " argument(s), got " ++ toString found
  | .firstArgumentNotPath _ => "first argument must be a document path"
  | .unknownTag tag =>
    "'" ++ tag ++ "' is not one of " ++ Text.quotedList (Named.names TypeTag)
  | .notAddable found => "value must be a number or a set, got " ++ found.name
  | .notASet found => "value must be a set, got " ++ found.name
  | .notScalar _ found => found.name ++ " is not a scalar value"
  | .valueRequired _ name => "a value is required for attribute " ++ name
  | .mixedForms name =>
    "Value or Exists cannot be used with ComparisonOperator for attribute (" ++ name ++ ")"
  | .valueOfAbsent name =>
    "Value cannot be used when Exists is set to FALSE for attribute (" ++ name ++ ")"
  | .emptyExpectation name =>
    "Value or ComparisonOperator must be used in Expected for attribute (" ++ name ++ ")"

/-- Why conditions are no key condition. -/
inductive KeyConditionFault where
  | partitionNotEquality
  | sortNotOnAttribute
  | sortOnPartitionKey (name : String)
  | sortOperator (name : String)
deriving DecidableEq

def KeyConditionFault.message : KeyConditionFault → String
  | .partitionNotEquality =>
    "partition key condition must be an equality on a top-level attribute"
  | .sortNotOnAttribute => "sort key condition must reference a top-level attribute"
  | .sortOnPartitionKey name => "sort key condition references the partition key " ++ name
  | .sortOperator name =>
    "operator not supported on sort key " ++ name ++
      "; use =, <, <=, >, >=, BETWEEN or begins_with"

/-- Why an expression cannot be built or compiled. -/
inductive ExpressionError where
  | invalidPath (text : String) (fault : PathFault)
  | invalidOperand (fault : OperandFault)
  /-- Two actions on one path whose clauses exclude each other. -/
  | conflictingActions (path : String) (earlier later : Clause)
  | emptyUpdate
  | invalidKeyCondition (fault : KeyConditionFault)
  /-- A comparison that key conditions do not have. -/
  | unsupportedOperator (operator : ComparisonOperator)
  /-- A comparison with the wrong number of operands. -/
  | invalidArity (operator : ComparisonOperator) (found : Nat)
deriving DecidableEq

def ExpressionError.message : ExpressionError → String
  | .invalidPath text fault => "Invalid document path '" ++ text ++ "': " ++ fault.message
  | .invalidOperand fault =>
    "Invalid operand for " ++ fault.operation ++ ": " ++ fault.message
  | .conflictingActions path earlier later =>
    "Conflicting " ++ Named.name earlier ++ " and " ++ Named.name later ++ " actions on path " ++
      path
  | .emptyUpdate => "Update expression requires at least one action"
  | .invalidKeyCondition fault => "Invalid key condition: " ++ fault.message
  | .unsupportedOperator operator =>
    "Unsupported comparison operator " ++ Named.name operator ++ " for key condition"
  | .invalidArity operator found =>
    "Invalid number of argument(s) for the " ++ Named.name operator ++ " ComparisonOperator: " ++
      toString found

end TableClient
