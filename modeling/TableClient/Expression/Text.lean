import TableClient.Expression.Placeholder
import TableClient.Expression.Update
/-!
# Expression text

The written form of numbered trees. Joins and negations of conditions are always in parentheses, so
a condition does not depend on the precedence of operators; sums and differences stand as they are.
-/

namespace TableClient

def commaSeparated (items : List String) : String :=
  ", ".intercalate items

def functionCall (name : String) (arguments : List String) : String :=
  name ++ " (" ++ commaSeparated arguments ++ ")"

/-- The written form of a numbered path. -/
def Path.expression (p : Path Nat) : String :=
  p.textWith Placeholder.name

/-- The written form of a numbered operand. -/
def Operand.expression : Operand Nat Nat → String
  | .literal n => Placeholder.value n
  | .reference path => path.expression
  | .size path => functionCall "size" [path.expression]

/-- The written form of a numbered condition. -/
def Condition.expression : Condition Nat Nat → String
  | .compare left op right => left.expression ++ " " ++ Named.name op ++ " " ++ right.expression
  | .between value low high =>
    value.expression ++ " BETWEEN " ++ low.expression ++ " AND " ++ high.expression
  | .among value candidates =>
    value.expression ++ " IN (" ++ commaSeparated (candidates.map Operand.expression) ++ ")"
  | .function name arguments =>
    functionCall (Named.name name) (arguments.map Operand.expression)
  | .logical op left right =>
    "(" ++ left.expression ++ " " ++ Named.name op ++ " " ++ right.expression ++ ")"
  | .not inner => "(NOT " ++ inner.expression ++ ")"

/-- The written form of a numbered value. Sums and differences stand without parentheses. -/
def SetValue.expression : SetValue Nat Nat → String
  | .operand source => source.expression
  | .plus left right => left.expression ++ " + " ++ right.expression
  | .minus left right => left.expression ++ " - " ++ right.expression
  | .ifNotExists path value =>
    functionCall "if_not_exists" [path.expression, value.expression]
  | .listAppend left right => functionCall "list_append" [left.expression, right.expression]

namespace UpdateAction

/-- The written form of a numbered action inside its clause. -/
def expression : UpdateAction Nat Nat → String
  | .set path value => path.expression ++ " = " ++ value.expression
  | .remove path => path.expression
  | .add path value | .delete path value => path.expression ++ " " ++ Placeholder.value value

/-- A clause with the actions that belong to it, if there are any. -/
def clauseText? (actions : List (UpdateAction Nat Nat)) (clause : Clause) : Option String :=
  match inClause clause actions with
  | [] => none
  | own => some (Named.name clause ++ " " ++ commaSeparated (own.map expression))

/-- The written form of numbered actions: the clauses that are not empty, in their order. -/
def updateText (actions : List (UpdateAction Nat Nat)) : String :=
  " ".intercalate ((Named.all : List Clause).filterMap (clauseText? actions))

end UpdateAction
end TableClient
