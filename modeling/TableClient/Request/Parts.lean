import TableClient.Client.Config
import TableClient.Client.Error
import TableClient.Expression.Compile
import TableClient.Expression.FromMap
/-!
# Parts that requests share

The expressions of one request use one placeholder table, in a fixed order: the condition before the
update, the key condition before the filter, and the projection last. A condition is given as a tree
or as a map, never both.
-/

namespace TableClient

/-- A check of a request, or a step of building one. -/
abbrev Checked (α : Type) := Except ClientError α

namespace Checked

/-- Refuses the request where `refused` holds. -/
def refuseIf (refused : Bool) (fault : ValidationFault) : Checked Unit :=
  if refused then .error (.validation fault) else .ok ()

theorem refuseIf_eq_ok_iff {refused : Bool} {fault : ValidationFault} {u : Unit} :
    refuseIf refused fault = .ok u ↔ refused = false := by
  rw [refuseIf]
  cases refused <;> simp

/-- A step that fails like an expression. -/
def expression {α : Type} (step : Except ExpressionError α) : Checked α :=
  step.mapError .compile

/-- The outcome of the expressions of a request, and the table of their placeholders. -/
def expressions {α : Type} (interning : Interning α) : Checked (α × PlaceholderTable) :=
  match interning.run.run {} with
  | (.ok a, table) => .ok (a, table)
  | (.error e, _) => .error (.compile e)

end Checked

namespace Request

/-- The expression of a condition that may be absent. -/
def optionalCondition : Option (Condition String AttributeValue) → Interning (Option String)
  | none => pure none
  | some c => some <$> c.compile

/-- The expression of the attributes to return, none if all are. -/
def projection (attributesToGet : List String) : Interning (Option String) :=
  if attributesToGet.isEmpty then pure none
  else do
    let paths ← Interning.require (attributesToGet.mapM Path.parse)
    some <$> Path.compileProjection paths

/-- The condition of a write, given as a tree or as expectations. -/
def resolveCondition (condition : Option (Condition String AttributeValue))
    (expected : Dict ExpectedEntry) (op : Option ConditionalOperator) :
    Checked (Option (Condition String AttributeValue)) := do
  Checked.refuseIf (op.isSome && expected.isEmpty) .operatorWithoutExpected
  Checked.refuseIf (condition.isSome && !expected.isEmpty) .conditionAndExpected
  match condition with
  | some c => return some c
  | none => Checked.expression (Condition.ofExpected expected op)

/-- The filter of a read, given as a tree or as a map. -/
def resolveFilter (filter : Option (Condition String AttributeValue)) (map : Dict ConditionEntry)
    (op : Option ConditionalOperator) : Checked (Option (Condition String AttributeValue)) :=
  match filter with
  | some c => .ok (some c)
  | none => Checked.expression (Condition.ofFilter map op)

/-- Refuses a choice of results that does not go with the attributes to return or with the lack of
an index. -/
def checkSelect (select : Option Select) (hasProjection hasIndex : Bool) : Checked Unit :=
  match select with
  | some .allProjectedAttributes =>
    if !hasIndex then .error (.validation .projectedWithoutIndex)
    else Checked.refuseIf hasProjection (.attributesWith .allProjectedAttributes)
  | some .specificAttributes => Checked.refuseIf (!hasProjection) .specificWithoutAttributes
  | some select => Checked.refuseIf hasProjection (.attributesWith select)
  | none => .ok ()

/-- A limit as it is sent. -/
def wireLimit : Option UInt32 → Checked (Option Int32)
  | none => .ok none
  | some limit =>
    if 2 * limit.toNat < UInt32.size then .ok (some (Int32.ofNat limit.toNat))
    else .error (.validation (.limitTooLarge limit))

/-- How much of the capacity account is asked for. -/
def capacityLevel (config : ClientConfig) (asked : Option ReturnConsumedCapacity) :
    Option ReturnConsumedCapacity :=
  some (asked.getD config.returnConsumedCapacity)

end Request
end TableClient
