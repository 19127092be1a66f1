import TableClient.Expression.Update
import TableClient.Schema.ConditionMap
/-!
# Conditions and updates from maps

The older maps from attributes to conditions, expectations and updates are read as the same trees
that users write. Entries are taken in the order of the names of their attributes, joined from the
left. No function here sorts: the maps are dictionaries, and `Dict.ofList` has put the entries of a
map into this order, whatever the order in which they came.
-/

namespace TableClient

/-! ## One comparison -/

namespace ComparisonOperator

/-- Whether the comparison takes this number of operands. -/
def takes : ComparisonOperator → Nat → Bool
  | .null, n | .notNull, n => n = 0
  | .isIn, n => 0 < n
  | .between, n => n = 2
  | _, n => n = 1

/-- Whether the comparison takes only scalar operands. -/
def wantsScalars : ComparisonOperator → Bool
  | .contains | .notContains | .isIn => true
  | _ => false

/-- Whether key conditions have the comparison. -/
def ofKeys : ComparisonOperator → Bool
  | .eq | .le | .lt | .ge | .gt | .beginsWith | .between => true
  | _ => false

/-- Refuses operands of the wrong number, then the first that is not scalar where it has to be. -/
def check (op : ComparisonOperator) (values : List AttributeValue) : Except ExpressionError Unit :=
  if !op.takes values.length then .error (.invalidArity op values.length)
  else match values.find? fun value => op.wantsScalars && value.scalarType?.isNone with
    | some value => .error (.invalidOperand (.notScalar op value.tag))
    | none => .ok ()

/-- The condition that compares an attribute with operands of the right number. -/
def condition? (op : ComparisonOperator) (p : Path String) (values : List AttributeValue) :
    Option (Condition String AttributeValue) :=
  match op, values with
  | .eq, [x] => some (p.compare .eq x)
  | .ne, [x] => some (p.compare .ne x)
  | .le, [x] => some (p.compare .le x)
  | .lt, [x] => some (p.compare .lt x)
  | .ge, [x] => some (p.compare .ge x)
  | .gt, [x] => some (p.compare .gt x)
  | .notNull, [] => some p.present
  | .null, [] => some p.missing
  | .contains, [x] => some (p.contains (.literal x))
  | .notContains, [x] => some (.not (p.contains (.literal x)))
  | .beginsWith, [x] => some (p.beginsWith (.literal x))
  | .isIn, x :: xs => some (.among (.reference p) ((x :: xs).map .literal))
  | .between, [x, y] => some (.between (.reference p) (.literal x) (.literal y))
  | _, _ => none

/-- The condition that compares an attribute with operands. -/
def condition (op : ComparisonOperator) (name : String) (values : List AttributeValue) :
    Except ExpressionError (Condition String AttributeValue) := do
  op.check values
  (op.condition? ⟨name, []⟩ values).elim (.error (.invalidArity op values.length)) .ok

end ComparisonOperator

/-! ## One entry -/

def ConditionEntry.condition (name : String) (entry : ConditionEntry) :
    Except ExpressionError (Condition String AttributeValue) :=
  entry.comparisonOperator.condition name entry.attributeValueList

/-- The condition of an entry on a sort key. -/
def ConditionEntry.keyCondition (name : String) (entry : ConditionEntry) :
    Except ExpressionError (Condition String AttributeValue) :=
  if entry.comparisonOperator.ofKeys then entry.condition name
  else .error (.unsupportedOperator entry.comparisonOperator)

def ExpectedEntry.condition (name : String) (entry : ExpectedEntry) :
    Except ExpressionError (Condition String AttributeValue) :=
  let path : Path String := ⟨name, []⟩
  match entry.comparisonOperator with
  | some op =>
    if entry.value.isSome || entry.present.isSome then .error (.invalidOperand (.mixedForms name))
    else op.condition name entry.attributeValueList
  | none =>
    match entry.present, entry.value with
    | some false, none => .ok path.missing
    | some false, some _ => .error (.invalidOperand (.valueOfAbsent name))
    | some true, none => .ok path.present
    | _, some value => .ok (path.equals value)
    | none, none => .error (.invalidOperand (.emptyExpectation name))

/-- The action of an update entry. A deletion without value removes the attribute. -/
def UpdateEntry.updateAction (name : String) (entry : UpdateEntry) :
    Except ExpressionError (UpdateAction String AttributeValue) :=
  let path : Path String := ⟨name, []⟩
  match entry.action.getD .put, entry.value with
  | .put, some value => .ok (.set path (.operand (.literal value)))
  | .add, some value => .ok (.add path value)
  | .delete, some value => .ok (.delete path value)
  | .delete, none => .ok (.remove path)
  | action, none => .error (.invalidOperand (.valueRequired action name))

/-! ## Whole maps -/

/-- Conditions joined from the left, by "or" if the operator says so and else by "and". -/
def Condition.join (op : Option ConditionalOperator) :
    List (Condition String AttributeValue) → Option (Condition String AttributeValue)
  | [] => none
  | c :: cs => some (cs.foldl (if op = some .or then Condition.or else Condition.and) c)

/-- The condition of a filter, none if it is empty. The entries are visited as they stand in the
dictionary, in ascending order of their names, and the first one that is refused is reported. -/
def Condition.ofFilter (filter : Dict ConditionEntry) (op : Option ConditionalOperator) :
    Except ExpressionError (Option (Condition String AttributeValue)) :=
  (List.mapM (fun (name, entry) => ConditionEntry.condition name entry) filter).map (join op)

/-- The condition of expectations, none if there are none. As in a filter, the order of the visits
is that of the dictionary. -/
def Condition.ofExpected (expected : Dict ExpectedEntry) (op : Option ConditionalOperator) :
    Except ExpressionError (Option (Condition String AttributeValue)) :=
  (List.mapM (fun (name, entry) => ExpectedEntry.condition name entry) expected).map (join op)

/-- The actions of an update map, in the order of the dictionary: by ascending names, not as they
were written. -/
def UpdateAction.ofMap (updates : Dict UpdateEntry) :
    Except ExpressionError (List (UpdateAction String AttributeValue)) :=
  List.mapM (fun (name, entry) => UpdateEntry.updateAction name entry) updates

end TableClient
