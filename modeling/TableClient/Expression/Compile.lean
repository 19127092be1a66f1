import TableClient.Expression.Numbered
import TableClient.Expression.Text
/-!
# Compilation

Each kind of expression is numbered and then written. Updates and key conditions are checked before
anything is interned, so their failures leave the placeholder table as it was.
-/

namespace TableClient

def Condition.compile (c : Condition String AttributeValue) : Interning String :=
  Condition.expression <$> c.numbered

/-- The expression of an update. Placeholders are numbered clause by clause. -/
def UpdateAction.compile (actions : List (UpdateAction String AttributeValue)) :
    Interning String := do
  Interning.require (check actions)
  updateText <$> (byClause actions).mapM UpdateAction.numbered

/-- Refuses a pair of conditions that is no key condition. The partition condition is an equality of
an attribute with a literal, the sort condition a range of another attribute. -/
def Condition.checkKey (partition : Condition String AttributeValue)
    (sort : Option (Condition String AttributeValue)) : Except KeyConditionFault Unit :=
  match partition.partition?, sort with
  | none, _ => .error .partitionNotEquality
  | some _, none => .ok ()
  | some hash, some sort =>
    match sort.subject? with
    | none => .error .sortNotOnAttribute
    | some range =>
      if range = hash then .error (.sortOnPartitionKey hash)
      else if sort.isSortCondition range then .ok ()
      else .error (.sortOperator range)

/-- The expression of a key condition: that of the partition, joined with the one of the sort
condition if there is one. -/
def Condition.compileKey (partition : Condition String AttributeValue)
    (sort : Option (Condition String AttributeValue)) : Interning String := do
  Interning.require ((partition.checkKey sort).mapError .invalidKeyCondition)
  match sort with
  | none => partition.compile
  | some sort =>
    let partition ← partition.compile
    let sort ← sort.compile
    return "(" ++ partition ++ " AND " ++ sort ++ ")"

/-- The expression of the attributes to return. -/
def Path.compileProjection (paths : List (Path String)) : Interning String := do
  let paths ← paths.mapM Path.numbered
  return commaSeparated (paths.map Path.expression)

end TableClient
