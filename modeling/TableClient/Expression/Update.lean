import TableClient.Expression.Condition
/-!
# Updates

The changes that an update makes to an item. Each action belongs to one of four clauses; an update
is written clause by clause.
-/

namespace TableClient

/-- The new value of a place. -/
inductive SetValue (ν α : Type) where
  | operand (source : Operand ν α)
  | plus (left right : SetValue ν α)
  | minus (left right : SetValue ν α)
  /-- The value at the place, or the other one if there is none. -/
  | ifNotExists (path : Path ν) (value : SetValue ν α)
  | listAppend (left right : SetValue ν α)
deriving DecidableEq

/-- One change of an item. -/
inductive UpdateAction (ν α : Type) where
  | set (path : Path ν) (value : SetValue ν α)
  | remove (path : Path ν)
  /-- Adds to a number, or members to a set. -/
  | add (path : Path ν) (value : α)
  /-- Removes members from a set. -/
  | delete (path : Path ν) (value : α)
deriving DecidableEq

namespace UpdateAction

variable {ν α : Type}

/-- The place that changes. -/
def path : UpdateAction ν α → Path ν
  | .set path _ | .remove path | .add path _ | .delete path _ => path

/-- The clause that the action belongs to. -/
def clause : UpdateAction ν α → Clause
  | .set _ _ => .set
  | .remove _ => .remove
  | .add _ _ => .add
  | .delete _ _ => .delete

/-- Whether two actions exclude each other: one adds to the place that the other deletes from. -/
def clashes [DecidableEq ν] (earlier later : UpdateAction ν α) : Bool :=
  match earlier, later with
  | .add p _, .delete q _ | .delete p _, .add q _ => p = q
  | _, _ => false

/-- The actions of one clause, in their order. -/
def inClause (clause : Clause) (actions : List (UpdateAction ν α)) : List (UpdateAction ν α) :=
  actions.filter fun action => action.clause = clause

/-- The actions clause by clause, in their order within each. -/
def byClause (actions : List (UpdateAction ν α)) : List (UpdateAction ν α) :=
  (Named.all : List Clause).flatMap fun clause => inClause clause actions

/-! ## Acceptance -/

/-- Refuses an addition of something other than a number or a set, and a deletion of something other
than members of a set. -/
def checkValue : UpdateAction ν AttributeValue → Except ExpressionError Unit
  | .add _ value =>
    if value.isSet || value.isNumber then .ok ()
    else .error (.invalidOperand (.notAddable value.tag))
  | .delete _ value =>
    if value.isSet then .ok () else .error (.invalidOperand (.notASet value.tag))
  | _ => .ok ()

/-- Checks actions in order, each for its value and then against all `earlier` ones. -/
def checkFrom (earlier : List (UpdateAction String AttributeValue)) :
    List (UpdateAction String AttributeValue) → Except ExpressionError Unit
  | [] => .ok ()
  | action :: rest => do
    action.checkValue
    match earlier.find? (·.clashes action) with
    | some other => .error (.conflictingActions action.path.text other.clause action.clause)
    | none => checkFrom (earlier ++ [action]) rest

/-- Refuses an update without actions, with an unsuitable value or with excluding actions. -/
def check (actions : List (UpdateAction String AttributeValue)) : Except ExpressionError Unit :=
  if actions.isEmpty then .error .emptyUpdate else checkFrom [] actions

end UpdateAction
end TableClient
