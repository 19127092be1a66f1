import TableClient.Expression.Placeholder
import TableClient.Expression.Update
/-!
# Numbering names and literals

`numbered` walks a tree from left to right and replaces every name and every literal by its number
in the placeholder table. A node that has no written form fails before anything inside it is
interned.
-/

namespace TableClient

def PathElement.numbered : PathElement String → Interning (PathElement Nat)
  | .key name => .key <$> Interning.name name
  | .index position => pure (.index position)

def Path.numbered (p : Path String) : Interning (Path Nat) := do
  let root ← Interning.name p.root
  let steps ← p.steps.mapM PathElement.numbered
  return ⟨root, steps⟩

def Operand.numbered : Operand String AttributeValue → Interning (Operand Nat Nat)
  | .literal value => .literal <$> Interning.value value
  | .reference path => .reference <$> path.numbered
  | .size path => .size <$> path.numbered

namespace Condition

/-- Refuses a membership without candidates, and a function with the wrong number of arguments or
whose first argument is no place. -/
def checkNode {ν α : Type} : Condition ν α → Except ExpressionError Unit
  | .among _ [] => .error (.invalidOperand .noCandidate)
  | .function name arguments =>
    if arguments.length ≠ name.arity then
      .error (.invalidOperand (.argumentCount name arguments.length))
    else if arguments.head?.any Operand.isReference then .ok ()
    else .error (.invalidOperand (.firstArgumentNotPath name))
  | _ => .ok ()

def numbered : Condition String AttributeValue → Interning (Condition Nat Nat)
  | .compare left op right => do
    let left ← left.numbered
    let right ← right.numbered
    return .compare left op right
  | .between value low high => do
    let value ← value.numbered
    let low ← low.numbered
    let high ← high.numbered
    return .between value low high
  | .among value candidates => do
    Interning.require (checkNode (.among value candidates))
    let value ← value.numbered
    let candidates ← candidates.mapM Operand.numbered
    return .among value candidates
  | .function name arguments => do
    Interning.require (checkNode (.function name arguments))
    let arguments ← arguments.mapM Operand.numbered
    return .function name arguments
  | .logical op left right => do
    let left ← left.numbered
    let right ← right.numbered
    return .logical op left right
  | .not inner => .not <$> inner.numbered

end Condition

def SetValue.numbered : SetValue String AttributeValue → Interning (SetValue Nat Nat)
  | .operand source => .operand <$> source.numbered
  | .plus left right => do
    let left ← left.numbered
    let right ← right.numbered
    return .plus left right
  | .minus left right => do
    let left ← left.numbered
    let right ← right.numbered
    return .minus left right
  | .ifNotExists path value => do
    let path ← path.numbered
    let value ← value.numbered
    return .ifNotExists path value
  | .listAppend left right => do
    let left ← left.numbered
    let right ← right.numbered
    return .listAppend left right

def UpdateAction.numbered :
    UpdateAction String AttributeValue → Interning (UpdateAction Nat Nat)
  | .set path value => do
    let path ← path.numbered
    let value ← value.numbered
    return .set path value
  | .remove path => .remove <$> path.numbered
  | .add path value => do
    let path ← path.numbered
    let value ← Interning.value value
    return .add path value
  | .delete path value => do
    let path ← path.numbered
    let value ← Interning.value value
    return .delete path value

end TableClient
