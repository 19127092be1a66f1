import TableClient.Decimal.Literal
import TableClient.Expression.Error
/-!
# Document paths

A path names a place in an item: an attribute, then keys of maps and indexes of lists. The type of
the names is left open, because an expression names attributes by number.

A path is written with points before keys and brackets around indexes. `Path.parse` reads that form;
a name that is not read from a text may hold any characters.
-/

namespace TableClient

/-- A step into a value. -/
inductive PathElement (ν : Type) where
  /-- To the value under a name. -/
  | key (name : ν)
  /-- To an item of a list. -/
  | index (position : UInt64)
deriving DecidableEq

/-- A place in an item. -/
structure Path (ν : Type) where
  /-- The attribute of the item. -/
  root : ν
  /-- The steps inside its value. -/
  steps : List (PathElement ν) := []
deriving DecidableEq

namespace Path

variable {ν : Type}

/-- All steps, the one to the attribute included. -/
def elements (p : Path ν) : List (PathElement ν) :=
  .key p.root :: p.steps

/-- The place under a name in the value at `p`. -/
def field (p : Path ν) (name : ν) : Path ν :=
  { p with steps := p.steps ++ [.key name] }

/-- The place of an item in the list at `p`. -/
def index (p : Path ν) (position : UInt64) : Path ν :=
  { p with steps := p.steps ++ [.index position] }

/-- The attribute, if the path has no further step. -/
def attribute? (p : Path ν) : Option ν :=
  if p.steps.isEmpty then some p.root else none

/-- Whether the path is just this attribute. -/
def isAttribute [DecidableEq ν] (p : Path ν) (name : ν) : Bool :=
  p.attribute? = some name

/-! ## Written form -/

/-- A step behind the attribute. -/
def stepText (nameText : ν → String) : PathElement ν → String
  | .key name => "." ++ nameText name
  | .index position => "[" ++ toString position.toNat ++ "]"

/-- The written form, given that of names. -/
def textWith (nameText : ν → String) (p : Path ν) : String :=
  nameText p.root ++ String.join (p.steps.map (stepText nameText))

/-- The written form of a path over names. -/
def text (p : Path String) : String :=
  p.textWith id

/-! ## Reading -/

/-- The parts of a text between its points. -/
def segments : List Char → List (List Char)
  | [] => [[]]
  | c :: cs =>
    if c = '.' then [] :: segments cs
    else match segments cs with
      | [] => [[c]]
      | s :: rest => (c :: s) :: rest

/-- What the index between two brackets denotes. -/
def position? (digits : List Char) : Option UInt64 :=
  ((Decimal.IntegerRange.unsigned 64).ofText? (String.ofList digits)).map
    fun n => UInt64.ofNat n.toNat

/-- The indexes behind a name. -/
def indexes : List Char → Except PathFault (List UInt64)
  | [] => .ok []
  | c :: inner =>
    if c ≠ '[' then .error .expectedIndex
    else match _h : inner.dropWhile (· ≠ ']') with
      | [] => .error .unterminatedIndex
      | _ :: rest =>
        match position? (inner.takeWhile (· ≠ ']')) with
        | none => .error .badIndex
        | some position => (indexes rest).map (position :: ·)
termination_by cs => cs.length
decreasing_by
  have := (List.dropWhile_suffix (l := inner) (· ≠ ']')).length_le
  simp only [_h, List.length_cons] at this ⊢
  omega

/-- A name and the indexes behind it. -/
def segment (cs : List Char) : Except PathFault (String × List UInt64) :=
  let name := cs.takeWhile (· ≠ '[')
  if name.isEmpty then .error .emptyName
  else if name.contains ']' then .error .unbalancedBracket
  else (indexes (cs.dropWhile (· ≠ '['))).map (String.ofList name, ·)

/-- The path of segments, in order. -/
def ofSegments : List (String × List UInt64) → Option (Path String)
  | [] => none
  | (root, positions) :: rest =>
    some ⟨root, positions.map .index ++
      rest.flatMap fun (name, positions) => .key name :: positions.map .index⟩

/-- The path that a text is. The first segment with a fault is reported. -/
def parse (text : String) : Except ExpressionError (Path String) :=
  match (segments text.toList).mapM segment with
  | .error fault => .error (.invalidPath text fault)
  | .ok parts => (ofSegments parts).elim (.error (.invalidPath text .emptyName)) .ok

end Path
end TableClient
