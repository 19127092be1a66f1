import TableClient.Expression.Error
/-!
# Placeholders

An expression names attributes and literals by placeholders, and the request says in two
dictionaries what they stand for. A `PlaceholderTable` gives them out: a name keeps the number of
its first use, and every literal has a number of its own, so a text and a number that look alike are
never confused.

One table serves all expressions of a request. `Interning` is a computation that uses it; a failure
leaves in the table what was interned before it.
-/

namespace TableClient

/-- The names and literals of a request, each list in the order of their numbers. -/
structure PlaceholderTable where
  names : List String := []
  values : List AttributeValue := []
deriving DecidableEq

/-- A computation that interns names and literals and may fail. -/
abbrev Interning (α : Type) := ExceptT ExpressionError (StateM PlaceholderTable) α

namespace PlaceholderTable

def isEmpty (t : PlaceholderTable) : Bool :=
  t.names.isEmpty && t.values.isEmpty

/-- The number of a name, and the table that has it. -/
def internName (t : PlaceholderTable) (name : String) : Nat × PlaceholderTable :=
  match t.names.idxOf? name with
  | some n => (n, t)
  | none => (t.names.length, { t with names := t.names ++ [name] })

/-- A fresh number for a literal, and the table that has it. -/
def internValue (t : PlaceholderTable) (value : AttributeValue) : Nat × PlaceholderTable :=
  (t.values.length, { t with values := t.values ++ [value] })

end PlaceholderTable

namespace Placeholder

/-- The placeholder of a name. -/
def name (n : Nat) : String :=
  "#" ++ toString n

/-- The placeholder of a literal. -/
def value (n : Nat) : String :=
  ":" ++ toString n

end Placeholder

namespace PlaceholderTable

/-- What the placeholders of names stand for. -/
def attributeNames (t : PlaceholderTable) : Dict String :=
  Dict.ofList (t.names.mapIdx fun n name => (Placeholder.name n, name))

/-- What the placeholders of literals stand for. -/
def attributeValues (t : PlaceholderTable) : Dict AttributeValue :=
  Dict.ofList (t.values.mapIdx fun n value => (Placeholder.value n, value))

/-- Both dictionaries of a table that nothing is interned into any more. -/
def intoMaps (t : PlaceholderTable) : Dict String × Dict AttributeValue :=
  (Dict.ofList (t.names.zipIdx.map fun (name, n) => (Placeholder.name n, name)),
    Dict.ofList (t.values.zipIdx.map fun (value, n) => (Placeholder.value n, value)))

/-- The numbers of the names, by name. -/
def nameNumbers (t : PlaceholderTable) : Dict Nat :=
  Dict.ofList (t.names.mapIdx fun n name => (name, n))

end PlaceholderTable

/-- A table that finds the number of a name in a dictionary, and not by a search. -/
structure IndexedTable where
  names : List String := []
  numbers : Dict Nat := {}
  values : List AttributeValue := []
deriving DecidableEq

namespace IndexedTable

/-- The number that the dictionary has for a name, or the next one, which it then has. -/
def internName (t : IndexedTable) (name : String) : Nat × IndexedTable :=
  match t.numbers.get? name with
  | some n => (n, t)
  | none =>
    let n := t.names.length
    (n, { t with names := t.names ++ [name], numbers := t.numbers.insert name n })

/-- A fresh number for a literal, and the table that has it. -/
def internValue (t : IndexedTable) (value : AttributeValue) : Nat × IndexedTable :=
  (t.values.length, { t with values := t.values ++ [value] })

end IndexedTable

/-- The table with a dictionary of the numbers of its names. -/
def PlaceholderTable.indexed (t : PlaceholderTable) : IndexedTable where
  names := t.names
  numbers := t.nameNumbers
  values := t.values

namespace Interning

/-- The number of a name. -/
def name (name : String) : Interning Nat :=
  modifyGet fun t => t.internName name

/-- A fresh number for a literal. -/
def value (value : AttributeValue) : Interning Nat :=
  modifyGet fun t => t.internValue value

/-- A check that leaves the table alone. -/
def require {α : Type} (check : Except ExpressionError α) : Interning α :=
  ExceptT.mk (pure check)

end Interning
end TableClient
