/-!
# Ascending lists

A set as the list of its members in ascending order, each once.
-/

namespace TableClient

/-- An ascending list with one more member. -/
def insertAscending {α : Type} (less : α → α → Bool) (x : α) : List α → List α
  | [] => [x]
  | y :: rest =>
    if less x y then x :: y :: rest
    else if less y x then y :: insertAscending less x rest
    else y :: rest

/-- The members of a list in ascending order, each once. -/
def ascending {α : Type} (less : α → α → Bool) (members : List α) : List α :=
  members.foldl (fun set x => insertAscending less x set) []

end TableClient
