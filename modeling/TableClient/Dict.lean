/-!
# Dictionaries by name

A dictionary is a list of entries in strictly ascending order of their names. The order is the one
of `String`, by code points, so two dictionaries with the same content are the same list, and every
traversal meets the names in the one order that the written forms need.

`ofList` keeps the last of several entries with one name.
-/

namespace TableClient

/-- A dictionary: its entries, in strictly ascending order of their names. -/
abbrev Dict (α : Type) := List (String × α)

namespace Dict

variable {α β : Type}

/-- The entries stand in strictly ascending order of their names. -/
def Sorted (d : Dict α) : Prop :=
  d.Pairwise fun a b => a.1 < b.1

/-- The value under a name, if there is one. -/
def get? : Dict α → String → Option α
  | [], _ => none
  | (k, v) :: rest, name => if k = name then some v else get? rest name

/-- Whether there is an entry with this name. -/
def has (d : Dict α) (name : String) : Bool :=
  (d.get? name).isSome

/-- The dictionary with `value` under `name`, in place of what was there. -/
def insert : Dict α → String → α → Dict α
  | [], name, value => [(name, value)]
  | (k, v) :: rest, name, value =>
    if name < k then (name, value) :: (k, v) :: rest
    else if name = k then (name, value) :: rest
    else (k, v) :: insert rest name value

/-- The dictionary without the entry under `name`. -/
def erase (d : Dict α) (name : String) : Dict α :=
  d.filter fun entry => entry.1 ≠ name

/-- The dictionary of a list of entries in any order; the last entry with a name counts. -/
def ofList (entries : List (String × α)) : Dict α :=
  entries.foldl (fun d entry => d.insert entry.1 entry.2) []

/-- The names, ascending. -/
def names (d : Dict α) : List String :=
  List.map Prod.fst d

/-- Both dictionaries together; under a shared name the entry of `overlay` counts. -/
def merge (base overlay : Dict α) : Dict α :=
  overlay.foldl (fun d entry => d.insert entry.1 entry.2) base

/-- The dictionary in which the lists under each name are concatenated. -/
def appendLists (d e : Dict (List α)) : Dict (List α) :=
  e.foldl (fun d (name, xs) => d.insert name ((d.get? name).getD [] ++ xs)) d

/-- Each value replaced by its image, the names kept. -/
def mapValues (f : α → β) (d : Dict α) : Dict β :=
  List.map (fun entry => (entry.1, f entry.2)) d

/-- The first failure of `f` in ascending order of the names, or all images. -/
def mapValuesM {m : Type → Type} [Monad m] (f : α → m β) : Dict α → m (Dict β)
  | [] => pure []
  | (k, v) :: rest => do
    let image ← f v
    let others ← mapValuesM f rest
    pure ((k, image) :: others)

@[simp] theorem get?_nil (name : String) : get? ([] : Dict α) name = none := rfl

theorem get?_insert_self (d : Dict α) (name : String) (value : α) :
    (d.insert name value).get? name = some value := by
  induction d with
  | nil => simp [insert, get?]
  | cons entry rest ih =>
    obtain ⟨k, v⟩ := entry
    simp only [insert]
    split
    · simp [get?]
    · split
      · simp [get?]
      · rename_i h
        simp [get?, ih, Ne.symm h]

theorem get?_insert_of_ne (d : Dict α) {name other : String} (value : α) (h : other ≠ name) :
    (d.insert name value).get? other = d.get? other := by
  induction d with
  | nil => simp [insert, get?, Ne.symm h]
  | cons entry rest ih =>
    obtain ⟨k, v⟩ := entry
    simp only [insert]
    split
    · simp [get?, Ne.symm h]
    · split
      · rename_i e
        subst e
        simp [get?, Ne.symm h]
      · simp only [get?, ih]

/-- Insertion changes the entry under its own name and no other. -/
theorem get?_insert (d : Dict α) (name other : String) (value : α) :
    (d.insert name value).get? other = if other = name then some value else d.get? other := by
  split
  · rename_i h
    subst h
    exact get?_insert_self d other value
  · rename_i h
    exact get?_insert_of_ne d value h

end Dict
end TableClient
