import TableClient.Text.Case
import TableClient.Text.Quoted
/-!
# Types whose values have names

A `Named` type lists its values, each with a name of its own, so a name determines at most one
value. A `WireEnum` has a name itself, for the report that a text names none of its values. Wire
documents spell the names exactly; `WireEnum.parse` takes them in any ASCII case.
-/

namespace TableClient

/-- A type whose values are all listed, each under a name of its own. -/
class Named (α : Type) where
  /-- Every value, in the order in which they are listed for readers. -/
  all : List α
  name : α → String
  mem_all : ∀ a, a ∈ all
  name_injective : ∀ a b, name a = name b → a = b

namespace Named

variable {α : Type} [Named α]

/-- The names of all values. -/
def names (α : Type) [Named α] : List String :=
  (all : List α).map name

/-- The value with exactly this name. -/
def ofName? (text : String) : Option α :=
  all.find? fun a => decide (name a = text)

theorem ofName?_name (a : α) : ofName? (name a) = some a := by
  unfold ofName?
  cases h : List.find? (fun b => decide (name b = name a)) (all : List α) with
  | none => simpa using List.find?_eq_none.1 h a (mem_all a)
  | some b =>
    have := List.find?_some h
    rw [name_injective b a (by simpa using this)]

theorem name_of_ofName? {text : String} {a : α} (h : ofName? text = some a) : name a = text := by
  simpa using List.find?_some h

end Named

/-- A text that names no value of a type. -/
structure UnknownVariant where
  /-- The name of the type. -/
  kind : String
  /-- The names that were possible. -/
  expected : List String
  value : String

def UnknownVariant.message (e : UnknownVariant) : String :=
  e.kind ++ " must be one of " ++ Text.quotedList e.expected ++ ", got '" ++ e.value ++ "'"

/-- A named type that has a name itself. -/
class WireEnum (α : Type) extends Named α where
  kind : String

/-- The value whose name the text is, in any ASCII case. -/
def WireEnum.parse {α : Type} [WireEnum α] (text : String) : Except UnknownVariant α :=
  match (Named.all : List α).find? fun a => Text.sameLetters text (Named.name a) with
  | some a => .ok a
  | none => .error ⟨WireEnum.kind α, Named.names α, text⟩

end TableClient
