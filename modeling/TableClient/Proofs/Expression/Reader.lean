import TableClient.Proofs.Expression.Token

/-!
# Reading expressions

A reader of the written language, apart from the writer: it takes tokens from the left and builds
trees over the words of the text, so a name is the word `#0` and a literal the word `:0`. Conditions
and values nest, so their readers are told how deep they may go; the number of tokens is enough.
Sums and differences are read to the left: what stands before a term is joined with it before the
next sign is looked at.
-/

namespace TableClient

open Token

/-- A computation that takes tokens from the left and may fail. -/
abbrev TokenReader (α : Type) := StateT (List Token) Option α

namespace TokenReader

variable {α : Type}

/-- The next token, which must be a word. -/
def word : TokenReader String := fun
  | .word text :: rest => some (text, rest)
  | _ => none

/-- Takes this token, which must come next. -/
def expect (t : Token) : TokenReader Unit := fun
  | head :: rest => if head = t then some ((), rest) else none
  | [] => none

/-- Takes this token if it comes next, and says whether it did. -/
def accept (t : Token) : TokenReader Bool := fun
  | head :: rest => if head = t then some (true, rest) else some (false, head :: rest)
  | [] => some (false, [])

/-- Fails where there is no value. -/
def ofOption (value : Option α) : TokenReader α :=
  fun ts ↦ value.map (·, ts)

/-- Items with commas between them, at least one and at most this many. -/
def separatedUpTo (item : TokenReader α) : ℕ → TokenReader (List α)
  | 0 => failure
  | bound + 1 => do
    let first ← item
    if ← accept .comma then
      let others ← separatedUpTo item bound
      return first :: others
    else return [first]

/-- Items with commas between them, at least one. -/
def separated (item : TokenReader α) : TokenReader (List α) := do
  separatedUpTo item ((← get).length + 1)

/-- Items in brackets with commas between them. -/
def bracketed (item : TokenReader α) : TokenReader (List α) := do
  expect .opening
  if ← accept .closing then return []
  else
    let items ← separated item
    expect .closing
    return items

/-- What a text says if all its tokens are taken. -/
def readText (reader : TokenReader α) (text : String) : Option α :=
  match reader.run (Token.ofText text) with
  | some (a, []) => some a
  | _ => none

end TokenReader

open TokenReader

/-! ## Paths and operands -/

/-- The path that a word is. -/
def Path.ofWord? (word : String) : Option (Path String) :=
  (parse word).toOption

/-- A path over words. -/
def Path.reader : TokenReader (Path String) := do
  ofOption (Path.ofWord? (← word))

/-- The operand that begins with a word. -/
def Operand.readerFrom (first : String) : TokenReader (Operand String String) :=
  if first = "size" then do
    expect .opening
    let path ← Path.reader
    expect .closing
    return .size path
  else if first.toList.head? = some ':' then return .literal first
  else Operand.reference <$> ofOption (Path.ofWord? first)

/-- An operand over words. -/
def Operand.reader : TokenReader (Operand String String) := do
  readerFrom (← word)

/-! ## Conditions -/

namespace Condition

/-- A condition without parts that are conditions. -/
def leafReader : TokenReader (Condition String String) := do
  let first ← word
  match (Named.ofName? first : Option FunctionName) with
  | some name => return .function name (← bracketed Operand.reader)
  | none =>
    let left ← Operand.readerFrom first
    let verb ← word
    if verb = "BETWEEN" then
      let low ← Operand.reader
      expect (.word "AND")
      let high ← Operand.reader
      return .between left low high
    else if verb = "IN" then return .among left (← bracketed Operand.reader)
    else
      let op ← ofOption (Named.ofName? verb)
      let right ← Operand.reader
      return .compare left op right

/-- A condition over words of at most this depth. -/
def readerUpTo : ℕ → TokenReader (Condition String String)
  | 0 => failure
  | depth + 1 => do
    if ← accept .opening then
      if ← accept (.word "NOT") then
        let inner ← readerUpTo depth
        expect .closing
        return .not inner
      else
        let left ← readerUpTo depth
        let op ← ofOption (Named.ofName? (← word))
        let right ← readerUpTo depth
        expect .closing
        return .logical op left right
    else leafReader

/-- A condition over words. -/
def reader : TokenReader (Condition String String) := do
  readerUpTo ((← get).length + 1)

end Condition

/-! ## Updates -/

/-- A value over words with at most this many terms, joined with what stands before it. -/
def SetValue.readerUpTo :
    ℕ → (SetValue String String → SetValue String String) → TokenReader (SetValue String String)
  | 0, _ => failure
  | bound + 1, join => do
    let first ← word
    let term ←
      if first = "if_not_exists" then do
        expect .opening
        let path ← Path.reader
        expect .comma
        let value ← readerUpTo bound id
        expect .closing
        pure (SetValue.ifNotExists path value)
      else if first = "list_append" then do
        expect .opening
        let left ← readerUpTo bound id
        expect .comma
        let right ← readerUpTo bound id
        expect .closing
        pure (SetValue.listAppend left right)
      else SetValue.operand <$> Operand.readerFrom first
    if ← accept (.word "+") then readerUpTo bound (.plus (join term))
    else if ← accept (.word "-") then readerUpTo bound (.minus (join term))
    else return join term

/-- A value over words. -/
def SetValue.reader : TokenReader (SetValue String String) := do
  readerUpTo ((← get).length + 1) id

namespace UpdateAction

/-- An action over words, as it is written in its clause. -/
def readerIn : Clause → TokenReader (UpdateAction String String)
  | .set => do
    let path ← Path.reader
    expect (.word "=")
    return .set path (← SetValue.reader)
  | .remove => .remove <$> Path.reader
  | .add => return .add (← Path.reader) (← word)
  | .delete => return .delete (← Path.reader) (← word)

/-- The actions of a clause, if it comes next. -/
def clauseReader (clause : Clause) : TokenReader (List (UpdateAction String String)) := do
  if ← accept (.word (Named.name clause)) then separated (readerIn clause) else return []

/-- The actions of an update, clause by clause. -/
def reader : TokenReader (List (UpdateAction String String)) :=
  List.flatten <$> (Named.all : List Clause).mapM clauseReader

end UpdateAction

/-! ## Projections -/

/-- Paths with commas between them. -/
def Path.listReader : TokenReader (List (Path String)) := do
  if (← get).isEmpty then return [] else separated Path.reader

end TableClient
