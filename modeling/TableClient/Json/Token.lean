import TableClient.Json.Value
import TableClient.Decimal.Literal
/-!
# Tokens of JSON text

`tokens` cuts a text into its lexical parts. Where the text stops being JSON the list ends in
`malformed`, so a reader that meets a fault of its own before that point never sees it.

A number without point and exponent that fits 64 bits is an integer. Any other number is the leading
digits that fit 64 bits, taken as a floating-point value and scaled once by a power of ten; one that
would be infinite is malformed, and `-0` is the negative zero.
-/

namespace TableClient

/-! ## Numbers -/

namespace JsonNumber

/-- The digits that still fit an unsigned number of 64 bits, as that number, and the digits after
them. -/
def leading : Nat → List Char → Nat × List Char
  | n, [] => (n, [])
  | n, d :: ds =>
    let next := 10 * n + (d.toNat - '0'.toNat)
    if next < UInt64.size then leading next ds else (n, d :: ds)

/-- The floating-point power of ten, for exponents up to 308. -/
def powerOfTen (n : Nat) : Float :=
  Float.ofScientific 1 false n

/-- A value divided by `10^308` as often as the exponent asks for, then by the rest of it. -/
def shrink (x : Float) : Nat → Nat → Float
  | 0, _ => x
  | fuel + 1, n =>
    if n ≤ 308 then x / powerOfTen n
    else if x == 0.0 then x
    else shrink (x / powerOfTen 308) fuel (n - 308)

/-- The value `significand · 10^exponent` by one scaling; `none` where it would be infinite. -/
def scaled? (significand : Nat) (exponent : Int) : Option Float :=
  let x := significand.toUInt64.toFloat
  if 0 ≤ exponent then
    if exponent ≤ 308 then some (x * powerOfTen exponent.toNat) |>.filter Float.isFinite
    else if x == 0.0 then some x
    else none
  else
    let n := (-exponent).toNat
    some (shrink x (n / 308 + 1) n)

/-- The text of a number cut into its parts. -/
structure Parts where
  negative : Bool
  whole : List Char
  fraction : List Char
  /-- The power of ten, if one is written. -/
  exponent : Option Int

/-- The parts of a number: no sign but a minus, no superfluous leading zero, digits on both sides of
a point, and digits in an exponent. -/
def parts? (cs : List Char) : Option Parts := do
  let (negative, cs) := match cs with
    | '-' :: rest => (true, rest)
    | cs => (false, cs)
  let whole := cs.takeWhile Decimal.isDigit
  guard (whole ≠ [] ∧ (whole.head? = some '0' → whole = ['0']))
  let rest := cs.dropWhile Decimal.isDigit
  let (fraction, rest) ← match rest with
    | '.' :: more =>
      let digits := more.takeWhile Decimal.isDigit
      if digits = [] then none else some (digits, more.dropWhile Decimal.isDigit)
    | rest => some ([], rest)
  match rest with
  | [] => some ⟨negative, whole, fraction, none⟩
  | rest => (Decimal.exponent? rest).map fun e => ⟨negative, whole, fraction, some e⟩

/-- The integer that is written, if it is one of 64 bits. The negative zero is none. -/
def Parts.integer? (p : Parts) : Option Int :=
  let whole := Decimal.valueOf p.whole
  if p.fraction ≠ [] ∨ p.exponent.isSome then none
  else if p.negative then
    if 0 < whole ∧ 2 * whole ≤ UInt64.size then some (-whole) else none
  else if whole < UInt64.size then some whole
  else none

/-- The floating-point number that is written. Digits behind the point count as far as they fit,
also where the whole part already left digits out. -/
def Parts.real? (p : Parts) : Option Float :=
  let (upper, beyond) := leading 0 p.whole
  let (significand, left) := leading upper p.fraction
  let exponent := p.exponent.getD 0 + beyond.length - (p.fraction.length - left.length : Nat)
  (scaled? significand exponent).map fun x => if p.negative then -x else x

/-- The number that its parts denote. -/
def Parts.number? (p : Parts) : Option JsonNumber :=
  (p.integer?.map integer).or (p.real?.map real)

def ofText? (cs : List Char) : Option JsonNumber :=
  (parts? cs).bind Parts.number?

end JsonNumber

/-! ## Tokens -/

/-- A lexical part of a JSON text. -/
inductive JsonToken where
  | openBracket
  | closeBracket
  | openBrace
  | closeBrace
  | comma
  | colon
  | null
  | bool (value : Bool)
  | number (value : JsonNumber)
  | string (value : String)
  /-- The text is not JSON from here on. -/
  | malformed
deriving Inhabited

namespace JsonToken

/-- The code unit that four digits of base 16 denote. -/
def hexUnit? (a b c d : Char) : Option Nat := do
  let digit? (c : Char) : Option Nat :=
    if '0' ≤ c ∧ c ≤ '9' then some (c.toNat - '0'.toNat)
    else if 'a' ≤ c ∧ c ≤ 'f' then some (c.toNat - 'a'.toNat + 10)
    else if 'A' ≤ c ∧ c ≤ 'F' then some (c.toNat - 'A'.toNat + 10)
    else none
  return 4096 * (← digit? a) + 256 * (← digit? b) + 16 * (← digit? c) + (← digit? d)

/-- The character of an escape of one letter. -/
def letterEscape? : Char → Option Char
  | '"' => some '"'
  | '\\' => some '\\'
  | '/' => some '/'
  | 'b' => some '\x08'
  | 'f' => some '\x0c'
  | 'n' => some '\n'
  | 'r' => some '\r'
  | 't' => some '\t'
  | _ => none

/-- The content of a string from behind its opening quote, and the text after its closing quote. Two
escaped halves of a pair are one character, a half alone is refused, and so is a control character
that is not escaped. -/
def stringBody? : List Char → Option (List Char × List Char)
  | [] => none
  | '"' :: rest => some ([], rest)
  | '\\' :: 'u' :: a :: b :: c :: d :: rest => do
    let unit ← hexUnit? a b c d
    if 0xDC00 ≤ unit ∧ unit ≤ 0xDFFF then none
    else if 0xD800 ≤ unit ∧ unit ≤ 0xDBFF then
      match rest with
      | '\\' :: 'u' :: e :: f :: g :: h :: rest' => do
        let low ← hexUnit? e f g h
        if 0xDC00 ≤ low ∧ low ≤ 0xDFFF then
          let (content, after) ← stringBody? rest'
          return (Char.ofNat (0x10000 + 0x400 * (unit - 0xD800) + (low - 0xDC00)) :: content, after)
        else none
      | _ => none
    else
      let (content, after) ← stringBody? rest
      return (Char.ofNat unit :: content, after)
  | '\\' :: e :: rest => do
    let c ← letterEscape? e
    let (content, after) ← stringBody? rest
    return (c :: content, after)
  | c :: rest =>
    if c.toNat < 0x20 ∨ c = '\\' then none
    else do
      let (content, after) ← stringBody? rest
      return (c :: content, after)

/-- Blanks between tokens. -/
def isBlank (c : Char) : Bool :=
  c = ' ' || c = '\n' || c = '\t' || c = '\r'

/-- The characters of names and numbers. -/
def isBare (c : Char) : Bool :=
  c.isAlphanum || c = '+' || c = '-' || c = '.'

/-- The token that a run of bare characters makes. -/
def ofBare (cs : List Char) : JsonToken :=
  match String.ofList cs with
  | "null" => .null
  | "true" => .bool true
  | "false" => .bool false
  | _ => ((JsonNumber.ofText? cs).map JsonToken.number).getD .malformed

/-- The mark that a character is by itself. -/
def mark? : Char → Option JsonToken
  | '[' => some .openBracket
  | ']' => some .closeBracket
  | '\x7b' => some .openBrace
  | '\x7d' => some .closeBrace
  | ',' => some .comma
  | ':' => some .colon
  | _ => none

/-- The tokens of a text, each from at least one character, so `fuel` need not exceed the number of
characters. -/
def cut : Nat → List Char → List JsonToken
  | 0, _ => []
  | _, [] => []
  | fuel + 1, c :: rest =>
    if isBlank c then cut fuel rest
    else if c = '"' then
      match stringBody? rest with
      | some (content, after) => .string (String.ofList content) :: cut fuel after
      | none => [.malformed]
    else match mark? c with
      | some token => token :: cut fuel rest
      | none =>
        if isBare c then
          match ofBare (c :: rest.takeWhile isBare) with
          | .malformed => [.malformed]
          | token => token :: cut fuel (rest.dropWhile isBare)
        else [.malformed]

end JsonToken

def JsonToken.tokens (text : String) : List JsonToken :=
  cut text.toList.length text.toList

end TableClient
