import TableClient.Json.Token
/-!
# Reading JSON documents

`Json.ofText?` reads a text that is one document with blanks around it. Arrays and objects nest at
most 127 deep. Of fields with one name the last counts.
-/

namespace TableClient
namespace Json

/-- How deep arrays and objects may nest. -/
def maxDepth : Nat := 127

mutual
/-- A document at the front of the tokens, with `depth` levels of nesting left. Every step but the
turn from one function to the next takes a token, so twice their number is fuel enough. -/
def value? : Nat → Nat → List JsonToken → Option (Json × List JsonToken)
  | 0, _, _ => none
  | fuel + 1, depth, tokens =>
    match tokens with
    | .null :: rest => some (.null, rest)
    | .bool b :: rest => some (.bool b, rest)
    | .number n :: rest => some (.number n, rest)
    | .string s :: rest => some (.string s, rest)
    | .openBracket :: rest =>
      match depth, rest with
      | 0, _ => none
      | _, .closeBracket :: rest => some (.array [], rest)
      | depth + 1, rest => items? fuel depth [] rest
    | .openBrace :: rest =>
      match depth, rest with
      | 0, _ => none
      | _, .closeBrace :: rest => some (.object [], rest)
      | depth + 1, rest => fields? fuel depth [] rest
    | _ => none

/-- The items of an array up to its end, behind those already read in `done`, the last first. -/
def items? : Nat → Nat → List Json → List JsonToken → Option (Json × List JsonToken)
  | 0, _, _, _ => none
  | fuel + 1, depth, done, tokens =>
    match value? fuel depth tokens with
    | some (item, .comma :: rest) => items? fuel depth (item :: done) rest
    | some (item, .closeBracket :: rest) => some (.array (item :: done).reverse, rest)
    | _ => none

/-- The fields of an object up to its end, together with those already read. -/
def fields? : Nat → Nat → Dict Json → List JsonToken → Option (Json × List JsonToken)
  | 0, _, _, _ => none
  | fuel + 1, depth, done, tokens =>
    match tokens with
    | .string name :: .colon :: rest =>
      match value? fuel depth rest with
      | some (value, .comma :: rest) => fields? fuel depth (done.insert name value) rest
      | some (value, .closeBrace :: rest) => some (.object (done.insert name value), rest)
      | _ => none
    | _ => none
end

/-- The document that a text is. -/
def ofText? (text : String) : Option Json :=
  let tokens := JsonToken.tokens text
  match value? (2 * tokens.length + 1) maxDepth tokens with
  | some (document, []) => some document
  | _ => none

end Json
end TableClient
