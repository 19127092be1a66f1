import TableClient.AttributeValue.Wire
import TableClient.Json.Reader
/-!
# Attribute values straight from text

`AttributeValue.ofText` reads a value while the text is cut into tokens, without making a document
of it first. So of several faults the one that stands first in the text is reported, also where the
text behind it is no JSON at all. In a map the last of several entries with one name counts.
-/

namespace TableClient
namespace AttributeValue

/-- The strings of an array up to its end. -/
def textsFrom? : List JsonToken → Option (List String × List JsonToken)
  | .string x :: .comma :: rest =>
    match textsFrom? rest with
    | some (xs, rest) => some (x :: xs, rest)
    | none => none
  | .string x :: .closeBracket :: rest => some ([x], rest)
  | _ => none

/-- A payload of a type without values inside, as a document. -/
def flatPayload? : List JsonToken → Option (Json × List JsonToken)
  | .string x :: rest => some (.string x, rest)
  | .bool x :: rest => some (.bool x, rest)
  | .openBracket :: .closeBracket :: rest => some (.array [], rest)
  | .openBracket :: rest => (textsFrom? rest).map fun (xs, rest) => (.array (xs.map .string), rest)
  | _ => none

mutual
/-- A value at the front of the tokens, with `depth` levels of nesting left. Of any two calls in a
row one takes a token, so twice the number of tokens is fuel enough. -/
def fromTokens : Nat → Nat → List JsonToken → Except WireError (AttributeValue × List JsonToken)
  | 0, _, _ => .error .misfit
  | fuel + 1, depth, tokens =>
    match depth, tokens with
    | _ + 1, .openBrace :: .closeBrace :: _ => .error .notOneTag
    | depth + 1, .openBrace :: .string name :: rest =>
      match Named.ofName? name with
      | none => .error (.unknownTag name)
      | some tag => do
        let .colon :: rest := rest | .error .misfit
        let (value, rest) ← payloadFrom fuel depth tag rest
        match rest with
        | .closeBrace :: rest => return (value, rest)
        | .comma :: .string _ :: _ => .error .notOneTag
        | _ => .error .misfit
    | _, _ => .error .misfit

/-- A payload of a type at the front of the tokens. -/
def payloadFrom : Nat → Nat → TypeTag → List JsonToken →
    Except WireError (AttributeValue × List JsonToken)
  | 0, _, _, _ => .error .misfit
  | fuel + 1, depth, tag, tokens =>
    match depth, tag, tokens with
    | _ + 1, .l, .openBracket :: .closeBracket :: rest => .ok (.list [], rest)
    | depth + 1, .l, .openBracket :: rest => itemsFrom fuel depth [] rest
    | _ + 1, .m, .openBrace :: .closeBrace :: rest => .ok (.map [], rest)
    | depth + 1, .m, .openBrace :: rest => entriesFrom fuel depth [] rest
    | depth, tag, tokens =>
      match flatPayload? tokens with
      | some (.array xs, rest) =>
        if depth = 0 then .error .misfit
        else (flat? tag (.array xs)).elim (.error .misfit) fun value => .ok (value, rest)
      | some (payload, rest) =>
        (flat? tag payload).elim (.error .misfit) fun value => .ok (value, rest)
      | none => .error .misfit

/-- The items of a list up to its end, behind those already read in `done`, the last first. -/
def itemsFrom : Nat → Nat → List AttributeValue → List JsonToken →
    Except WireError (AttributeValue × List JsonToken)
  | 0, _, _, _ => .error .misfit
  | fuel + 1, depth, done, tokens => do
    let (item, rest) ← fromTokens fuel depth tokens
    match rest with
    | .comma :: rest => itemsFrom fuel depth (item :: done) rest
    | .closeBracket :: rest => return (.list (item :: done).reverse, rest)
    | _ => .error .misfit

/-- The entries of a map up to its end, together with those already read. -/
def entriesFrom : Nat → Nat → Dict AttributeValue → List JsonToken →
    Except WireError (AttributeValue × List JsonToken)
  | 0, _, _, _ => .error .misfit
  | fuel + 1, depth, done, tokens =>
    match tokens with
    | .string name :: .colon :: rest => do
      let (value, rest) ← fromTokens fuel depth rest
      match rest with
      | .comma :: rest => entriesFrom fuel depth (done.insert name value) rest
      | .closeBrace :: rest => return (.map (done.insert name value), rest)
      | _ => .error .misfit
    | _ => .error .misfit
end

def ofText (text : String) : Except WireError AttributeValue :=
  let tokens := JsonToken.tokens text
  match fromTokens (2 * tokens.length + 1) Json.maxDepth tokens with
  | .ok (value, []) => .ok value
  | .ok _ => .error .misfit
  | .error e => .error e

end AttributeValue
end TableClient
