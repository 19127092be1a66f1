import TableClient.Json.Text
import TableClient.Service.Error
import TableClient.Service.Operation
/-!
# Requests over HTTP

Every operation is a `POST` of its JSON document to the endpoint; a header names the operation.
-/

namespace TableClient.Http

/-- Where requests go: a text without spaces that is not empty. -/
structure Endpoint where
  address : String
deriving DecidableEq

namespace Endpoint

/-- The endpoint with an address, if it is one. -/
def ofAddress (address : String) : Except ServiceError Endpoint :=
  if address.isEmpty || address.toList.contains ' ' then
    .error (.ofCode .validation ("invalid endpoint '" ++ address ++ "': not an address"))
  else .ok ⟨address⟩

/-- The characters of schemes. -/
def isSchemeChar (c : Char) : Bool :=
  c.isAlphanum || c = '+' || c = '-' || c = '.'

/-- The scheme with its mark and the rest of an address, if it has one. The schemes of the web are
written in lower case. -/
def cutScheme? (address : List Char) : Option (List Char × List Char) :=
  let name := address.takeWhile isSchemeChar
  match address.dropWhile isSchemeChar with
  | ':' :: '/' :: '/' :: rest =>
    let lower := name.map Char.toLower
    let web := lower = ['h', 't', 't', 'p'] || lower = ['h', 't', 't', 'p', 's']
    some ((if web then lower else name) ++ [':', '/', '/'], rest)
  | _ => none

/-- The host with its port, and the path and query behind it. -/
def cutHost (afterScheme : List Char) : List Char × List Char :=
  let ends (c : Char) : Bool := c = '/' || c = '?'
  (afterScheme.takeWhile (!ends ·), afterScheme.dropWhile (!ends ·))

/-- What is asked for at the endpoint: its address without the part behind a `#`, and behind a host
with a path, the root if none is given. -/
def target (e : Endpoint) : String :=
  let address := e.address.toList.takeWhile (· ≠ '#')
  match cutScheme? address with
  | none => String.ofList address
  | some (scheme, rest) =>
    match cutHost rest with
    | (host, '/' :: path) => String.ofList (scheme ++ host ++ '/' :: path)
    | (host, query) => String.ofList (scheme ++ host ++ '/' :: query)

end Endpoint

/-- A request without its invocation id, which is drawn anew for each one. -/
structure Request where
  method : String
  target : String
  headers : Dict String
  body : String

/-- The number of bytes of a text. -/
def byteCount (text : String) : Nat :=
  text.utf8ByteSize

/-- The request that calls an operation. -/
def Request.ofCall (endpoint : Endpoint) (op : Operation) (params : Json) : Request :=
  let body := params.text
  { method := "POST"
    target := endpoint.target
    headers := Dict.ofList [
      ("content-type", "application/x-amz-json-1.0"),
      ("x-amz-target", op.target),
      ("content-length", toString (byteCount body))]
    body }

end TableClient.Http
