import TableClient.Crc32
import TableClient.Decimal.Literal
import TableClient.Json.Reader
import TableClient.Service.Error
/-!
# Responses over HTTP

A response is checked against its checksum if it has one, then its body is read as JSON; a status
outside 200 to 299 makes it an error. The steps come in this order, so a damaged body is never read
and never taken for an answer of the service.
-/

namespace TableClient.Http

/-- A response as it came. -/
structure Response where
  status : Nat
  /-- The text of the checksum header, if there is one. -/
  checksum : Option String
  body : Bytes

namespace Response

/-- Refuses a body whose checksum is not the one of the header. -/
def verify (r : Response) : Except ServiceError Unit :=
  match r.checksum with
  | none => .ok ()
  | some text =>
    match (Decimal.IntegerRange.unsigned 32).ofText? text with
    | none => .error (.ofCode .internalServerError "malformed x-amz-crc32 header")
    | some expected =>
      let computed := (Crc32.checksum r.body).toNat
      if expected = computed then .ok ()
      else .error (.ofCode .internalServerError
        ("response checksum mismatch: expected " ++ toString expected ++ ", computed " ++
          toString computed))

/-- The document of a body; no body is an object without fields. -/
def document? (body : Bytes) : Option Json :=
  if body.isEmpty then some (.object [])
  else (String.fromUTF8? ⟨body.toArray⟩).bind Json.ofText?

/-- Whether the status says that the call succeeded. -/
def isSuccess (status : Nat) : Bool :=
  200 ≤ status && status < 300

/-- The failure that a document describes. -/
def failure (status : Nat) (document : Json) : ServiceError :=
  let code := ((document.field? "__type").bind Json.string?).elim .unknown ErrorCode.ofType
  let text := ((document.field? "message").or (document.field? "Message")).bind Json.string?
  ⟨code, text.getD (Named.name code), status⟩

/-- The answer or the failure that a response is. -/
def answer (r : Response) : Except ServiceError Json := do
  r.verify
  match document? r.body with
  | none => .error ⟨.serialization, "invalid response body: not a JSON document", r.status⟩
  | some document =>
    if isSuccess r.status then .ok document else .error (failure r.status document)

end Response
end TableClient.Http
