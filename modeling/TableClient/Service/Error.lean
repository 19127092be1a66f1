import TableClient.Naming
/-!
# Errors of the service

A failed call has a code, a message and an HTTP status. The code is the last part of the type that
the service sends; codes that the client does not know are one value.
-/

namespace TableClient

/-- The code of a failed call. -/
inductive ErrorCode where
  | resourceInUse
  | resourceNotFound
  | conditionalCheckFailed
  | itemCollectionSizeLimitExceeded
  | provisionedThroughputExceeded
  | requestLimitExceeded
  | throttling
  | limitExceeded
  | validation
  | serialization
  | internalServerError
  | serviceUnavailable
  | accessDenied
  | unrecognizedClient
  /-- Any other code. -/
  | unknown
deriving DecidableEq

instance : Named ErrorCode where
  all := [.resourceInUse, .resourceNotFound, .conditionalCheckFailed,
    .itemCollectionSizeLimitExceeded, .provisionedThroughputExceeded, .requestLimitExceeded,
    .throttling, .limitExceeded, .validation, .serialization, .internalServerError,
    .serviceUnavailable, .accessDenied, .unrecognizedClient, .unknown]
  name
    | .resourceInUse => "ResourceInUseException"
    | .resourceNotFound => "ResourceNotFoundException"
    | .conditionalCheckFailed => "ConditionalCheckFailedException"
    | .itemCollectionSizeLimitExceeded => "ItemCollectionSizeLimitExceededException"
    | .provisionedThroughputExceeded => "ProvisionedThroughputExceededException"
    | .requestLimitExceeded => "RequestLimitExceeded"
    | .throttling => "ThrottlingException"
    | .limitExceeded => "LimitExceededException"
    | .validation => "ValidationException"
    | .serialization => "SerializationException"
    | .internalServerError => "InternalServerError"
    | .serviceUnavailable => "ServiceUnavailable"
    | .accessDenied => "AccessDeniedException"
    | .unrecognizedClient => "UnrecognizedClientException"
    | .unknown => "UnknownError"
  mem_all := by rintro ⟨⟩ <;> decide
  name_injective := by rintro ⟨⟩ ⟨⟩ <;> decide

namespace ErrorCode

/-- The code with this name. -/
def ofName (name : String) : ErrorCode :=
  (Named.ofName? name).getD .unknown

/-- The part of a type behind its last `#`, or all of it if there is none. -/
def typeName (type : String) : String :=
  String.ofList (type.toList.reverse.takeWhile (· ≠ '#')).reverse

/-- The code of a type as the service sends it. -/
def ofType (type : String) : ErrorCode :=
  ofName (typeName type)

/-- Whether the code asks for the call to be repeated later. -/
def isThrottling : ErrorCode → Bool
  | .provisionedThroughputExceeded | .requestLimitExceeded | .throttling => true
  | _ => false

/-- The HTTP status that goes with the code. -/
def status : ErrorCode → Nat
  | .internalServerError | .unknown => 500
  | .serviceUnavailable => 503
  | _ => 400

end ErrorCode

/-- A failed call. -/
structure ServiceError where
  code : ErrorCode
  /-- What the service says of it. -/
  detail : String
  status : Nat
deriving DecidableEq

namespace ServiceError

/-- A failure with the status of its code. -/
def ofCode (code : ErrorCode) (detail : String) : ServiceError :=
  ⟨code, detail, code.status⟩

/-- Whether the call may be repeated later. -/
def isThrottling (e : ServiceError) : Bool :=
  e.code.isThrottling

def message (e : ServiceError) : String :=
  "DynamoDBError(" ++ Named.name e.code ++ "): " ++ e.detail

end ServiceError
end TableClient
