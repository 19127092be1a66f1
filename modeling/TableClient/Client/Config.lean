import TableClient.Decimal.Literal
import TableClient.Duration
import TableClient.Http.Request
import TableClient.Schema.Names
import TableClient.Text.Blank
/-!
# Configuration

What a client does unless a request says otherwise, and where its requests go. Both can be taken
from variables of the environment; a variable that cannot be read leaves the default in place.
-/

namespace TableClient

/-- The natural numbers of 64 bits that a text denotes. -/
def number64? (text : String) : Option UInt64 :=
  ((Decimal.IntegerRange.unsigned 64).ofText? text).map fun n => UInt64.ofNat n.toNat

/-- Defaults of requests and of paced scans. -/
structure ClientConfig where
  returnConsumedCapacity : ReturnConsumedCapacity := .total
  /-- The longest sleep of a scan. -/
  scanMaxSleep : Duration := .ofMillis 10000
  /-- How many throttled answers in a row a scan bears. -/
  scanMaxConsecutiveExceptions : UInt32 := 30
  /-- The sleep of a scan after a first throttled answer. -/
  scanInitialBackoff : Duration := .ofMillis 100
  /-- Whether a scan goes on when an answer tells no capacity. -/
  scanAllowWithoutConsumedCapacity : Bool := false

namespace ClientConfig

/-- The texts that stand for yes. -/
def isYes (text : String) : Bool :=
  ["1", "true", "yes", "on"].contains (Text.lower text)

/-- The configuration that the variables of an environment ask for. Numbers may have white space
around them. -/
def ofEnvironment (lookup : String → Option String) : ClientConfig :=
  let number? (name : String) : Option UInt64 :=
    (lookup name).bind fun text => number64? (Text.trimmed text)
  let base : ClientConfig := {}
  { returnConsumedCapacity :=
      match (lookup "DYNACCESS_RETURN_CONSUMED_CAPACITY").map WireEnum.parse with
      | some (.ok level) => level
      | _ => base.returnConsumedCapacity
    scanMaxSleep :=
      (number? "DYNACCESS_SCAN_MAX_SLEEP_MS").elim base.scanMaxSleep Duration.ofMillis
    scanMaxConsecutiveExceptions :=
      (number? "DYNACCESS_SCAN_MAX_CONSECUTIVE_EXCEPTIONS").elim base.scanMaxConsecutiveExceptions
        fun n => UInt32.ofNat (min n.toNat (UInt32.size - 1))
    scanInitialBackoff :=
      (number? "DYNACCESS_SCAN_INITIAL_BACKOFF_MS").elim base.scanInitialBackoff Duration.ofMillis
    scanAllowWithoutConsumedCapacity :=
      (lookup "DYNACCESS_SCAN_ALLOW_WITHOUT_CONSUMED_CAPACITY").elim
        base.scanAllowWithoutConsumedCapacity isYes }

end ClientConfig

namespace Http

/-- Where requests go and how long they may take. -/
structure Config where
  endpoint : String := "http://localhost:4566"
  region : String := "us-east-1"
  requestTimeout : Duration := .ofMillis 30000

/-- The configuration that the variables of an environment ask for. -/
def Config.ofEnvironment (lookup : String → Option String) : Config :=
  let base : Config := {}
  { endpoint := (lookup "DYNAMODB_ENDPOINT").getD base.endpoint
    region := (lookup "DEFAULT_REGION").getD base.region
    requestTimeout :=
      ((lookup "DYNACCESS_REQUEST_TIMEOUT_MS").bind number64?).elim base.requestTimeout
        Duration.ofMillis }

end Http
end TableClient
