import TableClient.Client.Config
/-!
# The budget of a scan

How much capacity a scan may use in each second, how long it sleeps and how many throttled answers
in a row it bears. The sleep after a throttled answer doubles with each further one, up to a bound.
-/

namespace TableClient

/-- The limits of a paced scan. -/
structure ScanBudget where
  /-- Units of capacity in a second. -/
  rate : UInt32
  /-- The longest sleep. -/
  maxSleep : Duration
  /-- How many throttled answers in a row are borne. -/
  maxConsecutiveExceptions : UInt32
  /-- The sleep after a first throttled answer. -/
  initialBackoff : Duration
  /-- Whether a page that does not tell its cost counts as free. -/
  allowWithoutConsumedCapacity : Bool
  /-- How long after the first page further pages may be asked for. -/
  timeout : Option Duration := none

namespace ScanBudget

/-- A budget with the limits of a configuration. -/
def ofConfig (config : ClientConfig) (rate : UInt32) : ScanBudget where
  rate
  maxSleep := config.scanMaxSleep
  maxConsecutiveExceptions := config.scanMaxConsecutiveExceptions
  initialBackoff := config.scanInitialBackoff
  allowWithoutConsumedCapacity := config.scanAllowWithoutConsumedCapacity

/-- The factor of the sleep after the `n`th throttled answer in a row, a word of 32 bits. -/
def backoffFactor (n : Nat) : Nat :=
  if n - 1 < 32 then Nat.pow 2 (n - 1) else UInt32.size - 1

/-- The sleep after the `n`th throttled answer in a row. -/
def backoff (b : ScanBudget) (n : Nat) : Duration :=
  (b.initialBackoff.times (backoffFactor n)).shorter b.maxSleep

end ScanBudget

/-! ## Counting capacity -/

/-- A way to count capacity. The program counts in floating-point numbers; what it does depends only
on these operations. -/
class CapacityUnits (κ : Type) where
  zero : κ
  add : κ → κ → κ
  /-- Whether the first is strictly more than the second. -/
  exceeds : κ → κ → Bool
  /-- The units that a budget allows. -/
  ofRate : UInt32 → κ
  /-- The units that an answer reports. -/
  ofReport : Float → κ

instance : CapacityUnits Float where
  zero := 0
  add := (· + ·)
  exceeds x y := decide (y < x)
  ofRate n := n.toNat.toFloat
  ofReport x := x

end TableClient
