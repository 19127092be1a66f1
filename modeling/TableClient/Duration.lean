/-!
# Durations

A length of time in nanoseconds. There is a longest one, of `2^64` seconds less a nanosecond, and
products that would be longer are cut to it.
-/

namespace TableClient

def nanosPerSecond : Nat := 1000000000

def nanosPerMilli : Nat := 1000000

structure Duration where
  nanos : Nat
  nanos_lt : nanos < UInt64.size * nanosPerSecond
deriving DecidableEq

namespace Duration

/-- A whole number of milliseconds. -/
def ofMillis (n : UInt64) : Duration :=
  ⟨n.toNat * nanosPerMilli, by
    have := n.toNat_lt_size
    simp only [nanosPerMilli, nanosPerSecond]
    omega⟩

/-- The whole milliseconds in a duration. -/
def millis (d : Duration) : Nat :=
  d.nanos / nanosPerMilli

/-- The nearest duration to a number of nanoseconds. -/
def saturated (nanos : Nat) : Duration :=
  ⟨min nanos (UInt64.size * nanosPerSecond - 1), by
    simp only [nanosPerSecond, UInt64.size]
    omega⟩

/-- A multiple of a duration, cut to the longest one. -/
def times (d : Duration) (n : Nat) : Duration :=
  saturated (d.nanos * n)

def shorter (d e : Duration) : Duration :=
  if d.nanos ≤ e.nanos then d else e

/-! ## Text -/

/-- A number of units of `10^places` of the next smaller ones, without trailing zeros behind the
point. -/
def decimalText (n places : Nat) : String :=
  let digits := Nat.toDigits 10 (n % Nat.pow 10 places)
  let padded := List.replicate (places - digits.length) '0' ++ digits
  let fraction := (padded.reverse.dropWhile (· = '0')).reverse
  toString (n / Nat.pow 10 places) ++
    if fraction.isEmpty then "" else "." ++ String.ofList fraction

/-- The duration in the largest unit of which it has at least one. -/
def text (d : Duration) : String :=
  if nanosPerSecond ≤ d.nanos then decimalText d.nanos 9 ++ "s"
  else if nanosPerMilli ≤ d.nanos then decimalText d.nanos 6 ++ "ms"
  else if 1000 ≤ d.nanos then decimalText d.nanos 3 ++ "µs"
  else toString d.nanos ++ "ns"

end Duration
end TableClient
