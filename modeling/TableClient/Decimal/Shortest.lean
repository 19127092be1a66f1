/-!
# The shortest decimal of a binary floating-point value

A positive floating-point value `m · 2^e` stands for every real number that rounds to it. Among the
decimals in that interval `shortest` takes one with the fewest digits, and of those the nearest to
the value. All comparisons are between natural numbers.
-/

namespace TableClient.Decimal

/-! ## Binary formats -/

/-- A binary interchange format: the widths of its two fields below the sign bit. -/
structure BinaryFormat where
  /-- Bits of the trailing significand. -/
  fractionBits : Nat
  /-- Bits of the biased exponent. -/
  exponentBits : Nat

/-- The format of 64 bits. -/
def binary64 : BinaryFormat := ⟨52, 11⟩

/-- The format of 32 bits. -/
def binary32 : BinaryFormat := ⟨23, 8⟩

namespace BinaryFormat

/-- The exponent of the last place of the smallest values. -/
def minExponent (f : BinaryFormat) : Int :=
  2 - (Nat.pow 2 (f.exponentBits - 1) : Int) - f.fractionBits

/-- The smallest significand of a value in normal range. -/
def leastNormal (f : BinaryFormat) : Nat :=
  Nat.pow 2 f.fractionBits

end BinaryFormat

/-- What a bit pattern denotes, its sign apart. -/
inductive Magnitude where
  /-- The value `significand · 2^exponent`. -/
  | finite (significand : Nat) (exponent : Int)
  | infinite
  | notANumber

/-- Whether the sign bit is set, and what the other bits denote. -/
def BinaryFormat.decode (f : BinaryFormat) (bits : Nat) : Bool × Magnitude :=
  let fraction := bits % Nat.pow 2 f.fractionBits
  let biased := bits / Nat.pow 2 f.fractionBits % Nat.pow 2 f.exponentBits
  let negative := bits / Nat.pow 2 (f.fractionBits + f.exponentBits) % 2 = 1
  let magnitude :=
    if biased = Nat.pow 2 f.exponentBits - 1 then
      if fraction = 0 then .infinite else .notANumber
    else if biased = 0 then .finite fraction f.minExponent
    else .finite (f.leastNormal + fraction) (f.minExponent + biased - 1)
  (negative, magnitude)

/-! ## Decimal numerals -/

/-- The number `coefficient · 10^exponent`. -/
structure Numeral where
  coefficient : Nat
  exponent : Int
deriving Repr, DecidableEq

/-- The decimal digits of a number, as text. -/
def digits (n : Nat) : List Char :=
  Nat.toDigits 10 n

/-- Which of two equally near neighbours is taken. -/
inductive Tie where
  /-- The one with the even last digit. -/
  | toEven
  /-- The larger one. -/
  | up
deriving DecidableEq

/-- The `k` with `10^k ≤ num / den < 10^(k+1)`, for positive `num` and `den`. -/
def decade (num den : Nat) : Int :=
  if den ≤ num then ((digits (num / den)).length : Int) - 1
  else -((digits ((den + num - 1) / num - 1)).length : Int)

/-- The point of the grid of multiples of `10^k` that is taken for the value `m · 2^e`, if one of
its two neighbours there rounds to the value. Everything is measured in quarters of the last binary
place, because the lower neighbour of a power of two is half as far away as the upper one. -/
def gridPoint? (f : BinaryFormat) (tie : Tie) (m : Nat) (e k : Int) : Option Nat :=
  let binary := Nat.pow 2 (e - 2).toNat * Nat.pow 10 (-k).toNat
  let decimal := Nat.pow 2 (2 - e).toNat * Nat.pow 10 k.toNat
  let value := 4 * m * binary
  let low := (4 * m - if m = f.leastNormal ∧ f.minExponent < e then 1 else 2) * binary
  let high := (4 * m + 2) * binary
  let inside (d : Nat) : Bool :=
    if m % 2 = 0 then low ≤ d * decimal && d * decimal ≤ high
    else low < d * decimal && d * decimal < high
  let below := value / decimal
  let rest := value % decimal
  match inside below, inside (below + 1) with
  | false, false => none
  | true, false => some below
  | false, true => some (below + 1)
  | true, true =>
    if 2 * rest < decimal then some below
    else if decimal < 2 * rest then some (below + 1)
    else match tie with
      | .up => some (below + 1)
      | .toEven => some (if below % 2 = 0 then below else below + 1)

/-- The shortest decimal that rounds to the positive value `m · 2^e`, the nearest of those. At most
17 digits are ever needed. A point that is a multiple of ten lies on a coarser grid too, so apart
from the single digit that reaches ten the coefficient ends in no zero. -/
def shortest (f : BinaryFormat) (tie : Tie) (m : Nat) (e : Int) : Numeral :=
  let top := decade (m * Nat.pow 2 e.toNat) (Nat.pow 2 (-e).toNat)
  let found := (List.range 17).findSome? fun (n : Nat) =>
    (gridPoint? f tie m e (top - (n : Int))).map fun d => (d, top - (n : Int))
  match found with
  | none => ⟨m, e⟩
  | some (d, k) => if d = 10 then ⟨1, k + 1⟩ else ⟨d, k⟩

end TableClient.Decimal
