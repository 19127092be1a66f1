/-!
# Decimal literals

Reading of integers and of real numbers from decimal text. Nothing around the number is skipped:
white space, separators and other scripts' digits are refused.
-/

namespace TableClient.Decimal

/-- Whether the character is one of the ten digits `0` to `9`. -/
def isDigit (c : Char) : Bool :=
  '0' ≤ c && c ≤ '9'

/-- The number that a run of digits denotes. -/
def valueOf (ds : List Char) : Nat :=
  ds.foldl (fun n d => 10 * n + (d.toNat - '0'.toNat)) 0

/-- One digit or more and nothing else. -/
def natural? (cs : List Char) : Option Nat :=
  if cs ≠ [] ∧ cs.all isDigit then some (valueOf cs) else none

/-! ## Integers -/

/-- The integers from `least` to `greatest`. -/
structure IntegerRange where
  least : Int
  greatest : Int

namespace IntegerRange

/-- The integers of two's complement with this many bits. -/
def signed (bits : Nat) : IntegerRange :=
  ⟨-(Nat.pow 2 (bits - 1) : Int), (Nat.pow 2 (bits - 1) : Int) - 1⟩

/-- The natural numbers below `2^bits`. -/
def unsigned (bits : Nat) : IntegerRange := ⟨0, (Nat.pow 2 bits : Int) - 1⟩

def has (r : IntegerRange) (n : Int) : Bool :=
  r.least ≤ n && n ≤ r.greatest

/-- Digits with an optional sign, if the number lies in the range. A minus sign is read only where
the range has negative numbers. -/
def ofText? (r : IntegerRange) (text : String) : Option Int :=
  let number : Option Int := match text.toList with
    | '+' :: ds => (natural? ds).map Int.ofNat
    | '-' :: ds => if r.least < 0 then (natural? ds).map fun n => -Int.ofNat n else none
    | ds => (natural? ds).map Int.ofNat
  number.filter r.has

end IntegerRange

/-! ## Real numbers -/

/-- The nearest floating-point value of `coefficient · 10^exponent`. Beyond the range of the format
the answer is settled by the place of the first digit, so no huge power is computed. -/
def nearest (coefficient : Nat) (exponent : Int) : Float :=
  let place := (Nat.toDigits 10 coefficient).length + exponent
  if coefficient = 0 ∨ place < -400 then 0.0
  else if 400 < place then 1.0 / 0.0
  else if 0 ≤ exponent then Float.ofScientific coefficient false exponent.toNat
  else Float.ofScientific coefficient true (-exponent).toNat

/-- The power of ten after the digits: nothing, or `e` with an optional sign and digits. -/
def exponent? : List Char → Option Int
  | [] => some 0
  | c :: rest =>
    if c = 'e' ∨ c = 'E' then
      match rest with
      | '+' :: ds => (natural? ds).map Int.ofNat
      | '-' :: ds => (natural? ds).map fun n => -Int.ofNat n
      | ds => (natural? ds).map Int.ofNat
    else none

/-- A number without sign: digits with at most one point, at least one digit in all, and an optional
power of ten. -/
def unsignedReal? (cs : List Char) : Option Float :=
  let whole := cs.takeWhile isDigit
  let afterWhole := cs.dropWhile isDigit
  let (fraction, rest) := match afterWhole with
    | '.' :: more => (more.takeWhile isDigit, more.dropWhile isDigit)
    | more => ([], more)
  if whole = [] ∧ fraction = [] then none
  else (exponent? rest).map fun e => nearest (valueOf (whole ++ fraction)) (e - fraction.length)

/-- The spelt values without sign, in any ASCII case. -/
def spelt? (cs : List Char) : Option Float :=
  match String.ofList (cs.map Char.toLower) with
  | "inf" | "infinity" => some (1.0 / 0.0)
  | "nan" => some (0.0 / 0.0)
  | _ => none

/-- A real number with an optional sign, or a spelt value. -/
def real? (text : String) : Option Float :=
  let magnitude (cs : List Char) := (spelt? cs).or (unsignedReal? cs)
  match text.toList with
  | '+' :: cs => magnitude cs
  | '-' :: cs => (magnitude cs).map fun x => -x
  | cs => magnitude cs

end TableClient.Decimal
