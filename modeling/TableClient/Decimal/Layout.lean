import TableClient.Decimal.Shortest
/-!
# Written forms of floating-point values

`positional` writes every digit in its place, `scientific` one digit before the point and a power of
ten. A `Layout` says when each is used and how the special values are spelt.
-/

namespace TableClient.Decimal

namespace Numeral

/-- The number of digits before the point, negative when zeros follow it. -/
def pointPlace (x : Numeral) : Int :=
  (digits x.coefficient).length + x.exponent

/-- All digits in their places. A whole number ends in `wholeMark`. -/
def positional (wholeMark : String) (x : Numeral) : String :=
  let ds := digits x.coefficient
  if 0 ≤ x.exponent then
    String.ofList (ds ++ List.replicate x.exponent.toNat '0') ++ wholeMark
  else if 0 < x.pointPlace then
    String.ofList (ds.take x.pointPlace.toNat) ++ "." ++ String.ofList (ds.drop x.pointPlace.toNat)
  else
    "0." ++ String.ofList (List.replicate (-x.pointPlace).toNat '0' ++ ds)

/-- One digit before the point, the others behind it, and the power of ten. -/
def scientific (x : Numeral) : String :=
  let exponent := "e" ++ toString (x.pointPlace - 1)
  match digits x.coefficient with
  | [] => exponent
  | [d] => String.ofList [d] ++ exponent
  | d :: ds => String.ofList (d :: '.' :: ds) ++ exponent

end Numeral

/-- The choices of one written form of floating-point values. -/
structure Layout where
  /-- Of two equally near shortest decimals, which is written. -/
  tie : Tie
  /-- What a whole number ends in. -/
  wholeMark : String
  /-- Whether a number with its point at this place is written without a power of ten. -/
  isPositional : Int → Bool
  infinity : String
  notANumber : String

/-- The text of a bit pattern of the format `f`. -/
def Layout.text (layout : Layout) (f : BinaryFormat) (bits : Nat) : String :=
  match f.decode bits with
  | (_, .notANumber) => layout.notANumber
  | (negative, magnitude) =>
    (if negative then "-" else "") ++
      match magnitude with
      | .notANumber => layout.notANumber
      | .infinite => layout.infinity
      | .finite 0 _ => "0" ++ layout.wholeMark
      | .finite m e =>
        let x := shortest f layout.tie m e
        if layout.isPositional x.pointPlace then x.positional layout.wholeMark else x.scientific

end TableClient.Decimal
