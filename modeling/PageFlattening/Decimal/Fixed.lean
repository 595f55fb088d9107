import PageFlattening.Decimal.Binary

/-! Decimal text with a fixed number of places, rounded from the exact value of a double. -/
namespace PageFlattening.Decimal

def padded (width n : Nat) : List Char :=
  let digits := Nat.toDigits 10 n
  List.replicate (width - digits.length) '0' ++ digits

def placesText (places units : Nat) : String :=
  let digits := padded (places + 1) units
  let whole := digits.take (digits.length - places)
  if places = 0 then String.ofList whole
  else String.ofList whole ++ "." ++ String.ofList (digits.drop (digits.length - places))

/-- A double with a fixed number of places, halves to the even digit. What prints as zero has no
sign. -/
def fixed (places : Nat) (x : Float) : String :=
  match Binary.ofFloat x with
  | .undefined => "nan"
  | .infinite negative => if negative then "-inf" else "inf"
  | .finite negative mantissa exponent =>
      let (num, den) := fraction mantissa exponent
      let units := roundDiv (num * Nat.pow 10 places) den
      let sign := if negative && units != 0 then "-" else ""
      sign ++ placesText places units

end PageFlattening.Decimal
