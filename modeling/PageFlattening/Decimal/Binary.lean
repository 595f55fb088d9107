/-! Doubles read as exact dyadic numbers, so that their decimal text and their integer part are
computed without rounding. -/
namespace PageFlattening.Decimal

inductive Binary where
  | finite (negative : Bool) (mantissa : Nat) (exponent : Int)
  | infinite (negative : Bool)
  | undefined
deriving Repr, DecidableEq

def Binary.ofFloat (x : Float) : Binary :=
  let bits : Nat := x.toBits.toNat
  let negative := bits / Nat.pow 2 63 == 1
  let biased : Nat := bits / Nat.pow 2 52 % Nat.pow 2 11
  let fraction : Nat := bits % Nat.pow 2 52
  if biased = 2047 then
    if fraction = 0 then .infinite negative else .undefined
  else if biased = 0 then .finite negative fraction (-1074)
  else .finite negative (fraction + Nat.pow 2 52) ((biased : Int) - 1075)

/-- The quotient of two naturals rounded to the nearest one, halves to the even neighbour. -/
def roundDiv (num den : Nat) : Nat :=
  let whole := num / den
  let rest := num % den
  if 2 * rest < den then whole
  else if den < 2 * rest then whole + 1
  else if whole % 2 = 0 then whole else whole + 1

def fraction (mantissa : Nat) (exponent : Int) : Nat × Nat :=
  if 0 ≤ exponent then (mantissa * Nat.pow 2 exponent.toNat, 1)
  else (mantissa, Nat.pow 2 (-exponent).toNat)

def signed (negative : Bool) (n : Nat) : Int :=
  if negative then -(n : Int) else n

/-- The integer part of a double, toward zero; zero where there is no number. -/
def truncate (x : Float) : Int :=
  match Binary.ofFloat x with
  | .finite negative mantissa exponent =>
      let (num, den) := fraction mantissa exponent
      signed negative (num / den)
  | _ => 0

def nearest (x : Float) : Int :=
  match Binary.ofFloat x with
  | .finite negative mantissa exponent =>
      let (num, den) := fraction mantissa exponent
      signed negative (roundDiv num den)
  | _ => 0

end PageFlattening.Decimal
