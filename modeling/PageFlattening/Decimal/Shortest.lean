import PageFlattening.Decimal.Binary

/-! The shortest decimal text that reads back as a given double. Digits are searched grid by grid
in exact arithmetic: of all decimals with the fewest digits inside the interval of reals that
round to the double, the nearest is written. -/
namespace PageFlattening.Decimal

structure Digits where
  digits : Nat
  power : Int
deriving Repr, DecidableEq

def digitCount (n : Nat) : Nat := (Nat.toDigits 10 n).length

def leadingZeros (num den : Nat) : Nat → Nat
  | 0 => 0
  | fuel + 1 => if den ≤ num then 0 else leadingZeros (num * 10) den fuel + 1

/-- The position of the leading digit: the fraction lies in `[10 ^ (e - 1), 10 ^ e)`. -/
def magnitude (num den : Nat) : Int :=
  if den ≤ num then digitCount (num / den)
  else 1 - (leadingZeros num den 400 : Int)

/-- The interval of reals that round to a double, over a common denominator, with the value itself
in the middle. Its ends belong to it exactly when the mantissa is even. -/
structure Interval where
  low : Nat
  value : Nat
  high : Nat
  den : Nat
  closed : Bool

/-- The interval of a positive double. Below a power of two the spacing halves. -/
def Interval.ofBinary (mantissa : Nat) (exponent : Int) : Interval :=
  let below := if mantissa = Nat.pow 2 52 ∧ -1074 < exponent then 1 else 2
  let (unit, den) := fraction 1 (exponent - 2)
  { low := (4 * mantissa - below) * unit
    value := 4 * mantissa * unit
    high := (4 * mantissa + 2) * unit
    den
    closed := mantissa % 2 = 0 }

def Interval.contains (i : Interval) (d : Digits) : Bool :=
  let up := Nat.pow 10 d.power.toNat
  let down := Nat.pow 10 (-d.power).toNat
  let point := d.digits * up * i.den
  if i.closed then i.low * down ≤ point ∧ point ≤ i.high * down
  else i.low * down < point ∧ point < i.high * down

def Interval.onGrid? (i : Interval) (top : Int) (count : Nat) : Option Digits :=
  let power := top - count
  let num := i.value * Nat.pow 10 (-power).toNat
  let den := i.den * Nat.pow 10 power.toNat
  let lower : Digits := ⟨num / den, power⟩
  let upper : Digits := ⟨num / den + 1, power⟩
  match i.contains lower, i.contains upper with
  | true, true => some ⟨roundDiv num den, power⟩
  | true, false => some lower
  | false, true => some upper
  | false, false => none

/-- The decimal with the fewest digits that reads back as the double; seventeen always suffice. -/
def shortest (mantissa : Nat) (exponent : Int) : Digits :=
  let i := Interval.ofBinary mantissa exponent
  let top := magnitude i.value i.den
  match (List.range 17).findSome? fun k => i.onGrid? top (k + 1) with
  | some d => d
  | none =>
      let num := i.value * Nat.pow 10 (17 - top).toNat
      let den := i.den * Nat.pow 10 (top - 17).toNat
      ⟨roundDiv num den, top - 17⟩

def trimZeros (digits : List Char) : List Char :=
  let kept := (digits.reverse.dropWhile (· == '0')).reverse
  if kept.isEmpty then ['0'] else kept

def exponentText (e : Int) : String :=
  let sign := if e < 0 then "-" else "+"
  let digits := toString e.natAbs
  sign ++ (if digits.length < 2 then "0" ++ digits else digits)

/-- Digits with a decimal point at the place given, or in scientific form when the leading digit
is below the fourth decimal or above the sixteenth place. A whole number keeps one zero behind
the point. -/
def Digits.text (d : Digits) : String :=
  let all := Nat.toDigits 10 d.digits
  let point := (all.length : Int) + d.power
  let digits := trimZeros all
  let scientific := point - 1
  if scientific < -4 ∨ 16 ≤ scientific then
    let tail := digits.drop 1
    let fractionText := if tail.isEmpty then "" else "." ++ String.ofList tail
    String.ofList (digits.take 1) ++ fractionText ++ "e" ++ exponentText scientific
  else if point ≤ 0 then
    "0." ++ String.ofList (List.replicate (-point).toNat '0' ++ digits)
  else
    let whole := digits.take point.toNat
    let padded := whole ++ List.replicate (point.toNat - whole.length) '0'
    let rest := digits.drop point.toNat
    String.ofList padded ++ "." ++ (if rest.isEmpty then "0" else String.ofList rest)

def literal (x : Float) : String :=
  match Binary.ofFloat x with
  | .undefined => "nan"
  | .infinite negative => if negative then "-inf" else "inf"
  | .finite negative mantissa exponent =>
      let sign := if negative then "-" else ""
      if mantissa = 0 then sign ++ "0.0" else sign ++ (shortest mantissa exponent).text

end PageFlattening.Decimal
