/-! Reading an integer from text: blanks around it, a sign, and decimal digits of any script with
single underscores between them. -/
namespace PageFlattening.Text

/-- The code points of the digit zero of each script; the other nine digits follow it. -/
def digitZeros : List Nat :=
  [0x30, 0x660, 0x6f0, 0x7c0, 0x966, 0x9e6, 0xa66, 0xae6, 0xb66, 0xbe6, 0xc66, 0xce6, 0xd66,
   0xde6, 0xe50, 0xed0, 0xf20, 0x1040, 0x1090, 0x17e0, 0x1810, 0x1946, 0x19d0, 0x1a80, 0x1a90,
   0x1b50, 0x1bb0, 0x1c40, 0x1c50, 0xa620, 0xa8d0, 0xa900, 0xa9d0, 0xa9f0, 0xaa50, 0xabf0,
   0xff10, 0x104a0, 0x10d30, 0x11066, 0x110f0, 0x11136, 0x111d0, 0x112f0, 0x11450, 0x114d0,
   0x11650, 0x116c0, 0x11730, 0x118e0, 0x11950, 0x11c50, 0x11d50, 0x11da0, 0x16a60, 0x16ac0,
   0x16b50, 0x1d7ce, 0x1d7d8, 0x1d7e2, 0x1d7ec, 0x1d7f6, 0x1e140, 0x1e2f0, 0x1e950, 0x1fbf0]

def digit? (c : Char) : Option Nat :=
  digitZeros.findSome? fun start =>
    if start ≤ c.toNat ∧ c.toNat < start + 10 then some (c.toNat - start) else none

def isBlank (c : Char) : Bool :=
  let n := c.toNat
  (9 ≤ n && n ≤ 13) || (28 ≤ n && n ≤ 32) || n == 0x85 || n == 0xa0 || n == 0x1680 ||
    (0x2000 ≤ n && n ≤ 0x200a) || n == 0x2028 || n == 0x2029 || n == 0x202f || n == 0x205f ||
    n == 0x3000

def trimBlanks (cs : List Char) : List Char :=
  ((cs.dropWhile isBlank).reverse.dropWhile isBlank).reverse

/-- Reads the digits that follow a digit: each is a digit, or an underscore before one. -/
def moreDigits (value : Nat) : List Char → Option Nat
  | [] => some value
  | [c] => (digit? c).map (10 * value + ·)
  | '_' :: c :: rest => (digit? c).bind fun d => moreDigits (10 * value + d) rest
  | c :: rest => (digit? c).bind fun d => moreDigits (10 * value + d) rest

def natural? : List Char → Option Nat
  | [] => none
  | c :: rest => (digit? c).bind fun d => moreDigits d rest

def maxDigits : Nat := 4300

def integer? (s : String) : Option Int :=
  let body := trimBlanks s.toList
  if maxDigits < (body.filter fun c => (digit? c).isSome).length then none
  else
    match body with
    | '-' :: digits => (natural? digits).map fun n => -(n : Int)
    | '+' :: digits => (natural? digits).map Int.ofNat
    | digits => (natural? digits).map Int.ofNat

end PageFlattening.Text
