import PageFlattening.Value.Basic

/-! How values are written in messages: a literal form that shows the type, and a plain form that
leaves the quotes of a text away. -/
namespace PageFlattening

namespace Text

/-- Code point ranges that are written as escapes inside a quoted text: controls, blanks other than
the space, formats and private use. -/
def hiddenRanges : List (Nat × Nat) :=
  [(0, 0x1f), (0x7f, 0xa0), (0xad, 0xad), (0x600, 0x605), (0x61c, 0x61c), (0x6dd, 0x6dd),
   (0x70f, 0x70f), (0x890, 0x891), (0x8e2, 0x8e2), (0x1680, 0x1680), (0x180e, 0x180e),
   (0x2000, 0x200f), (0x2028, 0x202f), (0x205f, 0x206f), (0x3000, 0x3000), (0xd800, 0xf8ff),
   (0xfeff, 0xfeff), (0xfff0, 0xfffb), (0xfffe, 0xffff), (0x110bd, 0x110bd), (0x110cd, 0x110cd),
   (0x13430, 0x1343f), (0x1bca0, 0x1bca3), (0x1d173, 0x1d17a), (0xe0000, 0x10ffff)]

def isPrintable (c : Char) : Bool :=
  !hiddenRanges.any fun r => r.1 ≤ c.toNat && c.toNat ≤ r.2

def hex (width n : Nat) : String :=
  let digits := Nat.toDigits 16 n
  String.ofList (List.replicate (width - digits.length) '0' ++ digits)

def quotedChar (quote c : Char) : String :=
  let n := c.toNat
  if c == quote || c == '\\' then String.ofList ['\\', c]
  else if c == '\n' then "\\n"
  else if c == '\r' then "\\r"
  else if c == '\t' then "\\t"
  else if isPrintable c then String.singleton c
  else if n < 0x100 then "\\x" ++ hex 2 n
  else if n < 0x10000 then "\\u" ++ hex 4 n
  else "\\U" ++ hex 8 n

/-- A text between quotes: single ones, unless it holds a single quote and no double one. -/
def quoted (s : String) : String :=
  let single := Char.ofNat 39
  let double := Char.ofNat 34
  let quote := if s.contains single && !s.contains double then double else single
  String.singleton quote ++ String.join (s.toList.map (quotedChar quote)) ++
    String.singleton quote

/-- The dimensions of an array: a tuple, with a comma after a single entry. -/
def shape (dims : List Nat) : String :=
  match dims with
  | [n] => s!"({n},)"
  | dims => "(" ++ ", ".intercalate (dims.map toString) ++ ")"

def truth (b : Bool) : String := if b then "True" else "False"

def intList (ns : List Nat) : String := "[" ++ ", ".intercalate (ns.map toString) ++ "]"

end Text

namespace Value

variable {K : Type} [Scalar K]

mutual

def literal : Value K → String
  | .null => "None"
  | .bool b => Text.truth b
  | .int n => toString n
  | .real x => Scalar.literal x
  | .text s => Text.quoted s
  | .list items => "[" ++ ", ".intercalate (literals items) ++ "]"
  | .table entries => "\x7b" ++ ", ".intercalate (entryLiterals entries) ++ "\x7d"

def literals : List (Value K) → List String
  | [] => []
  | v :: rest => literal v :: literals rest

def entryLiterals : List (String × Value K) → List String
  | [] => []
  | e :: rest => entryLiteral e :: entryLiterals rest

def entryLiteral : String × Value K → String
  | (name, v) => Text.quoted name ++ ": " ++ literal v

end

def plain : Value K → String
  | .text s => s
  | v => v.literal

end Value

end PageFlattening
