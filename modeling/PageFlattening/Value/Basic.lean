import PageFlattening.Fault
import PageFlattening.Scalar
import PageFlattening.Text.Integer

/-! Values as callers hand them over and as records store them: settings, page numbers and stored
fields arrive without a fixed type and are checked here. -/
namespace PageFlattening

inductive Value (K : Type) where
  | null
  | bool (b : Bool)
  | int (n : Int)
  | real (x : K)
  | text (s : String)
  | list (items : List (Value K))
  | table (entries : List (String × Value K))

namespace Value

variable {K : Type} [Scalar K]

instance : Inhabited (Value K) := ⟨.null⟩

def typeName : Value K → String
  | .null => "NoneType"
  | .bool _ => "bool"
  | .int _ => "int"
  | .real _ => "float"
  | .text _ => "str"
  | .list _ => "list"
  | .table _ => "dict"

/-- Whether a value counts as set: everything but null, false, zero and what is empty. -/
def truthy : Value K → Bool
  | .null => false
  | .bool b => b
  | .int n => n != 0
  | .real x => !(x == Scalar.ofInt 0)
  | .text s => !s.isEmpty
  | .list items => !items.isEmpty
  | .table entries => !entries.isEmpty

/-- The integer that a value is, where a truth value is not one. -/
def integer? : Value K → Option Int
  | .int n => some n
  | _ => none

def number? : Value K → Option K
  | .bool b => some (Scalar.ofInt (if b then 1 else 0))
  | .int n => some (Scalar.ofInt n)
  | .real x => some x
  | _ => none

def truncated (x : K) : Except Fault Int :=
  match Scalar.notFinite? x with
  | some .undefined => .error (.misuse .notANumber)
  | some .infinite => .error (.misuse .tooLarge)
  | none => .ok (Scalar.trunc x)

/-- A value made an integer: a number loses its fraction, a text is read. -/
def toInt : Value K → Except Fault Int
  | .bool b => .ok (if b then 1 else 0)
  | .int n => .ok n
  | .real x => truncated x
  | .text s =>
      match Text.integer? s with
      | some n => .ok n
      | none => .error (.misuse .notANumber)
  | _ => .error (.misuse .wrongType)

def lessThan (v : Value K) (bound : Int) : Except Fault Bool :=
  match v with
  | .bool b => .ok ((if b then 1 else 0) < bound)
  | .int n => .ok (n < bound)
  | .real x => .ok (x < Scalar.ofInt bound)
  | _ => .error (.misuse .wrongType)

def greaterThan (v : Value K) (bound : Int) : Except Fault Bool :=
  match v with
  | .bool b => .ok (bound < (if b then 1 else 0))
  | .int n => .ok (bound < n)
  | .real x => .ok (Scalar.ofInt bound < x)
  | _ => .error (.misuse .wrongType)

/-- Whether a number reaches an integer; an undefined number reaches none. -/
def atLeast (v : Value K) (bound : Int) : Except Fault Bool :=
  match v with
  | .bool b => .ok (bound ≤ (if b then 1 else 0))
  | .int n => .ok (bound ≤ n)
  | .real x => .ok (Scalar.ofInt bound ≤ x)
  | _ => .error (.misuse .wrongType)

def equalsInt (v : Value K) (n : Int) : Bool :=
  match v with
  | .bool b => (if b then 1 else 0) == n
  | .int m => m == n
  | .real x => x == Scalar.ofInt n
  | _ => false

def sameNumber (v w : Value K) : Bool :=
  match v, w with
  | .real x, .real y => x == y
  | v, .int n => v.equalsInt n
  | v, .bool b => v.equalsInt (if b then 1 else 0)
  | .int n, w => w.equalsInt n
  | .bool b, w => w.equalsInt (if b then 1 else 0)
  | _, _ => false

def entry? (entries : List (String × Value K)) (name : String) : Option (Value K) :=
  (entries.find? fun e => e.1 == name).map (·.2)

def setEntry (entries : List (String × Value K)) (name : String) (v : Value K) :
    List (String × Value K) :=
  if entries.any fun e => e.1 == name then
    entries.map fun e => if e.1 == name then (name, v) else e
  else entries ++ [(name, v)]

def dropEntry (entries : List (String × Value K)) (name : String) : List (String × Value K) :=
  entries.filter fun e => !(e.1 == name)

def field (v : Value K) (name : String) : Except Fault (Value K) :=
  match v with
  | .table entries =>
      match entry? entries name with
      | some found => .ok found
      | none => .error (.misuse (.missingKey name))
  | _ => .error (.misuse .wrongType)

end Value

end PageFlattening
