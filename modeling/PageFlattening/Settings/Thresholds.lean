import PageFlattening.Value.Text

/-! The limits that a built model must satisfy to be used for rendering. Curvatures are in
millionths per pixel, slopes in thousandths. -/
namespace PageFlattening

inductive Limit where
  | lineCurvature
  | lineSpreadFloor
  | lineSpread
  | edgeSlope
  | edgeCurvature
  | edgeSpread
deriving Repr, DecidableEq

namespace Limit

def all : List Limit :=
  [lineCurvature, lineSpreadFloor, lineSpread, edgeSlope, edgeCurvature, edgeSpread]

def name : Limit → String
  | lineCurvature => "max_linecurv"
  | lineSpreadFloor => "min_diff_linecurv"
  | lineSpread => "max_diff_linecurv"
  | edgeSlope => "max_edgeslope"
  | edgeCurvature => "max_edgecurv"
  | edgeSpread => "max_diff_edgecurv"

def ofName? (s : String) : Option Limit := all.find? fun l => l.name == s

def standard : Limit → Nat
  | lineCurvature => 150
  | lineSpreadFloor => 0
  | lineSpread => 170
  | edgeSlope => 80
  | edgeCurvature => 50
  | edgeSpread => 40

theorem mem_all (l : Limit) : l ∈ all := by cases l <;> simp [all]

theorem ofName?_name (l : Limit) : ofName? l.name = some l := by cases l <;> rfl

end Limit

/-- A value for each limit, the floor of the line spread not above its ceiling. -/
structure Thresholds where
  limit : Limit → Nat
  ordered : limit .lineSpreadFloor ≤ limit .lineSpread

namespace Thresholds

variable {K : Type} [Scalar K]

def make (limit : Limit → Nat) : Except Fault Thresholds :=
  if ordered : limit .lineSpreadFloor ≤ limit .lineSpread then .ok ⟨limit, ordered⟩
  else .error (.setting (.thresholdOrder (limit .lineSpreadFloor) (limit .lineSpread)))

def standard : Thresholds := ⟨Limit.standard, by decide⟩

instance : Inhabited Thresholds := ⟨standard⟩

def checkLimit (name : String) (v : Value K) : Except Fault Nat :=
  match v with
  | .int n =>
      if n < 0 then .error (.setting (.thresholdNegative name v.plain)) else .ok n.toNat
  | _ => .error (.setting (.thresholdNotInteger name v.literal))

theorem checkLimit_eq_ok_iff {name : String} {v : Value K} {n : Nat} :
    checkLimit name v = .ok n ↔ v = .int n := by
  cases v with
  | int k =>
      rw [checkLimit]
      split
      · rename_i negative
        simp only [reduceCtorEq, Value.int.injEq, false_iff]
        omega
      · simp only [Except.ok.injEq, Value.int.injEq]
        omega
  | _ => simp [checkLimit]

def given (entries : List (String × Value K)) (l : Limit) : Except Fault Nat :=
  match Value.entry? entries l.name with
  | some v => checkLimit l.name v
  | none => .ok l.standard

/-- Thresholds from values given by name. An unknown name is refused first, then the limits are
checked in their order, and last the two that bound the line spread. -/
def ofEntries (entries : List (String × Value K)) : Except Fault Thresholds := do
  if entries.any fun e => (Limit.ofName? e.1).isNone then .error (.misuse .wrongType)
  let lineCurvature ← given entries .lineCurvature
  let lineSpreadFloor ← given entries .lineSpreadFloor
  let lineSpread ← given entries .lineSpread
  let edgeSlope ← given entries .edgeSlope
  let edgeCurvature ← given entries .edgeCurvature
  let edgeSpread ← given entries .edgeSpread
  make fun
    | .lineCurvature => lineCurvature
    | .lineSpreadFloor => lineSpreadFloor
    | .lineSpread => lineSpread
    | .edgeSlope => edgeSlope
    | .edgeCurvature => edgeCurvature
    | .edgeSpread => edgeSpread

def replace (limit : Limit → Nat) (l : Limit) (n : Nat) : Limit → Nat :=
  fun other => if other = l then n else limit other

def overridden (limit : Limit → Nat) : List (String × Value K) → Except Fault (Limit → Nat)
  | [] => .ok limit
  | (name, v) :: rest =>
      match Limit.ofName? name with
      | none => .error (.setting (.unknownThreshold name))
      | some l => do
          let n ← checkLimit name v
          overridden (replace limit l n) rest

/-- Replaces some limits; only the result has to be in order. The word for the receiver is refused
before any other name. -/
def revise (t : Thresholds) (entries : List (String × Value K)) : Except Fault Thresholds := do
  if entries.any fun e => e.1 == "self" then .error (.misuse .wrongType)
  make (← overridden t.limit entries)

def entries (t : Thresholds) : List (String × Value K) :=
  Limit.all.map fun l => (l.name, .int (t.limit l))

/-- One set of thresholds is looser than another if whatever the other accepts it accepts. -/
structure Looser (loose tight : Thresholds) : Prop where
  ceilings : ∀ l, l ≠ .lineSpreadFloor → tight.limit l ≤ loose.limit l
  floor : loose.limit .lineSpreadFloor ≤ tight.limit .lineSpreadFloor

end Thresholds

end PageFlattening
