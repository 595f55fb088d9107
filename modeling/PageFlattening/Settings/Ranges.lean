import PageFlattening.Settings.Thresholds

/-! The ranges of the parameters that models are built with. -/
namespace PageFlattening

/-- The parameters of model building: the stride of the sampled grid in pixels of the page that is
built from, how many times that page is reduced from the one that is rendered, and the fewest long
text lines that a model is built from. -/
structure BuildSettings where
  stride : Nat
  reduction : Nat
  minLines : Nat
  stride_ge : 8 ≤ stride
  reduction_eq : reduction = 1 ∨ reduction = 2
  minLines_ge : 4 ≤ minLines

namespace BuildSettings

variable {K : Type} [Scalar K]

def standard : BuildSettings := ⟨30, 1, 15, by decide, by decide, by decide⟩

instance : Inhabited BuildSettings := ⟨standard⟩

def checkStride (v : Value K) : Except Fault { n : Nat // 8 ≤ n } :=
  match v with
  | .int n =>
      if inRange : 8 ≤ n.toNat then .ok ⟨n.toNat, inRange⟩
      else .error (.setting (.stride v.literal))
  | _ => .error (.setting (.stride v.literal))

def checkReduction (v : Value K) : Except Fault { n : Nat // n = 1 ∨ n = 2 } :=
  match v with
  | .int n =>
      if inRange : n.toNat = 1 ∨ n.toNat = 2 then .ok ⟨n.toNat, inRange⟩
      else .error (.setting (.reduction v.literal))
  | _ => .error (.setting (.reduction v.literal))

def checkMinLines (v : Value K) : Except Fault { n : Nat // 4 ≤ n } :=
  match v with
  | .int n =>
      if inRange : 4 ≤ n.toNat then .ok ⟨n.toNat, inRange⟩
      else .error (.setting (.minLines v.literal))
  | _ => .error (.setting (.minLines v.literal))

def check (stride reduction minLines : Value K) : Except Fault BuildSettings := do
  let s ← checkStride stride
  let r ← checkReduction reduction
  let m ← checkMinLines minLines
  return ⟨s.val, r.val, m.val, s.property, r.property, m.property⟩

def withMinLines (b : BuildSettings) (v : Value K) : Except Fault BuildSettings := do
  let m ← checkMinLines v
  return { b with minLines := m.val, minLines_ge := m.property }

/-- The parameters by name; the names that are absent keep their standard. Other names are
refused. -/
def ofEntries (entries : List (String × Value K)) : Except Fault BuildSettings := do
  if entries.any fun e => !(["sampling", "redfactor", "minlines"].contains e.1) then
    .error (.misuse .wrongType)
  let value := fun name (n : Nat) => (Value.entry? entries name).getD (.int n)
  check (value "sampling" standard.stride) (value "redfactor" standard.reduction)
    (value "minlines" standard.minLines)

end BuildSettings

def checkNatural {K : Type} [Scalar K] (fault : String → SettingFault) (v : Value K) :
    Except Fault Nat :=
  match v with
  | .int n => if n < 0 then .error (.setting (fault v.literal)) else .ok n.toNat
  | _ => .error (.setting (fault v.literal))

def checkMaxDistance {K : Type} [Scalar K] (v : Value K) : Except Fault Nat :=
  checkNatural .maxDistance v

def checkCacheSize {K : Type} [Scalar K] (v : Value K) : Except Fault Nat :=
  checkNatural .cacheSize v

def checkPageCount {K : Type} [Scalar K] (v : Value K) : Except Fault Nat :=
  checkNatural .pageCount v

/-- How many samples at a stride cover a length: one before its end and one at or after it. -/
def sampleCount (length stride : Int) : Int := (length + 2 * stride - 2).fdiv stride

def checkedSampleCount (length stride : Int) : Except Fault Int :=
  if stride = 0 then .error (.misuse .divisionByZero) else .ok (sampleCount length stride)

end PageFlattening
