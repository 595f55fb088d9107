import PageFlattening.Settings.Draft

/-! Named configurations, and assembling one step by step. -/
namespace PageFlattening

/-- A named configuration; limits that it does not set keep their standard. -/
structure Preset where
  name : String
  stride : Nat
  reduction : Nat
  minLines : Nat
  maxDistance : Nat
  limits : List (Limit × Nat)

namespace Preset

variable {K : Type} [Scalar K]

def all : List Preset :=
  [{ name := "default", stride := 30, reduction := 1, minLines := 15, maxDistance := 16,
     limits := [] },
   { name := "reduced", stride := 15, reduction := 2, minLines := 15, maxDistance := 16,
     limits := [] },
   { name := "strict", stride := 30, reduction := 1, minLines := 20, maxDistance := 8,
     limits := [(.lineCurvature, 100), (.lineSpread, 120), (.edgeSlope, 50), (.edgeCurvature, 30),
       (.edgeSpread, 25)] },
   { name := "lenient", stride := 30, reduction := 1, minLines := 8, maxDistance := 24,
     limits := [(.lineCurvature, 250), (.lineSpread, 300), (.edgeSlope, 120),
       (.edgeCurvature, 80), (.edgeSpread, 60)] }]

def names : List String := all.map (·.name)

def find (name : String) : Except Fault Preset :=
  match all.find? fun p => p.name == name with
  | some p => .ok p
  | none => .error (.argument (.unknownPreset name))

def parameters (p : Preset) : List (String × Value K) :=
  [("sampling", .int p.stride), ("redfactor", .int p.reduction), ("minlines", .int p.minLines),
   ("maxdist", .int p.maxDistance)]

def limitEntries (p : Preset) : List (String × Value K) :=
  p.limits.map fun e => (e.1.name, .int e.2)

def draft (p : Preset) : Draft K where
  parameters := p.parameters
  limits := if p.limits.isEmpty then .standard else .entries p.limitEntries

def listing (p : Preset) : Value K :=
  .table (p.parameters ++
    if p.limits.isEmpty then [] else [("thresholds", .table p.limitEntries)])

/-- The draft of a preset with overrides. A whole set of thresholds takes the place of those of the
preset. -/
def configured (name : String) (entries : List (String × Value K))
    (whole : Option Thresholds) : Except Fault (Draft K) := do
  if entries.any fun e => e.1 == "preset" then .error (.misuse .wrongType)
  let p ← find name
  match whole with
  | some t =>
      let (_, parameters) := Draft.splitLimits entries
      return { (p.draft.setParameters parameters : Draft K) with limits := .whole t }
  | none => (p.draft.override entries).result

end Preset

/-- A configuration being assembled: nothing until a preset has been selected. -/
abbrev Assembly (K : Type) := Option (Draft K)

namespace Assembly

variable {K : Type} [Scalar K]

def select (a : Assembly K) (name : String) : Outcome (Assembly K) :=
  match Preset.find name with
  | .ok p => .done (some p.draft)
  | .error fault => .stopped a fault

def set (a : Assembly K) (entries : List (String × Value K)) : Outcome (Assembly K) :=
  if entries.any fun e => e.1 == "self" then .stopped a (.misuse .wrongType)
  else
    match a with
    | none => .stopped a (.argument .noPreset)
    | some d =>
        let o := d.override entries
        ⟨some o.state, o.fault⟩

def draft (a : Assembly K) : Except Fault (Draft K) :=
  match a with
  | some d => .ok d
  | none => .error (.argument .noPreset)

end Assembly

end PageFlattening
