import PageFlattening.Settings.Ranges

/-! Configurations before they are checked: parameters by name, and overrides of single thresholds
or a whole set of them. -/
namespace PageFlattening

structure Settings where
  build : BuildSettings
  maxDistance : Nat
  useBoth : Bool
  checkColumns : Bool
  thresholds : Thresholds

inductive LimitSource (K : Type) where
  | standard
  | entries (named : List (String × Value K))
  | whole (t : Thresholds)

structure Draft (K : Type) where
  parameters : List (String × Value K)
  limits : LimitSource K

namespace Draft

variable {K : Type} [Scalar K]

def parameterNames : List String :=
  ["sampling", "redfactor", "minlines", "maxdist", "useboth", "check_columns", "cache_size"]

def standardCacheSize : Nat := 64

def standardMaxDistance : Nat := 16

def thresholds (d : Draft K) : Except Fault Thresholds :=
  match d.limits with
  | .standard => .ok .standard
  | .entries named => Thresholds.ofEntries named
  | .whole t => .ok t

def parameter (d : Draft K) (name : String) (standard : Value K) : Value K :=
  (Value.entry? d.parameters name).getD standard

/-- The settings and the cache size that a draft stands for. The thresholds are checked first, then
the names of the parameters, then their ranges. -/
def settings (d : Draft K) : Except Fault (Settings × Nat) := do
  let thresholds ← d.thresholds
  if d.parameters.any fun e => !parameterNames.contains e.1 then .error (.misuse .wrongType)
  let build ← BuildSettings.check
    (d.parameter "sampling" (.int BuildSettings.standard.stride))
    (d.parameter "redfactor" (.int BuildSettings.standard.reduction))
    (d.parameter "minlines" (.int BuildSettings.standard.minLines))
  let maxDistance ← checkMaxDistance (d.parameter "maxdist" (.int standardMaxDistance))
  let cacheSize ← checkCacheSize (d.parameter "cache_size" (.int standardCacheSize))
  let useBoth := (d.parameter "useboth" (.bool true)).truthy
  let checkColumns := (d.parameter "check_columns" (.bool false)).truthy
  return ({ build, maxDistance, useBoth, checkColumns, thresholds }, cacheSize)

def splitLimits (entries : List (String × Value K)) : Value K × List (String × Value K) :=
  ((Value.entry? entries "thresholds").getD .null, Value.dropEntry entries "thresholds")

/-- Replaces parameters, the last value of a name holding. -/
def setParameters (d : Draft K) (entries : List (String × Value K)) : Draft K :=
  { d with parameters := entries.foldl (fun acc e => Value.setEntry acc e.1 e.2) d.parameters }

def keyOf : Value K → Except Fault String
  | .text s => .ok s
  | .list _ => .error (.misuse .wrongType)
  | .table _ => .error (.misuse .wrongType)
  | v => .ok v.literal

def pairOf : Value K → Except Fault (String × Value K)
  | .list [name, v] => (keyOf name).map fun n => (n, v)
  | .list _ => .error (.misuse .shapesDiffer)
  | .text s =>
      match s.toList with
      | [a, b] => .ok (String.singleton a, .text (String.singleton b))
      | _ => .error (.misuse .shapesDiffer)
  | .table [first, second] => .ok (first.1, .text second.1)
  | .table _ => .error (.misuse .shapesDiffer)
  | _ => .error (.misuse .wrongType)

/-- Files pairs one after the other until an item is not one. -/
def filePairs (named : List (String × Value K)) :
    List (Value K) → List (String × Value K) × Option Fault
  | [] => (named, none)
  | item :: rest =>
      match pairOf item with
      | .ok (name, v) => filePairs (Value.setEntry named name v) rest
      | .error fault => (named, some fault)

/-- Merges overrides into named limits: a table entry by entry, a list pair by pair. -/
def mergeLimits (named : List (String × Value K)) :
    Value K → List (String × Value K) × Option Fault
  | .table entries => (entries.foldl (fun acc e => Value.setEntry acc e.1 e.2) named, none)
  | .list items => filePairs named items
  | .text s => filePairs named (s.toList.map fun c => .text (String.singleton c))
  | _ => (named, some (.misuse .wrongType))

def namedLimits (d : Draft K) : List (String × Value K) :=
  match d.limits with
  | .standard => []
  | .entries named => named
  | .whole t => t.entries

/-- Overrides single thresholds. What is not set overrides nothing; what cannot be read stops, after
the part before it has been taken over. -/
def overrideLimits (d : Draft K) (overrides : Value K) : Outcome (Draft K) :=
  if !overrides.truthy then .done d
  else
    let (named, fault) := mergeLimits d.namedLimits overrides
    ⟨{ d with limits := .entries named }, fault⟩

def override (d : Draft K) (entries : List (String × Value K)) : Outcome (Draft K) :=
  let (overrides, parameters) := splitLimits entries
  (d.setParameters parameters).overrideLimits overrides

def ofEntries (entries : List (String × Value K)) : Except Fault (Draft K) :=
  let (overrides, parameters) := splitLimits entries
  match overrides with
  | .null => .ok ⟨parameters, .standard⟩
  | .table named => .ok ⟨parameters, .entries named⟩
  | _ => .error (.misuse .wrongType)

end Draft

end PageFlattening
