import PageFlattening.Collection.Basic

/-! Reading and changing the settings of a collection by name. Stride, reduction and the greatest
distance are fixed for its lifetime. -/
namespace PageFlattening

namespace Collection

variable {K : Type} [Scalar K]

def setMinLines (c : Collection K) (v : Value K) : Outcome (Collection K) :=
  match c.settings.build.withMinLines v with
  | .ok build => .done { c with settings := { c.settings with build } }
  | .error fault => .stopped c fault

def setPageCount (c : Collection K) (v : Value K) : Outcome (Collection K) :=
  match checkPageCount v with
  | .ok n => .done { c with declaredPages := n }
  | .error fault => .stopped c fault

def setThresholds (c : Collection K) (entries : List (String × Value K)) :
    Outcome (Collection K) :=
  match c.settings.thresholds.revise entries with
  | .ok thresholds => .done { c with settings := { c.settings with thresholds } }
  | .error fault => .stopped c fault

def readOnlyNames : List String :=
  ["sampling", "redfactor", "maxdist", "nalloc", "maxpage", "models_ready", "thresholds",
   "cached_pages"]

/-- Assigns a setting by name. The cache size is taken as it is. A name that stands for no setting
changes nothing. -/
def assign (c : Collection K) (name : String) (v : Value K) : Outcome (Collection K) :=
  if (Limit.ofName? name).isSome then c.setThresholds [(name, v)]
  else if readOnlyNames.contains name then .stopped c (.misuse (.readOnly name))
  else
    match name with
    | "minlines" => c.setMinLines v
    | "npages" => c.setPageCount v
    | "useboth" => .done { c with settings := { c.settings with useBoth := v.truthy } }
    | "check_columns" => .done { c with settings := { c.settings with checkColumns := v.truthy } }
    | "cache_size" => .done { c with cacheSize := v }
    | _ => .done c

def pageList (pages : List Nat) : Value K := .list (pages.map fun p : Nat => .int p)

def read (c : Collection K) (name : String) : Except Fault (Value K) :=
  match Limit.ofName? name with
  | some l => .ok (.int (c.settings.thresholds.limit l))
  | none =>
      match name with
      | "sampling" => .ok (.int c.settings.build.stride)
      | "redfactor" => .ok (.int c.settings.build.reduction)
      | "minlines" => .ok (.int c.settings.build.minLines)
      | "maxdist" => .ok (.int c.settings.maxDistance)
      | "useboth" => .ok (.bool c.settings.useBoth)
      | "check_columns" => .ok (.bool c.settings.checkColumns)
      | "thresholds" => .ok (.table c.settings.thresholds.entries)
      | "cache_size" => .ok c.cacheSize
      | "npages" => .ok (.int c.pageCount)
      | "nalloc" => .ok (.int c.capacity)
      | "maxpage" => .ok (.int c.maxPage)
      | "models_ready" => .ok (.bool c.ready)
      | "namodels" => .ok (pageList c.builtPages)
      | "napages" => .ok (pageList c.heldPages)
      | "cached_pages" => .ok (pageList c.cachedPages)
      | _ => .error (.misuse .absent)

end Collection

end PageFlattening
