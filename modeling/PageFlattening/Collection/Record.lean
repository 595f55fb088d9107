import PageFlattening.Collection.Configuration
import PageFlattening.Collection.Report
import PageFlattening.Model.Record
import PageFlattening.Record

/-! Collections as stored records. Only built models are stored, those of the cache included; the
references of a collection that is read back have to be resolved again. -/
namespace PageFlattening

def PageModel.codec {K : Type} [Scalar K] : Codec K (PageModel K) where
  recordType := "page_model"
  encode m := .ok m.record
  decode := PageModel.ofRecord

namespace Collection

variable {K : Type} [Scalar K]

def storedModels (c : Collection K) : List (PageModel K) :=
  c.builtModels.mergeSort fun m other => decide (m.page ≤ other.page)

def recordEntries (c : Collection K) : List (String × Value K) :=
  [("sampling", .int c.settings.build.stride), ("redfactor", .int c.settings.build.reduction),
   ("minlines", .int c.settings.build.minLines), ("maxdist", .int c.settings.maxDistance),
   ("useboth", .bool c.settings.useBoth), ("check_columns", .bool c.settings.checkColumns),
   ("cache_size", c.cacheSize), ("npages", .int c.declaredPages),
   ("thresholds", .table c.settings.thresholds.entries),
   ("models", .list (c.storedModels.map PageModel.record))]

def record (c : Collection K) : Value K := .table c.recordEntries

def storedThresholds (v : Value K) : Except Fault Thresholds :=
  match v with
  | .table entries => Thresholds.ofEntries entries
  | _ => .error (.misuse .wrongType)

def ofStoredSettings (v : Value K) : Except Fault (Collection K) := do
  let stride ← v.field "sampling"
  let reduction ← v.field "redfactor"
  let minLines ← v.field "minlines"
  let maxDistance ← v.field "maxdist"
  let useBoth ← v.field "useboth"
  let checkColumns ← v.field "check_columns"
  let thresholds ← storedThresholds (← v.field "thresholds")
  let cacheSize ← v.field "cache_size"
  ofDraft
    { parameters :=
        [("sampling", stride), ("redfactor", reduction), ("minlines", minLines),
         ("maxdist", maxDistance), ("useboth", useBoth), ("check_columns", checkColumns),
         ("cache_size", cacheSize)]
      limits := .whole thresholds }

def insertStored (c : Collection K) : List (Value K) → Except Fault (Collection K)
  | [] => .ok c
  | v :: rest => do
      let next ← (c.insert (← PageModel.ofRecord v)).result
      next.insertStored rest

/-- The stored models; a record without any, or with something else in their place, is refused. -/
def storedList (v : Value K) : Except Fault (List (Value K)) :=
  match v with
  | .list models => .ok models
  | .text s => if s.isEmpty then .ok [] else .error (.misuse .wrongType)
  | .table entries => if entries.isEmpty then .ok [] else .error (.misuse .wrongType)
  | _ => .error (.misuse .wrongType)

/-- The larger of a stored page count and the one that the models need. -/
def storedPageCount (v : Value K) (needed : Nat) : Except Fault (Value K) := do
  let stored := match v with
    | .table entries => (Value.entry? entries "npages").getD (.int 0)
    | _ => .int 0
  return if ← stored.lessThan needed then .int needed else stored

def ofRecord (v : Value K) : Except Fault (Collection K) := do
  let start ← ofStoredSettings v
  let filled ← start.insertStored (← storedList (← v.field "models"))
  (filled.setPageCount (← storedPageCount v filled.pageCount)).result

def codec : Codec K (Collection K) where
  recordType := "model_collection"
  encode c := .ok c.record
  decode := ofRecord

end Collection

end PageFlattening
