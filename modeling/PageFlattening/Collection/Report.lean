import PageFlattening.Collection.Basic

/-! What a collection tells about itself. -/
namespace PageFlattening

structure ModelCounts where
  built : Nat
  verticalSucceeded : Nat
  verticalValid : Nat
  horizontalSucceeded : Nat
  horizontalValid : Nat
  redirects : Nat
  cached : Nat
deriving Repr, DecidableEq

namespace Collection

variable {K : Type} [Scalar K]

/-- The built models of storage, and after them those of the cache. -/
def builtModels (c : Collection K) : List (PageModel K) :=
  (c.models.filter fun m => !m.isRedirect) ++ c.cache

def counts (c : Collection K) : ModelCounts :=
  let built := c.builtModels
  { built := built.length
    verticalSucceeded := built.countP fun m => m.vertical.succeeded
    verticalValid := built.countP fun m => m.verticalValid
    horizontalSucceeded := built.countP fun m => m.horizontal.succeeded
    horizontalValid := built.countP fun m => m.horizontalValid
    redirects := c.models.countP fun m => m.isRedirect
    cached := c.cache.length }

def overviewLine (m : PageModel K) : String :=
  match m.redirect with
  | some target => s!"page {m.page}: reference to page {target}"
  | none =>
      s!"page {m.page}: nlines = {m.statistics.lineCount}, " ++
        s!"vertical = {m.vertical.status.name}, horizontal = {m.horizontal.status.name}"

def overview (c : Collection K) : String :=
  let s := c.settings
  let limits : Value K := .table s.thresholds.entries
  "\n".intercalate
    (["\nModel collection summary:",
      s!"sampling = {s.build.stride}, redfactor = {s.build.reduction}, " ++
        s!"minlines = {s.build.minLines}, maxdist = {s.maxDistance}",
      s!"useboth = {Text.truth s.useBoth}, check_columns = {Text.truth s.checkColumns}, " ++
        s!"models ready = {Text.truth c.ready}",
      s!"thresholds: {limits.literal}",
      s!"maxpage = {c.maxPage}, nalloc = {c.capacity}"] ++ c.models.map overviewLine)

def summary (c : Collection K) : String :=
  let s := c.settings
  s!"ModelCollection(sampling={s.build.stride}, redfactor={s.build.reduction}, " ++
    s!"maxdist={s.maxDistance}, pages={Text.intList c.heldPages})"

end Collection

end PageFlattening
