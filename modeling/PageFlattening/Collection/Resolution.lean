import PageFlattening.Collection.Basic

/-! Resolving references: built models are checked, those that fail are set aside, and every page
without a valid model is redirected to the nearest page of its parity that has one. -/
namespace PageFlattening

namespace Collection

variable {K : Type} [Scalar K]

def trim (bound : Value K) (c : Collection K) : List (PageModel K) → Outcome (Collection K)
  | [] =>
      match bound.lessThan 0 with
      | .error fault => .stopped { c with cache := [] } fault
      | .ok true => .stopped { c with cache := [] } (.misuse .emptyCache)
      | .ok false => .done { c with cache := [] }
  | m :: rest =>
      match bound.lessThan (rest.length + 1) with
      | .error fault => .stopped { c with cache := m :: rest } fault
      | .ok true => trim bound (c.release m) rest
      | .ok false => .done { c with cache := m :: rest }

/-- Sets a model aside as the most recently used; a cache of size zero takes none. -/
def setAside (c : Collection K) (m : PageModel K) : Outcome (Collection K) :=
  if c.cacheSize.equalsInt 0 then .done (c.release m)
  else trim c.cacheSize c (c.uncached m.page ++ [m])

def dropRedirect (c : Collection K) (page : Nat) : Collection K :=
  match c.slot? page with
  | some m => if m.isRedirect then (c.setSlot page none).release m else c
  | none => c

def dropRedirects (c : Collection K) : Collection K :=
  (c.span.foldl dropRedirect c).refreshMaxPage

/-- Brings one model back from the cache; if its slot is taken it leaves. -/
def restoreOne (c : Collection K) (m : PageModel K) : Collection K :=
  let room := c.reserve m.page
  match room.slot? m.page with
  | none => room.setSlot m.page (some { m with attached := true })
  | some _ => room.release m

def restoreCached (c : Collection K) : Collection K :=
  { c.cache.foldl restoreOne c with cache := [] }

def strip (c : Collection K) : Collection K :=
  { c.dropRedirects with ready := false }.refreshLists

def restore (c : Collection K) : Collection K :=
  { c.dropRedirects.restoreCached.refreshMaxPage.refreshLists with ready := false }

/-- Checks the model of a page and sets it aside if its vertical field is not valid. -/
def checkPage (untested : Bool) (c : Collection K) (page : Nat) : Outcome (Collection K) :=
  match c.slot? page with
  | none => .done c
  | some m =>
      let checked := m.validate c.settings.thresholds untested
      match checked.fault with
      | some fault => .stopped c fault
      | none =>
          if checked.state.verticalValid then .done (c.setSlot page (some checked.state))
          else (c.setSlot page none).setAside checked.state

def pageDistance (p q : Nat) : Nat := max p q - min p q

/-- The nearest of some candidates within a distance; of two equally near ones the first. -/
def nearest? (maxDistance page : Nat) (candidates : List Nat) : Option Nat :=
  (candidates.foldl (fun (best : Option Nat × Nat) q =>
    if pageDistance page q < best.2 then (some q, pageDistance page q) else best)
    (none, maxDistance + 1)).1

def redirectPage (candidates : List Nat) (c : Collection K) (page : Nat) : Collection K :=
  match c.slot? page with
  | some _ => c
  | none =>
      let sameParity := candidates.filter fun q => q % 2 == page % 2
      match nearest? c.settings.maxDistance page sameParity with
      | none => c
      | some target =>
          let build := c.settings.build
          c.setSlot page
            (some { PageModel.reference page target build.stride build.reduction with
              attached := true })

def redirectPages (c : Collection K) (bound : Nat) : Collection K :=
  let candidates := (List.range bound).filter fun p => (c.slot? p).isSome
  (List.range bound).foldl (redirectPage candidates) c

/-- Announces the number of pages; the announced number never shrinks by it. -/
def announce (c : Collection K) (pages : Value K) : Outcome (Collection K) :=
  match pages with
  | .null => .done c
  | v =>
      match checkPageCount v with
      | .ok n => .done { c with declaredPages := max n c.declaredPages }
      | .error fault => .stopped c fault

/-- The state before the check: redirects gone, cached models back, and room for every page. -/
def reopened (c : Collection K) : Collection K :=
  let back := c.dropRedirects.restoreCached
  back.reserve (back.pageCount - 1)

def settled (c : Collection K) (bound : Nat) : Collection K :=
  { (c.redirectPages bound).refreshMaxPage.refreshLists with ready := true }

/-- Checks all models and redirects the pages without a valid one. Models that were set aside before
are checked again. The number of pages may be announced at the same time. -/
def resolve (c : Collection K) (untested : Bool) (pages : Value K) : Outcome (Collection K) :=
  (c.announce pages).andThen fun announced =>
    let opened := announced.reopened
    let bound := opened.pageCount
    (Outcome.each (checkPage untested) opened (List.range bound)).andThen fun checked =>
      .done (checked.settled bound)

def revalidatePage (untested : Bool) (c : Collection K) (page : Nat) : Outcome (Collection K) :=
  match c.slot? page with
  | none => .done c
  | some m =>
      if m.isRedirect then .done c
      else
        let checked := m.validate c.settings.thresholds untested
        match checked.fault with
        | some fault => .stopped c fault
        | none => .done (c.setSlot page (some checked.state))

def revalidate (c : Collection K) (untested : Bool) : Outcome (Collection K) :=
  Outcome.each (revalidatePage untested) c c.span

end Collection

end PageFlattening
