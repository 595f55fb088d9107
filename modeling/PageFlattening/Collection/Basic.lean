import PageFlattening.Model.Validity
import PageFlattening.Settings.Draft

/-! The models of a document, indexed by page, under shared settings.

Storage is an array of slots that doubles when a page lies beyond it. Models that fail their check
are set aside in a bounded cache, least recently used first. What leaves the collection is kept in
a log, so that whoever still holds a model can see what became of it. -/
namespace PageFlattening

/-- A collection of page models. `maxPage` is the highest page in storage, minus one when there is
none; `declaredPages` is the number of pages as far as it has been announced; `builtPages` and
`heldPages` list the pages with a built model and with any model. -/
structure Collection (K : Type) where
  settings : Settings
  cacheSize : Value K
  slots : Array (Option (PageModel K))
  cache : List (PageModel K)
  maxPage : Int
  declaredPages : Nat
  builtPages : List Nat
  heldPages : List Nat
  ready : Bool
  departed : List (PageModel K)

namespace Collection

variable {K : Type} [Scalar K]

def initialCapacity : Nat := 16

def empty (settings : Settings) (cacheSize : Nat) : Collection K where
  settings
  cacheSize := .int cacheSize
  slots := Array.replicate initialCapacity none
  cache := []
  maxPage := -1
  declaredPages := 0
  builtPages := []
  heldPages := []
  ready := false
  departed := []

def ofDraft (d : Draft K) : Except Fault (Collection K) := do
  let (settings, cacheSize) ← d.settings
  return empty settings cacheSize

def capacity (c : Collection K) : Nat := c.slots.size

/-- The number of pages of the document: as announced, or as storage needs. -/
def pageCount (c : Collection K) : Nat := max c.declaredPages (c.maxPage + 1).toNat

def slot? (c : Collection K) (page : Nat) : Option (PageModel K) := c.slots.getD page none

def setSlot (c : Collection K) (page : Nat) (m : Option (PageModel K)) : Collection K :=
  { c with slots := c.slots.setIfInBounds page m }

def capacityFor (capacity page : Nat) : Nat :=
  if page < capacity ∨ capacity = 0 then capacity else capacityFor (2 * capacity) page
termination_by page + 1 - capacity
decreasing_by omega

def reserve (c : Collection K) (page : Nat) : Collection K :=
  { c with
    slots := c.slots ++ Array.replicate (capacityFor c.capacity page - c.capacity) none }

def highest (slots : Array (Option (PageModel K))) : Nat → Int
  | 0 => -1
  | n + 1 => if (slots.getD n none).isSome then n else highest slots n

def refreshMaxPage (c : Collection K) : Collection K :=
  { c with maxPage := highest c.slots c.slots.size }

def span (c : Collection K) : List Nat := List.range (c.maxPage + 1).toNat

def holdsBuilt (c : Collection K) (page : Nat) : Bool :=
  match c.slot? page with
  | some m => !m.isRedirect
  | none => false

def refreshLists (c : Collection K) : Collection K :=
  { c with
    heldPages := c.span.filter fun p => (c.slot? p).isSome
    builtPages := c.span.filter c.holdsBuilt }

def release (c : Collection K) (m : PageModel K) : Collection K :=
  { c with departed := { m with attached := false } :: c.departed }

def model? (c : Collection K) (page : Int) : Option (PageModel K) :=
  if page < 0 ∨ c.maxPage < page then none else c.slot? page.toNat

def models (c : Collection K) : List (PageModel K) := c.span.filterMap c.slot?

def cached? (c : Collection K) (page : Int) : Option (PageModel K) :=
  c.cache.find? fun m => (m.page : Int) == page

def uncached (c : Collection K) (page : Int) : List (PageModel K) :=
  c.cache.filter fun m => !((m.page : Int) == page)

def cachedPages (c : Collection K) : List Nat := c.cache.map (·.page)

/-- Whether two models are one and the same for whoever holds them. -/
def sameModel (m other : PageModel K) : Bool := m.tag.isSome && m.tag == other.tag

/-- Takes whatever is held for the page of a model out of storage and cache. What was in storage no
longer belongs to the collection; what was in the cache leaves as it is. -/
def vacate (c : Collection K) (m : PageModel K) : Collection K :=
  let stored := match c.slot? m.page with
    | some old => if sameModel old m then c else c.release old
    | none => c
  let dropped := match c.cached? m.page with
    | some old => if sameModel old m then [] else [old]
    | none => []
  { stored with cache := c.uncached m.page, departed := dropped ++ stored.departed }

/-- Inserts a model in the place of whatever is held for its page. It must have the stride and the
reduction of the collection. Once references are resolved it is checked at once, so that pages
redirected to it see the outcome. -/
def insert (c : Collection K) (m : PageModel K) : Outcome (Collection K) :=
  let build := c.settings.build
  if m.stride ≠ build.stride ∨ m.reduction ≠ build.reduction then
    .stopped c (.setting (.foreignModel m.page m.stride m.reduction build.stride build.reduction))
  else
    let inserted := { m with attached := true }
    let room := (c.reserve m.page).vacate m
    let stored : Collection K :=
      { room.setSlot m.page (some inserted) with
        maxPage := max room.maxPage m.page
        declaredPages := max room.declaredPages (m.page + 1) }
    let checked :=
      if c.ready && !m.isRedirect then inserted.validate c.settings.thresholds false
      else .done inserted
    match checked.fault with
    | some fault => .stopped stored fault
    | none => .done (stored.setSlot m.page (some checked.state)).refreshLists

def remove (c : Collection K) (page : Int) : Option (PageModel K) × Collection K :=
  match c.model? page with
  | some m =>
      (some { m with attached := false },
        (((c.setSlot page.toNat none).release m).refreshMaxPage).refreshLists)
  | none =>
      match c.cached? page with
      | some m =>
          (some { m with attached := false },
            (({ c with cache := c.uncached page }.release m).refreshMaxPage).refreshLists)
      | none => (none, c.refreshMaxPage.refreshLists)

/-- The model of a page in the cache, which thereby becomes the most recently used. -/
def consult (c : Collection K) (page : Int) : Option (PageModel K) × Collection K :=
  match c.cached? page with
  | some m => (some m, { c with cache := c.uncached page ++ [m] })
  | none => (none, c)

def redirectOf (c : Collection K) (page : Int) : Option Nat :=
  (c.model? page).bind (·.redirect)

/-- The model that a page is rendered with: its own if its vertical field is valid, otherwise that
of the page it is redirected to if that one is valid. -/
def effective (c : Collection K) (page : Int) : Option (PageModel K) :=
  match c.model? page with
  | none => none
  | some m =>
      match m.redirect with
      | some target =>
          match c.model? target with
          | some donor => if donor.isRedirect || !donor.verticalValid then none else some donor
          | none => none
      | none => if m.verticalValid then some m else none

/-- What has become of a model that was handed in under a tag. -/
def trace (c : Collection K) (tag : Nat) : Option (PageModel K) :=
  let here := fun m : PageModel K => m.tag == some tag
  match c.slots.toList.findSome? fun s => s.filter here with
  | some m => some m
  | none => (c.cache ++ c.departed).find? here

end Collection

end PageFlattening
