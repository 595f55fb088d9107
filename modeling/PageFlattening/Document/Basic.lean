import PageFlattening.Collection.Resolution
import PageFlattening.Render
import PageFlattening.Settings.Preset

/-! A document: models are built for its pages, references are resolved, and pages are rendered. -/
namespace PageFlattening

/-- A document in work. Its pages are built with the settings that it was opened with, whatever
becomes of those of its collection. -/
structure Document (K : Type) where
  collection : Collection K
  build : BuildSettings
  workers : Option Int
  counter : ColumnCounter

namespace Document

variable {K : Type} [Scalar K]

def create (preset : String) (entries : List (String × Value K)) (workers : Option Int)
    (counter : ColumnCounter) : Except Fault (Document K) := do
  let draft ← Preset.configured preset entries none
  let collection ← Collection.ofDraft draft
  return { collection, build := collection.settings.build, workers, counter }

def prepare (d : Document K) (image : Source) : Except Fault (Grid Bool) := do
  let ink ← image.binarize K 0
  if d.collection.settings.build.reduction = 2 then
    (Source.page (.bit ink)).reduce (.int 1 : Value K)
  else return ink

def addPage (d : Document K) (image : Source) (page : Value K) :
    Except Fault (PageModel K) × Document K :=
  let built := do
    let ink ← d.prepare image
    BuildReport.build d.build TextLine.detectLong (.page (.bit ink)) page .null
  match built with
  | .error fault => (.error fault, d)
  | .ok report =>
      let inserted := d.collection.insert report.model
      let next := { d with collection := inserted.state }
      match inserted.fault with
      | some fault => (.error fault, next)
      | none => (.ok ((inserted.state.slot? report.model.page).getD report.model), next)

/-- Builds pages one after the other; what fails does not stop the others. -/
def addEach (d : Document K) :
    List (Int × Source) → List (Except Fault (PageModel K)) × Document K
  | [] => ([], d)
  | (page, image) :: rest =>
      let (result, next) := d.addPage image (.int page)
      let (results, last) := next.addEach rest
      (result :: results, last)

def numbered (images : List Source) : List (Int × Source) :=
  images.zipIdx.map fun (image, i) => ((i : Int), image)

/-- Images given with their page numbers, in page order. Of two images for one page the later
counts. -/
def inPageOrder (images : List (Int × Source)) : List (Int × Source) :=
  let latest := images.foldl (fun kept e => kept.filter (fun k => !(k.1 == e.1)) ++ [e]) []
  latest.mergeSort fun a b => decide (a.1 ≤ b.1)

def announce (d : Document K) (pages : List (Int × Source)) : Document K :=
  match pages.getLast? with
  | none => d
  | some (last, _) =>
      { d with collection := { d.collection with
          declaredPages := max d.collection.pageCount (last + 1).toNat } }

/-- Builds the models of many pages, given in page order. There must be workers to do it. All pages
are tried; then the first fault stops, unless faults are skipped. -/
def addPages (d : Document K) (pages : List (Int × Source)) (skipFaults : Bool) :
    Except Fault (List (Option (PageModel K))) × Document K :=
  let announced := d.announce pages
  if d.workers.any (· ≤ 0) then (.error (.misuse .noWorkers), announced)
  else
    let (results, last) := announced.addEach pages
    if skipFaults then (.ok (results.map Except.toOption), last)
    else (results.mapM fun r => r.map some, last)

def resolve (d : Document K) (untested : Bool) : Outcome (Document K) :=
  let o := d.collection.resolve untested .null
  ⟨{ d with collection := o.state }, o.fault⟩

def render (d : Document K) (image : Source) (page : Int) : Except Fault Page :=
  d.collection.render d.counter image page

def process (d : Document K) (images : List Source) :
    Except Fault (List Page) × Document K :=
  let (built, next) := d.addPages (numbered images) false
  match built with
  | .error fault => (.error fault, next)
  | .ok _ =>
      let resolved := next.resolve false
      match resolved.fault with
      | some fault => (.error fault, resolved.state)
      | none =>
          ((numbered images).mapM fun (page, image) => resolved.state.render image page,
            resolved.state)

end Document

def flattenPage {K : Type} [Scalar K] (image : Source) (page : Value K) (preset : String)
    (entries : List (String × Value K)) : Except Fault Page := do
  let d ← Document.create preset entries none (standardCounter K)
  let p ← image.load
  let (built, next) := d.addPage (.page p) page
  let m ← built
  let resolved ← (next.resolve false).result
  resolved.render (.page p) m.page

end PageFlattening
