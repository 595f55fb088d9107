import PageFlattening.Build.Page
import PageFlattening.Collection.Basic
import PageFlattening.Image.Binarize
import PageFlattening.Image.Resampling
import PageFlattening.Layout.Columns

/-! Rendering a page with the models of a collection whose references are resolved. What is applied
is decided page by page from the settings as they are at that time. -/
namespace PageFlattening

abbrev ColumnCounter := Grid Bool → Except Fault Int

def standardCounter (K : Type) [Scalar K] : ColumnCounter := fun ink => do
  return ← (ColumnSettings.standard : ColumnSettings K).count ink

/-- What is applied to a page: a model, which of its fields, and the number of columns if they were
counted. -/
structure RenderPlan (K : Type) where
  page : Int
  model : Option (PageModel K)
  vertical : Bool
  horizontal : Bool
  columnCount : Option Int

namespace RenderPlan

variable {K : Type} [Scalar K]

def none (page : Int) : RenderPlan K := ⟨page, Option.none, false, false, Option.none⟩

def borrowedFrom (plan : RenderPlan K) : Option Nat :=
  plan.model.bind fun m => if (m.page : Int) = plan.page then Option.none else some m.page

/-- The page that columns are counted on: an image of one bit per pixel as it is, any other made
so. -/
def inkOf (K : Type) [Scalar K] (image : Source) : Except Fault (Grid Bool) :=
  match image with
  | .page (.bit ink) => .ok ink
  | other => other.binarize K 0

def countColumns (K : Type) [Scalar K] (checkColumns : Bool) (counter : ColumnCounter)
    (image : Source) : Except Fault (Option Int) := do
  if !checkColumns then return Option.none
  return some (← counter (← inkOf K image))

/-- Decides what is applied to a page: the vertical field of the model for it, and the horizontal
field if both are wanted, that field is valid, and the page does not have several columns. -/
def make (c : Collection K) (counter : ColumnCounter) (image : Source) (page : Int) :
    Except Fault (RenderPlan K) := do
  if !c.ready then .error .notReady
  match c.effective page with
  | Option.none => return none page
  | some m =>
      let columnCount ← countColumns K c.settings.checkColumns counter image
      let several := match columnCount with
        | some n => decide (1 < n)
        | Option.none => false
      let horizontal := c.settings.useBoth && m.horizontalValid && !several
      return ⟨page, some m, true, horizontal, columnCount⟩

def fullFields (plan : RenderPlan K) (width height : Int) :
    Except Fault (Grid K × Option (Grid K)) := do
  let some m := plan.model | .error (.misuse .absent)
  let factor := m.stride * m.reduction
  let multiplier := Scalar.ofInt m.reduction
  let some vertical := m.vertical.field? | .error (.misuse .absent)
  let v ← vertical.expand factor (some width) (some height) multiplier Option.none
  if !plan.horizontal then return (v, Option.none)
  let some horizontal := m.horizontal.field? | .error (.misuse .absent)
  let h ← horizontal.expand factor (some width) (some height) multiplier m.slope.field?
  return (v, some h)

def apply (plan : RenderPlan K) (p : Page) : Except Fault Page := do
  if plan.model.isNone then return p
  let (vertical, horizontal) ← plan.fullFields p.width p.height
  p.displace (.ofGrid vertical) (horizontal.map Shaped.ofGrid)

end RenderPlan

namespace Collection

variable {K : Type} [Scalar K]

def render (c : Collection K) (counter : ColumnCounter) (image : Source) (page : Int) :
    Except Fault Page := do
  let p ← image.load
  p.check
  (← RenderPlan.make c counter (.page p) page).apply p

def build (c : Collection K) (image : Source) (page : Value K) :
    Except Fault (PageModel K) × Collection K :=
  match BuildReport.build c.settings.build TextLine.detectLong image page .null with
  | .error fault => (.error fault, c)
  | .ok report =>
      let inserted := c.insert report.model
      match inserted.fault with
      | some fault => (.error fault, inserted.state)
      | Option.none =>
          (.ok ((inserted.state.slot? report.model.page).getD report.model), inserted.state)

end Collection

end PageFlattening
