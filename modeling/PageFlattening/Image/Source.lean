import PageFlattening.Image.Picture

/-! What a caller may hand over as an image, and the page that is read from it. -/
namespace PageFlattening

/-- An image as handed over: nothing at all, a page, an array that is not laid out as a page, a
picture, the path of a file that does not exist or cannot be read, or some other value. -/
inductive Source where
  | missing
  | page (p : Page)
  | array (pixelType : String) (dims : List Nat)
  | picture (p : Picture)
  | noFile
  | unreadable
  | other (typeName : String)

namespace Source

def checkLayout : Source → Except Fault Page
  | .page p => do
      p.check
      return p
  | .array pixelType dims =>
      if dims.any (· == 0) then .error (.image .empty)
      else .error (.image (.unsupportedLayout pixelType (Text.shape dims)))
  | _ => .error (.misuse .absent)

def load : Source → Except Fault Page
  | .missing => .error (.image .missing)
  | .picture p => p.toPage
  | .noFile => .error (.misuse .fileNotFound)
  | .unreadable => .error (.misuse .fileSystem)
  | .other typeName => .error (.image (.unsupportedType typeName))
  | source => source.checkLayout

def isBit : Source → Bool
  | .page p => p.isBit
  | _ => false

def loadBit (source : Source) : Except Fault (Grid Bool) := do
  match ← source.load with
  | .bit g => return g
  | p => .error (.image (.notBinary p.pixelType (Text.shape p.dims)))

end Source

end PageFlattening
