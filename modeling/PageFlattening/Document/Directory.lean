import PageFlattening.Document.Basic
import PageFlattening.Text.FileName

/-! Flattening all images of a directory as one document. Files are taken in the order of their
names, and the place in that order is the page number, also of files that cannot be read. -/
namespace PageFlattening

structure FileEntry where
  name : String
  content : Source

structure OutputFile where
  name : String
  page : Page

namespace Document

variable {K : Type} [Scalar K]

def imageExtensions : List String := [".jpg", ".jpeg", ".png", ".bmp", ".tif", ".tiff"]

def hasExtension (extensions : List String) (name : String) : Bool :=
  extensions.any fun e => name.endsWith e || name.endsWith e.toUpper

def imageFiles (extensions : List String) (files : List FileEntry) : List FileEntry :=
  (files.filter fun f => hasExtension extensions f.name).mergeSort fun a b =>
    decide (a.name ≤ b.name)

def formats : List String := ["bmp", "dib", "jpeg", "jpg", "jpe", "png", "tiff", "tif"]

def outputName (name : String) : String := Text.stem name ++ "_dewarp" ++ Text.suffix name

/-- A page written under a name, if what follows the last dot of the name starts with the word for a
format; files hold no bits, so that ink is written as black on white. -/
def write (name : String) (p : Page) : Except Fault OutputFile :=
  if formats.contains (Text.formatWord name).toLower then .ok ⟨name, p.stored⟩
  else .error (.misuse .fileSystem)

def processFile (d : Document K) (image : Source) (page : Int) (name : String) :
    Except Fault (Page × OutputFile) := do
  let p ← d.render image page
  return (p, ← write name p)

end Document

structure Batch (K : Type) where
  document : Document K
  written : List OutputFile

namespace Batch

variable {K : Type} [Scalar K]

def build (b : Batch K) (images : List FileEntry) : Outcome (Batch K) :=
  let (built, next) := b.document.addPages (Document.numbered (images.map (·.content))) true
  match built with
  | .error fault => .stopped { b with document := next } fault
  | .ok _ => .done { b with document := next }

def resolve (b : Batch K) : Outcome (Batch K) :=
  (b.document.resolve false).map fun next => { b with document := next }

def writeFile (b : Batch K) (f : FileEntry) (page : Nat) : Batch K :=
  match b.document.processFile f.content page (Document.outputName f.name) with
  | .ok (_, out) => { b with written := b.written ++ [out] }
  | .error _ => b

def writeFiles (b : Batch K) (images : List FileEntry) : Batch K :=
  images.zipIdx.foldl (fun batch (f, i) => batch.writeFile f i) b

end Batch

namespace Document

variable {K : Type} [Scalar K]

/-- Flattens a directory. A fault stops it with what has been written until then; files that cannot
be read or rendered are passed over. -/
def flattenFiles (d : Document K) (extensions : List String) (files : List FileEntry) :
    Outcome (Batch K) :=
  let images := imageFiles extensions files
  let start : Batch K := ⟨d, []⟩
  if images.isEmpty then .done start
  else
    ((start.build images).andThen fun b => b.resolve).andThen fun b => .done (b.writeFiles images)

def processDirectory (d : Document K) (extensions : List String) (files : List FileEntry) :
    Except Fault (List OutputFile) × Document K :=
  let o := d.flattenFiles extensions files
  (o.result.map fun b => b.written, o.state.document)

end Document

end PageFlattening
