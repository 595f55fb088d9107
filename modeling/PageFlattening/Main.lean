import PageFlattening.Command.Run
import PageFlattening.Image.Bitmap

/-! The program. It takes the names of the files in the input directory from standard input, one on
each line, reads those that are bitmaps, and writes flattened pages to the output directory. -/
namespace PageFlattening.Command

def usage : String :=
  "usage: [-h] " ++ " ".intercalate (Opt.all.drop 1 |>.map fun o =>
    if o.takesValue then "[" ++ o.name ++ " VALUE]" else "[" ++ o.name ++ "]")

def readEntry (directory name : String) : IO FileEntry := do
  let .ok bytes ← (IO.FS.readBinFile (directory ++ "/" ++ name)).toBaseIO
    | return ⟨name, .unreadable⟩
  return ⟨name, (Bitmap.decode? bytes).elim .unreadable .picture⟩

partial def readNames (input : IO.FS.Stream) : IO (List String) := do
  let line ← input.getLine
  if line.isEmpty then return []
  let name := String.ofList (line.toList.filter fun c => c != '\n' && c != '\r')
  let rest ← readNames input
  return if name.isEmpty then rest else name :: rest

/-- Writes a page; only bitmaps can be written. -/
def writeFile (directory : String) (f : OutputFile) : IO Unit := do
  let path := directory ++ "/" ++ f.name
  if ["bmp", "dib"].contains (Text.formatWord f.name).toLower then
    IO.FS.writeBinFile path (Bitmap.encode f.page).toByteArray
  else IO.eprintln ("Could not write " ++ path)

end PageFlattening.Command

open PageFlattening

def main (arguments : List String) : IO UInt32 := do
  let parsed := Command.parse arguments
  let files ← match parsed with
    | .ok o => (← Command.readNames (← IO.getStdin)).mapM (Command.readEntry o.inputDir)
    | .error .help => do
        IO.println Command.usage
        pure []
    | .error .usage => do
        IO.eprintln Command.usage
        pure []
  let report := Command.run Float arguments fun _ => files
  if let some (directory, pages) := report.written then
    IO.FS.createDirAll directory
    for page in pages do
      Command.writeFile directory page
  return (report.exit.getD 0).toUInt32
