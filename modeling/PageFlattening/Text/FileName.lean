/-! Names of files and paths. -/
namespace PageFlattening.Text

/-- The part of a name from its last dot on, unless the name begins or ends with that dot. -/
def suffix (name : String) : String :=
  let tail := name.toList.reverse.takeWhile (· != '.')
  let count := tail.length
  if name.length ≤ count + 1 ∨ count = 0 then ""
  else String.ofList ('.' :: tail.reverse)

def stem (name : String) : String :=
  String.ofList (name.toList.take (name.length - (suffix name).length))

/-- The letters and digits that follow the last dot of a name, up to the first other character. -/
def formatWord (name : String) : String :=
  if name.contains '.' then
    let tail := (name.toList.reverse.takeWhile (· != '.')).reverse
    String.ofList (tail.takeWhile Char.isAlphanum)
  else ""

def pathParts (path : String) : List String :=
  (path.splitOn "/").filter fun part => !part.isEmpty && part != "."

/-- The slashes that an absolute path starts with: two stay two, any other number becomes one. -/
def pathRoot (path : String) : String :=
  match path.toList with
  | '/' :: '/' :: '/' :: _ => "/"
  | '/' :: '/' :: _ => "//"
  | '/' :: _ => "/"
  | _ => ""

def normalPath (path : String) : String :=
  let whole := pathRoot path ++ "/".intercalate (pathParts path)
  if whole.isEmpty then "." else whole

end PageFlattening.Text
