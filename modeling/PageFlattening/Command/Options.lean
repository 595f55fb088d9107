import PageFlattening.Settings.Preset
import PageFlattening.Text.FileName

/-! The command line. Long options may be cut short as long as they stay unambiguous, a value may
follow after an equals sign, and a later value replaces an earlier one. -/
namespace PageFlattening.Command

inductive Refusal where
  | help
  | usage
deriving Repr, DecidableEq

inductive Opt where
  | help
  | inputDir
  | outputDir
  | preset
  | stride
  | reduction
  | minLines
  | maxDistance
  | verticalOnly
  | checkColumns
  | workers
  | device
deriving Repr, DecidableEq

namespace Opt

def all : List Opt :=
  [help, inputDir, outputDir, preset, stride, reduction, minLines, maxDistance, verticalOnly,
   checkColumns, workers, device]

def name : Opt → String
  | help => "--help"
  | inputDir => "--input_dir"
  | outputDir => "--output_dir"
  | preset => "--preset"
  | stride => "--sampling"
  | reduction => "--redfactor"
  | minLines => "--minlines"
  | maxDistance => "--maxdist"
  | verticalOnly => "--no_useboth"
  | checkColumns => "--check_columns"
  | workers => "--workers"
  | device => "--device"

def shortHelp : String := "-h"

def takesValue : Opt → Bool
  | help | verticalOnly | checkColumns => false
  | _ => true

def written? (s : String) : Option Opt :=
  if s == shortHelp then some help else all.find? fun o => o.name == s

def startingWith (s : String) : List Opt := all.filter fun o => o.name.startsWith s

end Opt

/-- What an argument is taken for. A bundle is the short option for help with letters after it. -/
inductive Token where
  | value
  | option (o : Opt) (attached : Option String)
  | unknownOption
  | bundle (letters : String)
  | divider
deriving Repr, DecidableEq

def splitEquals (s : String) : Option (String × String) :=
  let before := s.toList.takeWhile (· != '=')
  if before.length = s.length then none
  else some (String.ofList before, String.ofList (s.toList.drop (before.length + 1)))

def allDigits (cs : List Char) : Bool :=
  !cs.isEmpty && cs.all fun c => (Text.digit? c).isSome

def isUnsigned (cs : List Char) : Bool :=
  let body := if cs.getLast? == some '\n' then cs.dropLast else cs
  let fraction := (body.dropWhile (· != '.')).drop 1
  allDigits body ||
    (body.contains '.' && allDigits fraction &&
      (body.takeWhile (· != '.')).all fun c => (Text.digit? c).isSome)

def leftover (s : String) : Token :=
  if isUnsigned (s.toList.drop 1) then .value
  else if s.contains ' ' then .value
  else .unknownOption

/-- What an argument is taken for; a name short for several options is refused. -/
def classify (s : String) : Except Refusal Token :=
  match s.toList with
  | '-' :: c :: _ =>
      match Opt.written? s with
      | some o => .ok (.option o none)
      | none =>
          let split := splitEquals s
          match split.bind fun e => (Opt.written? e.1).map fun o => (o, e.2) with
          | some (o, v) => .ok (if o = .help ∧ c ≠ '-' then .bundle v else .option o (some v))
          | none =>
              if c == '-' then
                let written := (split.map (·.1)).getD s
                match Opt.startingWith written with
                | [] => .ok (leftover s)
                | [o] => .ok (.option o (split.map (·.2)))
                | _ => .error .usage
              else if c == 'h' then .ok (.bundle (String.ofList (s.toList.drop 2)))
              else .ok (leftover s)
  | _ => .ok .value

/-- Classifies arguments up to a double dash; behind it everything is a value. -/
def classifyAll : List String → Except Refusal (List (String × Token))
  | [] => .ok []
  | "--" :: rest => .ok (("--", .divider) :: rest.map fun s => (s, .value))
  | s :: rest => do
      let t ← classify s
      return (s, t) :: (← classifyAll rest)

structure Options where
  inputDir : String
  outputDir : String
  preset : String
  stride : Option Int
  reduction : Option Int
  minLines : Option Int
  maxDistance : Option Int
  verticalOnly : Bool
  checkColumns : Bool
  workers : Option Int
  device : Option String
deriving Repr, DecidableEq

structure Progress where
  inputDir : Option String := none
  outputDir : Option String := none
  preset : String := "default"
  stride : Option Int := none
  reduction : Option Int := none
  minLines : Option Int := none
  maxDistance : Option Int := none
  verticalOnly : Bool := false
  checkColumns : Bool := false
  workers : Option Int := none
  device : Option String := none
  leftOver : Bool := false

def integer (s : String) : Except Refusal Int :=
  match Text.integer? s with
  | some n => .ok n
  | none => .error .usage

def choice (choices : List String) (s : String) : Except Refusal String :=
  if choices.contains s then .ok s else .error .usage

def take (p : Progress) (o : Opt) (v : String) : Except Refusal Progress :=
  match o with
  | .help => .error .help
  | .inputDir => .ok { p with inputDir := some (Text.normalPath v) }
  | .outputDir => .ok { p with outputDir := some (Text.normalPath v) }
  | .preset => do return { p with preset := ← choice Preset.names v }
  | .stride => do return { p with stride := some (← integer v) }
  | .reduction => do
      let n ← integer v
      if n = 1 ∨ n = 2 then return { p with reduction := some n } else .error .usage
  | .minLines => do return { p with minLines := some (← integer v) }
  | .maxDistance => do return { p with maxDistance := some (← integer v) }
  | .verticalOnly => .ok { p with verticalOnly := true }
  | .checkColumns => .ok { p with checkColumns := true }
  | .workers => do return { p with workers := some (← integer v) }
  | .device => do return { p with device := some (← choice ["cuda", "cpu"] v) }

def isHelpBundle (letters : String) : Bool := !letters.isEmpty && letters.toList.all (· == 'h')

def consume (p : Progress) : List (String × Token) → Except Refusal Progress
  | [] => .ok p
  | (_, .bundle letters) :: _ => .error (if isHelpBundle letters then .help else .usage)
  | (_, .option o (some v)) :: rest =>
      if o.takesValue then do
        let next ← take p o v
        consume next rest
      else .error .usage
  | (_, .option o none) :: rest =>
      if o.takesValue then
        match rest with
        | (v, .value) :: more => do
            let next ← take p o v
            consume next more
        | _ => .error .usage
      else do
        let next ← take p o ""
        consume next rest
  | (_, .value) :: rest => consume { p with leftOver := true } rest
  | (_, .unknownOption) :: rest => consume { p with leftOver := true } rest
  | (_, .divider) :: rest => consume { p with leftOver := true } rest

def Progress.finish (p : Progress) : Except Refusal Options :=
  match p.inputDir, p.outputDir, p.leftOver with
  | some inputDir, some outputDir, false =>
      .ok
        { inputDir, outputDir, preset := p.preset, stride := p.stride, reduction := p.reduction
          minLines := p.minLines, maxDistance := p.maxDistance, verticalOnly := p.verticalOnly
          checkColumns := p.checkColumns, workers := p.workers, device := p.device }
  | _, _, _ => .error .usage

def parse (arguments : List String) : Except Refusal Options := do
  let tokens ← classifyAll arguments
  let progress ← consume {} tokens
  progress.finish

def Options.entries {K : Type} [Scalar K] (o : Options) : List (String × Value K) :=
  let given := fun (name : String) (v : Option Int) =>
    v.toList.map fun n => (name, (.int n : Value K))
  given "sampling" o.stride ++ given "redfactor" o.reduction ++ given "minlines" o.minLines ++
    given "maxdist" o.maxDistance ++
    [("useboth", .bool !o.verticalOnly), ("check_columns", .bool o.checkColumns)]

end PageFlattening.Command
