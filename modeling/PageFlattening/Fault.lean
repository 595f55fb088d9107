/-! Everything that can go wrong, as causes. A page that cannot be modelled is not a fault: that
outcome is recorded on the model. Only missing or malformed input, settings out of range and steps
taken out of order are faults. `Fault.message` holds the wording. -/
namespace PageFlattening

/-- A setting or threshold that is out of range. `got` is the offending value as it is written. -/
inductive SettingFault where
  | stride (got : String)
  | reduction (got : String)
  | minLines (got : String)
  | minLinesOverride (got : String)
  | maxDistance (got : String)
  | cacheSize (got : String)
  | pageCount (got : String)
  | thresholdNotInteger (name got : String)
  | thresholdNegative (name got : String)
  | thresholdOrder (low high : Nat)
  | unknownThreshold (name : String)
  | foreignModel (page : Nat) (stride reduction ownStride ownReduction : Int)
deriving Repr, DecidableEq

inductive ImageFault where
  | missing
  | empty
  | unsupportedType (typeName : String)
  | unsupportedLayout (pixelType shape : String)
  | notBinary (pixelType shape : String)
deriving Repr, DecidableEq

inductive ArgumentFault where
  | quadraticPoints (count : Nat)
  | linearPoints (count : Nat)
  | samplesShape (shape : String)
  | fieldStride (got : String)
  | rowsPerLine
  | columnFitLines (count : Nat)
  | factor (got : Int)
  | slopeGrid
  | negativePage (got : String)
  | pageNumber (got : String)
  | reference (target page : String)
  | redirectHoldsNoField (page : Nat)
  | fieldStrideMismatch (field model : Int)
  | verticalNotBuilt (page : Nat)
  | horizontalNotBuilt (page : Nat)
  | horizontalWithoutVertical (page : Nat)
  | storedStatus (status : String) (page : Nat)
  | storedValidity (page : Nat)
  | recordType (expected found : String)
  | rankLevel (got : String)
  | displacementShape (displacement image : String)
  | unknownPreset (name : String)
  | noPreset
deriving Repr, DecidableEq

/-- A use that no operation is defined for; it has no wording of its own. -/
inductive MisuseFault where
  | wrongType
  | missingKey (name : String)
  | emptyCache
  | readOnly (name : String)
  | absent
  | divisionByZero
  | notANumber
  | tooLarge
  | fileNotFound
  | fileSystem
  | singularFit
  | unknownName
  | shapesDiffer
  | emptyRange
  | noWorkers
  | unsupportedConversion
deriving Repr, DecidableEq

inductive Fault where
  | setting (cause : SettingFault)
  | image (cause : ImageFault)
  | argument (cause : ArgumentFault)
  | misuse (cause : MisuseFault)
  | version (found : String)
  | notReady
  | noCodec
deriving Repr, DecidableEq

def SettingFault.message : SettingFault → String
  | .stride got => "sampling must be an integer >= 8, got " ++ got
  | .reduction got => "redfactor must be 1 or 2, got " ++ got
  | .minLines got => "minlines must be an integer >= 4, got " ++ got
  | .minLinesOverride got => "minlines must be >= 4, got " ++ got
  | .maxDistance got => "maxdist must be a non-negative integer, got " ++ got
  | .cacheSize got => "cache_size must be a non-negative integer, got " ++ got
  | .pageCount got => "npages must be a non-negative integer, got " ++ got
  | .thresholdNotInteger name got => name ++ " must be an integer, got " ++ got
  | .thresholdNegative name got => name ++ " must be non-negative, got " ++ got
  | .thresholdOrder low high =>
      s!"min_diff_linecurv ({low}) exceeds max_diff_linecurv ({high})"
  | .unknownThreshold name => "Unknown threshold: " ++ name
  | .foreignModel page s r ownStride ownReduction =>
      s!"Model for page {page} has sampling={s}, redfactor={r}; " ++
        s!"collection uses sampling={ownStride}, redfactor={ownReduction}"

def ImageFault.message : ImageFault → String
  | .missing => "Image is None"
  | .empty => "Image is empty"
  | .unsupportedType typeName => "Unsupported image type: " ++ typeName
  | .unsupportedLayout pixelType shape =>
      s!"Unsupported pixel layout: dtype={pixelType}, shape={shape}"
  | .notBinary pixelType shape =>
      s!"Expected a 1 bpp page, got dtype={pixelType}, shape={shape}"

def ArgumentFault.message : ArgumentFault → String
  | .quadraticPoints count => s!"Quadratic fit needs at least 3 points, got {count}"
  | .linearPoints count => s!"Linear fit needs at least 2 points, got {count}"
  | .samplesShape shape => "Sampled disparity must be a non-empty 2-D array, got " ++ shape
  | .fieldStride got => "sampling must be positive, got " ++ got
  | .rowsPerLine => "values must have one row per line"
  | .columnFitLines count => s!"Need at least 3 lines for a column fit, got {count}"
  | .factor got => s!"factor must be positive, got {got}"
  | .slopeGrid => "Slope source must share the sampled grid"
  | .negativePage got => "Page number must be non-negative, got " ++ got
  | .pageNumber got => "Page number must be a non-negative integer, got " ++ got
  | .reference target page => s!"Invalid reference page {target} for page {page}"
  | .redirectHoldsNoField page => s!"Reference model for page {page} cannot hold fields"
  | .fieldStrideMismatch field model =>
      s!"Field sampling {field} does not match model sampling {model}"
  | .verticalNotBuilt page =>
      s!"Page {page}: vertical field cannot be valid without being built"
  | .horizontalNotBuilt page =>
      s!"Page {page}: horizontal field cannot be valid without being built"
  | .horizontalWithoutVertical page =>
      s!"Page {page}: horizontal field cannot be valid without the vertical"
  | .storedStatus status page => s!"Inconsistent stored status {status} for page {page}"
  | .storedValidity page => s!"Inconsistent stored validity for page {page}"
  | .recordType expected found => s!"Expected a {expected} record, found {found}"
  | .rankLevel got => "level must be in \x7b1, 2, 3, 4\x7d, got " ++ got
  | .displacementShape displacement image =>
      s!"Disparity shape {displacement} does not match image shape {image}"
  | .unknownPreset name => "Unknown preset: " ++ name
  | .noPreset => "No preset selected"

def Fault.message : Fault → String
  | .setting cause => cause.message
  | .image cause => cause.message
  | .argument cause => cause.message
  | .misuse _ => ""
  | .version found => s!"Unsupported model version {found} (expected 4)"
  | .notReady => "Models are not ready; call resolve_references() before rendering"
  | .noCodec => ""

/-- What an operation on a state leaves behind: the state, and the fault that stopped it if one
did. A stopped operation may have changed the state before it stopped. -/
structure Outcome (σ : Type) where
  state : σ
  fault : Option Fault

namespace Outcome

variable {σ : Type}

def done (state : σ) : Outcome σ := ⟨state, none⟩

def stopped (state : σ) (fault : Fault) : Outcome σ := ⟨state, some fault⟩

def map {τ : Type} (f : σ → τ) (o : Outcome σ) : Outcome τ := ⟨f o.state, o.fault⟩

def andThen (o : Outcome σ) (next : σ → Outcome σ) : Outcome σ :=
  match o.fault with
  | none => next o.state
  | some _ => o

def each {α : Type} (step : σ → α → Outcome σ) (state : σ) : List α → Outcome σ
  | [] => done state
  | a :: rest => (step state a).andThen fun next => each step next rest

def result (o : Outcome σ) : Except Fault σ :=
  match o.fault with
  | none => .ok o.state
  | some fault => .error fault

end Outcome

end PageFlattening
