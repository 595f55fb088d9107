import PageFlattening.Value.Text

/-! Records on disk: what is saved carries a version and its type, and only a record of the current
version and the expected type is read back. -/
namespace PageFlattening

variable {K : Type} [Scalar K]

structure Codec (K α : Type) where
  recordType : String
  encode : α → Except Fault (Value K)
  decode : Value K → Except Fault α

namespace Codec

variable {α : Type}

/-- The record type that has no storage of its own; the actual ones start from it. -/
def bare : Codec K α where
  recordType := "record"
  encode _ := .error .noCodec
  decode _ := .error .noCodec

def currentVersion : Int := 4

/-- What is saved: the notes of the caller, with version, type and record put over them. -/
def save (c : Codec K α) (notes : List (String × Value K)) (a : α) :
    Except Fault (List (String × Value K)) := do
  let record ← c.encode a
  let versioned := Value.setEntry notes "version" (.int currentVersion)
  let typed := Value.setEntry versioned "record_type" (.text c.recordType)
  return Value.setEntry typed "record" record

def savedEntry (saved : Value K) (name : String) : Value K :=
  match saved with
  | .table entries => (Value.entry? entries name).getD .null
  | _ => .null

/-- Reads back what was saved. The version is compared as a number. -/
def load (c : Codec K α) (saved : Value K) : Except Fault α := do
  let version := savedEntry saved "version"
  if !version.equalsInt currentVersion then .error (.version version.plain)
  let found := savedEntry saved "record_type"
  let matching := match found with
    | .text s => s == c.recordType
    | _ => false
  if !matching then .error (.argument (.recordType c.recordType found.plain))
  c.decode (← saved.field "record")

end Codec

end PageFlattening
