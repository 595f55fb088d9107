import PageFlattening.Command.Options
import PageFlattening.Document.Directory

/-! What a command line does to a directory. -/
namespace PageFlattening.Command

/-- The outcome of a command: the code that it exits with unless it runs to its end, and the output
directory with the files in it if it was created. -/
structure Report where
  exit : Option Nat
  written : Option (String × List OutputFile)

/-- Carries out a command line that parses: the configuration is checked before anything is
written, and single pages that fail do not fail the command. -/
def execute (K : Type) [Scalar K] (o : Options) (files : List FileEntry) : Report :=
  match Document.create o.preset (o.entries : List (String × Value K)) o.workers
      (standardCounter K) with
  | .error _ => ⟨some 1, none⟩
  | .ok d =>
      let flattened := d.flattenFiles Document.imageExtensions files
      ⟨flattened.fault.map fun _ => 1, some (o.outputDir, flattened.state.written)⟩

def run (K : Type) [Scalar K] (arguments : List String) (directory : String → List FileEntry) :
    Report :=
  match parse arguments with
  | .error .help => ⟨some 0, none⟩
  | .error .usage => ⟨some 2, none⟩
  | .ok o => execute K o (directory o.inputDir)

end PageFlattening.Command
