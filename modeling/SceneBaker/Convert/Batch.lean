import SceneBaker.Convert.File

/-! # Converting directories

All source files below a directory are converted in the order of their paths, each to a model next
to it. One that fails does not stop the others.
-/

namespace SceneBaker.Convert

open Files Build

/-- The source files below a directory, in the order of their paths. -/
def sources (store : Store) (directory : Path) : List Path :=
  ((store.filesBelow directory).filter isSource).mergeSort Path.le

/-- How the conversions of a directory ended. -/
structure Report where
  results : List (Path × Status) := []
deriving DecidableEq

namespace Report

def failed (report : Report) : List (Path × Status) :=
  report.results.filter fun (_, status) => !status.isSuccess

def isSuccess (report : Report) : Bool := report.failed.isEmpty

end Report

/-- A directory after its conversions. -/
structure BatchOutcome where
  store : Store
  report : Report := {}
  log : List LogLine := []

/-- Convert one source and add how that ended. -/
def BatchOutcome.add (outcome : BatchOutcome) (settings : Settings) (source : Path) :
    BatchOutcome :=
  let result := convertFile outcome.store source (outputPath source) settings
  { store := result.store
    report := ⟨outcome.report.results ++ [(source, result.status)]⟩
    log := outcome.log ++ result.log }

def convertAll (store : Store) (directory : Path) (settings : Settings) : BatchOutcome :=
  let sources := sources store directory
  let start : LogLine :=
    ⟨.info, s!"Converting {sources.length} file(s) under {directory.quoted}"⟩
  sources.foldl (fun outcome source => outcome.add settings source) { store, log := [start] }

end SceneBaker.Convert
