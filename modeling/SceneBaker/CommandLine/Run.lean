import SceneBaker.CommandLine.Command
import SceneBaker.CommandLine.Summary
import SceneBaker.Convert.Batch

/-! # Running commands

A run leaves files, an exit code and log lines. A settings file that cannot be read ends the run
before anything is logged.
-/

namespace SceneBaker.CommandLine

open Files Build SceneBaker.Convert

/-- What a run leaves behind. -/
structure Result where
  store : Store
  exitCode : UInt32
  log : List LogLine := []

def usageCode : UInt32 := 2

def failureCode : UInt32 := 1

def Stop.exitCode : Stop → UInt32
  | help | version => 0
  | misuse => usageCode

/-- The settings of a command, if its settings file can be read. -/
def settings? (store : Store) (overrides : Overrides) : Option Settings := do
  let base ← match overrides.settingsFile with
    | none => some {}
    | some path => (store.read path).toOption >>= Settings.ofBytes?
  return overrides.apply base

/-- The line about a source that was not converted. -/
def failedLog (path : Path) (status : Status) : LogLine :=
  ⟨.error, s!"{path.quoted}: {status.text}"⟩

def runConvert (store : Store) (input output : Path) (settings : Settings) : Result :=
  let outcome := convertFile store input output settings
  let failure := if outcome.status.isSuccess then [] else [failedLog input outcome.status]
  ⟨outcome.store, outcome.status.code, outcome.log ++ failure⟩

def runBatch (store : Store) (directory : Path) (settings : Settings) : Result :=
  let outcome := convertAll store directory settings
  let failed := outcome.report.failed
  let total := outcome.report.results.length
  { store := outcome.store
    exitCode := if outcome.report.isSuccess then 0 else failureCode
    log := outcome.log ++ failed.map (fun (path, status) => failedLog path status)
      ++ [⟨.info, s!"{total - failed.length} of {total} file(s) converted"⟩] }

def Command.run (store : Store) : Command → Result
  | convert input output overrides =>
    match settings? store overrides with
    | none => ⟨store, failureCode, []⟩
    | some settings => runConvert store input (output.getD (outputPath input)) settings
  | batch directory overrides =>
    match settings? store overrides with
    | none => ⟨store, failureCode, []⟩
    | some settings => runBatch store directory settings
  | info file =>
    match summary? store file with
    | none => ⟨store, failureCode, []⟩
    | some lines => ⟨store, 0, lines.map fun line => ⟨.info, line⟩⟩

/-- Run a command. Without details, the log leaves out what helps to find errors. Whatever names
come from files, no line of the log can steer a terminal. -/
def Invocation.run (store : Store) (invocation : Invocation) : Result :=
  let result := invocation.command.run store
  let lines := result.log.filter fun line => invocation.verbose || line.level ≠ .debug
  { result with log := lines.map LogLine.shown }

/-- Run what arguments describe. -/
def run (store : Store) (arguments : List String) : Result :=
  match Invocation.ofArguments arguments with
  | .error stop => ⟨store, stop.exitCode, []⟩
  | .ok invocation => invocation.run store

end SceneBaker.CommandLine
