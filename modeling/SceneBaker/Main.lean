import SceneBaker.CommandLine.Run

/-! # The program

The files below the working directory are read before the command runs, and those that it changed
are written after it.
-/

open SceneBaker.Files SceneBaker.CommandLine

/-- Add directory entries and all that lies below them to a store. Links are not followed. -/
partial def readEntries (place : List String) (store : Store) (entries : Array IO.FS.DirEntry) :
    IO Store :=
  entries.foldlM (fun store entry => do
    let names := place ++ [entry.fileName]
    match (← entry.path.symlinkMetadata).type with
    | .dir => readEntries names (store.put names .directory) (← entry.path.readDir)
    | .file =>
      let bytes ← IO.FS.readBinFile entry.path
      return store.put names (.file bytes.toList)
    | _ => return store) store

def readStore : IO Store := do readEntries [] {} (← (← IO.currentDir).readDir)

/-- Write the files that differ from what was there before. -/
def writeChanges (before after : Store) : IO Unit :=
  after.entries.forM fun (names, entry) => do
    match entry with
    | .file bytes =>
      if before.find? names != some entry then
        IO.FS.writeBinFile ("/".intercalate names) ⟨bytes.toArray⟩
    | .directory => pure ()

def main (arguments : List String) : IO UInt32 := do
  match Invocation.ofArguments arguments with
  | .error stop =>
    usage.forM IO.println
    return stop.exitCode
  | .ok invocation =>
    let before ← readStore
    let result := invocation.run before
    result.log.forM fun line => IO.println s!"{line.level.text} {line.text}"
    writeChanges before result.store
    return result.exitCode
