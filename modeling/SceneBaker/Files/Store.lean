import SceneBaker.Files.Path

/-! # Files and directories

A `Store` holds the files and directories below a working directory, each under the names that lead
to it. A path is resolved name by name; every name before the last has to be a directory, and so has
the last one if a slash or a dot follows it. Nothing outside the working directory exists.
-/

namespace SceneBaker.Files

inductive Entry where
  | file (bytes : List UInt8)
  | directory
deriving DecidableEq

/-- Entries by the names that lead to them; the working directory itself is always there. -/
structure Store where
  entries : List (List String × Entry) := []
deriving DecidableEq

namespace Store

def find? (store : Store) (names : List String) : Option Entry :=
  if names.isEmpty then some .directory else store.entries.lookup names

def isDirectory (store : Store) (names : List String) : Bool :=
  store.find? names == some .directory

/-- The longest name that a file can have, in bytes. -/
def maxNameSize : Nat := 255

/-- The longest path that can be looked up, in bytes. -/
def maxPathSize : Nat := 4095

/-- Follow the parts of a path from a place. -/
def follow? (store : Store) : (place : List String) → List String → Option (List String)
  | place, [] => some place
  | place, part :: parts =>
    if !store.isDirectory place then none
    else if part = "" ∨ part = "." then store.follow? place parts
    else if part = ".." then
      if place.isEmpty then none else store.follow? place.dropLast parts
    else if maxNameSize < part.utf8ByteSize then none
    else store.follow? (place ++ [part]) parts

/-- Whether a path can be looked up at all. -/
def isUsable (path : Path) : Bool :=
  path ≠ "" && !path.isAbsolute && !path.toList.contains '\x00' && path.utf8ByteSize ≤ maxPathSize

/-- The names that a path leads to; the last one need not exist. -/
def resolve? (store : Store) (path : Path) : Option (List String) :=
  if isUsable path then store.follow? [] path.parts else none

def put (store : Store) (names : List String) (entry : Entry) : Store :=
  if (store.entries.lookup names).isSome then
    ⟨store.entries.map fun old => if old.1 == names then (names, entry) else old⟩
  else ⟨store.entries ++ [(names, entry)]⟩

/-- Make the directories that lead to a place, as far as they are missing. -/
def makeDirectories (store : Store) (names : List String) : Store :=
  (List.range names.length).foldl
    (fun store count =>
      let place := names.take (count + 1)
      if (store.find? place).isSome then store else store.put place .directory)
    store

/-- The bytes of a file. -/
def read (store : Store) (path : Path) : Except String (List UInt8) :=
  match (store.resolve? path).bind store.find? with
  | some (.file bytes) => .ok bytes
  | some .directory => .error "Is a directory"
  | none => .error "No such file or directory"

/-- The store with a file written; its directory has to exist, and it may not be a directory. -/
def write (store : Store) (path : Path) (bytes : List UInt8) : Except String Store :=
  match store.resolve? path with
  | none => .error "No such file or directory"
  | some names =>
    if store.isDirectory names then .error "Is a directory"
    else .ok (store.put names (.file bytes))

/-- What the names of new files look like that later take the place of others. -/
def temporaryName : String := ".tmpXXXXXX"

/-- Write a file through a new one in the same directory, which then takes its place. -/
def replace (store : Store) (path : Path) (bytes : List UInt8) : Except String Store :=
  let directory := match path.parent? with
    | some parent => if parent = "" then "." else parent
    | none => "."
  if (store.resolve? (Path.join directory temporaryName)).isSome then store.write path bytes
  else .error "No such file or directory"

/-- Paths of all files at and below a path, which they start with. Directories whose paths are too
long are passed over. -/
def filesBelow (store : Store) (path : Path) : List Path :=
  match store.resolve? path with
  | none => []
  | some place =>
    if store.isDirectory place then
      store.entries.filterMap fun (names, entry) =>
        match entry with
        | .file _ =>
          let below := names.drop place.length
          let directory := below.dropLast.foldl Path.join path
          if place.isPrefixOf names && !below.isEmpty
              && directory.utf8ByteSize ≤ maxPathSize then
            some (below.foldl Path.join path)
          else none
        | .directory => none
    else if (store.find? place).isSome then [path] else []

end Store

end SceneBaker.Files
