import SceneBaker.Text.Escape

/-! # Paths

A path is text with slashes. Empty pieces and single dots mean nothing, but for a dot at the very
start. The name of a path is its last piece; its extension is what follows the last dot of the name,
unless that dot starts the name. Paths are ordered piece by piece.
-/

namespace SceneBaker.Files

/-- A meaningful piece of a path. -/
inductive Piece where
  | root
  /-- A dot at the start. -/
  | here
  | above
  | name (text : String)
deriving DecidableEq

namespace Piece

/-- The order of kinds; names come last. -/
def rank : Piece → Nat
  | root => 0
  | here => 1
  | above => 2
  | name _ => 3

/-- Pieces are ordered by kind, names by their characters. -/
def le : Piece → Piece → Bool
  | name a, name b => a ≤ b
  | a, b => a.rank ≤ b.rank

end Piece

abbrev Path : Type := String

namespace Path

/-- Everything between slashes, as it is written. -/
def parts (path : Path) : List String :=
  (path.toList.splitOn '/').map String.ofList

/-- A path from the pieces between its slashes. -/
def ofParts (parts : List String) : Path := "/".intercalate parts

def isAbsolute (path : Path) : Bool := path.toList.head? == some '/'

/-- The meaningful pieces. -/
def pieces (path : Path) : List Piece :=
  let piece (part : String) (position : Nat) : Option Piece :=
    if part = "" then if position = 0 ∧ path.isAbsolute then some .root else none
    else if part = "." then if position = 0 then some .here else none
    else if part = ".." then some .above
    else some (.name part)
  path.parts.zipIdx.filterMap fun (part, position) => piece part position

/-- Drop the parts at the end that mean nothing; given and returned with the last part first. -/
def dropBlankParts : List String → List String
  | [] => []
  | [only] => if only = "" then [] else [only]
  | last :: rest => if last = "" ∨ last = "." then dropBlankParts rest else last :: rest

/-- The parts up to the last meaningful one. -/
def trimmedParts (path : Path) : List String := (dropBlankParts path.parts.reverse).reverse

/-- The last piece, if it is a name. -/
def fileName? (path : Path) : Option String :=
  match path.pieces.getLast? with
  | some (.name text) => some text
  | _ => none

/-- The path without its last piece, as it is written. -/
def parent? (path : Path) : Option Path :=
  match path.pieces.getLast? with
  | none | some .root => none
  | some _ =>
    let above := (dropBlankParts (path.trimmedParts.reverse.drop 1)).reverse
    some (if above.isEmpty ∧ path.isAbsolute then "/" else ofParts above)

/-- A name as its stem and its extension. -/
def splitName (name : String) : String × Option String :=
  let reversed := name.toList.reverse
  match reversed.span (· != '.') with
  | (_, []) | (_, [_]) => (name, none)
  | (extension, _ :: stem) =>
    (String.ofList stem.reverse, some (String.ofList extension.reverse))

def stem? (path : Path) : Option String := path.fileName?.map fun name => (splitName name).1

def extension? (path : Path) : Option String := path.fileName?.bind fun name => (splitName name).2

/-- The path with another extension; one without a name stays as it is. -/
def withExtension (path : Path) (extension : String) : Path :=
  match path.stem? with
  | none => path
  | some stem => ofParts (path.trimmedParts.dropLast ++ [stem ++ "." ++ extension])

/-- A path below a directory; an absolute one stands for itself. -/
def join (directory path : Path) : Path :=
  if path.isAbsolute then path
  else if directory = "" ∨ directory.toList.getLast? = some '/' then directory ++ path
  else directory ++ "/" ++ path

/-- Piece by piece. -/
def lePieces : List Piece → List Piece → Bool
  | [], _ => true
  | _ :: _, [] => false
  | a :: as, b :: bs => if a = b then lePieces as bs else a.le b

def le (a b : Path) : Bool := lePieces a.pieces b.pieces

/-- A path in quotes, as log lines show it. -/
def quoted (path : Path) : String := Text.quoted path

end Path

end SceneBaker.Files
