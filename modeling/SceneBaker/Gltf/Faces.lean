import SceneBaker.Mesh.Vertex

/-! # Faces from index lists

The indices of a primitive are cut into faces. Strips, loops and fans become plain lists; in a strip
every other triangle is turned so that all have one orientation. What is left over at the end of a
plain list stays as a short face.
-/

namespace SceneBaker.Gltf

open Mesh

/-- How the indices of a primitive form faces. -/
inductive Mode where
  | points | lines | lineLoop | lineStrip | triangles | triangleStrip | triangleFan
deriving DecidableEq, Inhabited

namespace Mode

/-- All modes, in the order of their codes in documents. -/
def all : List Mode :=
  [points, lines, lineLoop, lineStrip, triangles, triangleStrip, triangleFan]

def primitive : Mode → Primitive
  | points => .points
  | lines | lineLoop | lineStrip => .lines
  | triangles | triangleStrip | triangleFan => .triangles

end Mode

variable {α : Type}

/-- Two at a time; the last one alone if their number is odd. -/
def pairs : List α → List (List α)
  | a :: b :: rest => [a, b] :: pairs rest
  | [] => []
  | rest => [rest]

/-- Three at a time; the last ones alone if some are left. -/
def triples : List α → List (List α)
  | a :: b :: c :: rest => [a, b, c] :: triples rest
  | [] => []
  | rest => [rest]

/-- Every entry with the one behind it. -/
def neighbours : List α → List (List α)
  | a :: b :: rest => [a, b] :: neighbours (b :: rest)
  | _ => []

/-- Every entry with the two behind it; every other triple has its first two exchanged. -/
def strip (turned : Bool) : List α → List (List α)
  | a :: b :: c :: rest =>
    (if turned then [b, a, c] else [a, b, c]) :: strip (!turned) (b :: c :: rest)
  | _ => []

/-- The neighbours, and the last entry with the first if there are more than two. -/
def loop (indices : List α) : List (List α) :=
  match indices with
  | first :: _ :: rest =>
    neighbours indices ++ (rest.getLast?.map fun last => [last, first]).toList
  | _ => neighbours indices

/-- The first entry with every pair of neighbours behind it. -/
def fan : List α → List (List α)
  | [] => []
  | center :: rest => (neighbours rest).map (center :: ·)

/-- The faces that indices form. -/
def faces (mode : Mode) (indices : List α) : List (List α) :=
  match mode with
  | .points => indices.map ([·])
  | .lines => pairs indices
  | .lineLoop => loop indices
  | .lineStrip => neighbours indices
  | .triangles => triples indices
  | .triangleStrip => strip false indices
  | .triangleFan => fan indices

end SceneBaker.Gltf
