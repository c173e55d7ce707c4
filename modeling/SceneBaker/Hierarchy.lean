/-! # Hierarchies in an arena

Nodes live in an array and list the positions of their children. `Links.descend` walks from a
position depth first, parents before children, and hands each node's value down to its children. A
node that several parents list is visited once below each of them. No position is marked as visited:
a path longer than the array can only be a cycle, which a walk never leaves again, and then its
visits are those up to there.
-/

namespace SceneBaker

/-- For every position, the positions of its children. -/
abbrev Links : Type := Array (List Nat)

/-- What a walk does at a position outside the array: pass over it, or come no further. -/
inductive Gap where
  | skip
  | stop

namespace Links

variable {β : Type}

/-- The visits at and below `position`, each with its value, on top of those so far, the latest
first. An error is a walk that comes no further, with its visits up to there. `bound` limits the
length of paths. -/
def descend (links : Links) (gap : Gap) (value : Option β → Nat → β) :
    (bound : Nat) → (inherited : Option β) → (visited : List (Nat × β)) → (position : Nat) →
      Except (List (Nat × β)) (List (Nat × β))
  | 0, _, visited, _ => .error visited
  | bound + 1, inherited, visited, position =>
    match links[position]?, gap with
    | none, .skip => .ok visited
    | none, .stop => .error visited
    | some children, _ =>
      let own := value inherited position
      children.foldlM (links.descend gap value bound (some own)) ((position, own) :: visited)

/-- The visits from one position, up to where the walk comes no further. Without a cycle, no path
has more nodes than the array. -/
def walk (links : Links) (gap : Gap) (value : Option β → Nat → β) (root : Nat) :
    List (Nat × β) :=
  match links.descend gap value (links.size + 1) none [] root with
  | .ok visited | .error visited => visited.reverse

/-- The walk from one position, if it has an end. -/
def walk? (links : Links) (value : Option β → Nat → β) (root : Nat) : Option (List (Nat × β)) :=
  match links.descend .skip value (links.size + 1) none [] root with
  | .ok visited => some visited.reverse
  | .error _ => none

/-- Depth of a visit below the start of its walk. -/
def depth : Option Nat → Nat → Nat
  | none, _ => 0
  | some above, _ => above + 1

/-- Visits from the root, at position 0, with their depths. -/
def preorder (links : Links) (gap : Gap) : List (Nat × Nat) := links.walk gap depth 0

/-- For every position the last one that lists it as a child. -/
def parents (links : Links) : Array (Option Nat) :=
  (List.range links.size).foldl
    (fun (parents : Array (Option Nat)) (position : Nat) =>
      (links[position]?.getD []).foldl
        (fun parents child => parents.setIfInBounds child (some position)) parents)
    (Array.replicate links.size none)

/-- In a listing of depths in preorder, the number of each entry's parent: the latest entry before
it that is one level up. `path` holds the numbers of the entries above, deepest first. -/
def parentNumbers (path : List Nat) (number : Nat) : List Nat → List (Option Nat)
  | [] => []
  | depth :: depths =>
    let above := path.drop (path.length - depth)
    above.head? :: parentNumbers (number :: above) (number + 1) depths

end Links

end SceneBaker
