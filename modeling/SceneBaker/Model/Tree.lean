import SceneBaker.Hierarchy
import SceneBaker.Mesh.Basic

/-! # Node trees

The nodes of a model live in an arena whose first entry is the root; a node is added as the last
child of one that is already there. A tree is stored in preorder, each node with the number of its
children, and is read back with a list of nodes that still wait for children.
-/

namespace SceneBaker.Model

open Number SceneBaker.Geometry Binary

structure Node where
  name : String := ""
  /-- Dense over the tree; the bone's index for a bone node. -/
  index : UInt32 := 0
  isBone : Bool := false
  /-- Transform relative to the parent. -/
  transform : DualQuat Single := 1
  /-- Indices into the model's meshes. -/
  meshes : List UInt32 := []
  /-- Positions in the arena. -/
  children : List Nat := []
deriving DecidableEq

namespace Node

instance : Inhabited Node := ⟨{}⟩

/-- Everything but the children, whose number comes last. -/
def encode (node : Node) : Output :=
  .text node.name ++ .index node.index ++ .bool node.isBone ++ .dualQuat node.transform
    ++ .count .nodeMesh node.meshes.length ++ .each node.meshes Output.u32
    ++ .count .child node.children.length

/-- A node without its children, and their number. -/
def decode : Reader (Node × Nat) := do
  let name ← Reader.text
  let index ← Reader.index .node
  let isBone ← Reader.bool
  let transform ← Reader.dualQuat
  let meshCount ← Reader.u32
  let meshes ← Reader.times meshCount.toNat Reader.u32
  let childCount ← Reader.u32
  return ({ name, index, isBone, transform, meshes }, childCount.toNat)

end Node

structure NodeTree where
  nodes : Array Node := #[]
deriving DecidableEq

namespace NodeTree

def empty : NodeTree := {}

def ofRoot (root : Node) : NodeTree := ⟨#[root]⟩

def size (tree : NodeTree) : Nat := tree.nodes.size

def isEmpty (tree : NodeTree) : Bool := tree.nodes.isEmpty

def get? (tree : NodeTree) (position : Nat) : Option Node := tree.nodes[position]?

def root? (tree : NodeTree) : Option Node := tree.get? 0

/-- The tree with one more node, the last child of `parent`, which has to be in the tree. -/
def attach (tree : NodeTree) (parent : Nat) (node : Node) : NodeTree :=
  let position := tree.size
  let linked := tree.nodes.modify parent fun above =>
    { above with children := above.children ++ [position] }
  ⟨linked.push node⟩

/-- The tree with one more node, the last child of `parent`; none if there is no such parent. -/
def addChild? (tree : NodeTree) (parent : Nat) (node : Node) : Option NodeTree :=
  if parent < tree.size then some (tree.attach parent node) else none

/-- Replace everything but the children of a node; none if there is no such node. -/
def replace? (tree : NodeTree) (position : Nat) (node : Node) : Option NodeTree :=
  if position < tree.size then
    some ⟨tree.nodes.modify position fun old => { node with children := old.children }⟩
  else none

def links (tree : NodeTree) : Links := tree.nodes.map (·.children)

/-- Position and depth of every node in preorder, up to the first child that is not there. -/
def visits (tree : NodeTree) : List (Nat × Nat) := tree.links.preorder .stop

/-- Nodes with their positions in preorder. -/
def preorder (tree : NodeTree) : List (Nat × Node) :=
  tree.visits.filterMap fun (position, _) => (tree.get? position).map (position, ·)

def parents (tree : NodeTree) : Array (Option Nat) := tree.links.parents

/-- The first node of that name in preorder. -/
def find? (tree : NodeTree) (name : String) : Option (Nat × Node) :=
  tree.preorder.find? fun (_, node) => node.name == name

def encode (tree : NodeTree) : Output := .each tree.preorder fun (_, node) => node.encode

/-- Read the rest of a tree. `pending` holds the nodes above the current place with the numbers of
children they still wait for, the innermost first. Every node takes at least one byte, so a bound on
the bytes left is a bound on the nodes left. -/
def decodeRest : (bound : Nat) → (pending : List (Nat × Nat)) → NodeTree → Reader NodeTree
  | bound, pending, tree =>
    match bound, pending.dropWhile (·.2 == 0) with
    | _, [] => pure tree
    | 0, _ :: _ => .fail .truncated
    | bound + 1, (parent, waiting) :: rest => do
      let (node, childCount) ← Node.decode
      let position := tree.size
      decodeRest bound ((position, childCount) :: (parent, waiting - 1) :: rest)
        (tree.attach parent node)

def decode : Reader NodeTree := do
  let (root, childCount) ← Node.decode
  fun bytes => decodeRest bytes.length [(0, childCount)] (ofRoot root) bytes

end NodeTree

end SceneBaker.Model
