import SceneBaker.Build.Error
import SceneBaker.Gltf.Resources
import SceneBaker.Scene.Transform

/-! # Scenes of documents

The scene has a root of its own above the nodes that the document shows. A mesh becomes one mesh per
part, once for every skin that nodes use it with, at the first of those nodes. Key times are in
seconds.
-/

namespace SceneBaker.Gltf

open Number SceneBaker.Geometry Scene Build

/-- A name, or what stands for a missing or empty one. -/
def nameOr (name : Option String) (kind : String) (number : Nat) : String :=
  match name with
  | some "" | none => s!"{kind}_{number}"
  | some name => name

namespace Document

/-! ## Nodes -/

def nodeName (document : Document) (position : Nat) : String :=
  nameOr (document.nodes[position]?.bind (·.name)) "node" position

/-- Nodes that no node has below it. -/
def parentless (document : Document) : List Nat :=
  (List.range document.nodes.size).filter fun position =>
    !document.nodes.any (·.children.contains position)

/-- The nodes at the top: of the scene to show, of the first scene, or all that are below no other
node. -/
def roots (document : Document) : List Nat :=
  document.scenes[document.scene.getD 0]?.getD document.parentless

/-- Links between the nodes, and at the end one more node above the top. -/
def links (document : Document) : Links := (document.nodes.map (·.children)).push document.roots

/-- The children of a node, and at the end the top. -/
def children? (document : Document) (position : Nat) : Option (List Nat) :=
  if position = document.nodes.size then some document.roots
  else document.nodes[position]?.map (·.children)

/-- The visits below the node at the end with their depths, if the nodes below it end. -/
def visits? (document : Document) : Option (List (Nat × Nat)) :=
  document.links.walk? Links.depth document.nodes.size

/-! ## Meshes and materials -/

/-- A mesh and the skin that it is drawn with. -/
abbrev Use : Type := Nat × Option Nat

def Node.use? (node : Node) : Option Use := node.mesh.map (·, node.skin)

/-- What the visited nodes draw, each use at its first node. -/
def uses (document : Document) (visits : List (Nat × Nat)) : List Use :=
  (visits.filterMap fun (position, _) => document.nodes[position]? >>= Node.use?).eraseDups

/-- A part of a mesh, with its name and its skin. -/
structure Piece where
  name : String
  part : Part
  skin : Option Skin

/-- The parts of a mesh; if there are several, their names are numbered. -/
def pieces (document : Document) (use : Use) : List Piece :=
  match document.meshes[use.1]? with
  | none => []
  | some mesh =>
    let name := nameOr mesh.name "mesh" use.1
    mesh.parts.zipIdx.map fun (part, number) =>
      ⟨if mesh.parts.length > 1 then s!"{name}_{number}" else name, part,
        use.2.bind (document.skins[·]?)⟩

/-- Numbers of the scene's meshes that a use stands for. -/
def meshNumbers (document : Document) (uses : List Use) (use : Use) : List Nat :=
  let before := (uses.takeWhile (· != use)).flatMap document.pieces
  (List.range (document.pieces use).length).map (before.length + ·)

/-- The material of parts that name none; it stands behind the document's materials. -/
def defaultMaterialName : String := "DefaultMaterial"

def Material.toSource (material : Material) (number : Nat) : SourceMaterial Single :=
  ⟨nameOr material.name "material" number, material.baseColor.xyz, material.baseColor.w⟩

/-- The document's materials, and the default one if a piece needs it. -/
def sourceMaterials (document : Document) (pieces : List Piece) : Array (SourceMaterial Single) :=
  let own := document.materials.mapIdx fun number material => material.toSource number
  if pieces.any (·.part.material.isNone) then own.push (.plain defaultMaterialName) else own

end Document

/-! ## Skins -/

/-- The vertices that name a joint, with their weights other than zero. -/
def jointWeights (joint : Nat) (sets : List (Vec4 Nat × Vec4 Single)) : List (VertexWeight Single) :=
  sets.zipIdx.flatMap fun ((joints, weights), vertex) =>
    (joints.toList.zip weights.toList).filterMap fun (named, weight) =>
      if named = joint ∧ !weight.numEq 0 then some ⟨UInt32.ofNat vertex, weight⟩ else none

/-- A bone for every joint that some vertex names. -/
def skinBones (joints : List (String × Mat4 Single)) (sets : List (Vec4 Nat × Vec4 Single)) :
    List (SourceBone Single) :=
  let bones := joints.zipIdx.map fun ((name, offset), joint) =>
    ⟨name, offset, jointWeights joint sets⟩
  bones.filter fun bone => !bone.weights.isEmpty

/-! ## Attributes -/

/-- Joint numbers of one or two octets. -/
def joint? (accessor : Document.Accessor) : Option (Item (Vec4 Nat)) :=
  match accessor.component with
  | .uint8 | .uint16 => (Item.whole? accessor.component).map Item.vec4
  | _ => none

/-- Colors with or without alpha. -/
def color? (accessor : Document.Accessor) : Option (Item (Vec4 Single)) := do
  let share ← Item.unsignedShare? accessor.component
  match accessor.dimensions with
  | .vec3 => some ((Item.vec3 share).map fun v => ⟨v.x, v.y, v.z, 1⟩)
  | .vec4 => some (Item.vec4 share)
  | _ => none

def uv? (accessor : Document.Accessor) : Option (Item (Vec2 Single)) :=
  (Item.unsignedShare? accessor.component).map Item.vec2

def weight? (accessor : Document.Accessor) : Option (Item (Vec4 Single)) :=
  (Item.unsignedShare? accessor.component).map Item.vec4

def rotation? (accessor : Document.Accessor) : Option (Item (Quat Single)) :=
  (Item.share? accessor.component).map fun share =>
    (Item.vec4 share).map fun v => ⟨v.x, v.y, v.z, v.w⟩

/-- Tangents and, from normals and the signs of the tangents, bitangents. -/
def tangentFrames (normals : List (Vec3 Single)) (tangents : List (Vec4 Single)) :
    List (Vec3 Single × Vec3 Single) :=
  (tangents.zip normals).map fun (tangent, normal) =>
    (tangent.xyz, (normal.cross tangent.xyz) * tangent.w)

namespace Loaded

variable {α : Type}

/-- The items of an accessor, in the form that fits it. -/
def read? (loaded : Loaded) (item? : Document.Accessor → Option (Item α)) (position : Nat) :
    Option (List α) := do
  let accessor ← loaded.document.accessors[position]?
  loaded.document.items? loaded.buffers (← item? accessor) accessor

/-- The items of an attribute, if the part has it. -/
def attribute? (loaded : Loaded) (part : Document.Part) (kind : Attribute)
    (item? : Document.Accessor → Option (Item α)) : Option (List α) :=
  part.attributes.lookup kind >>= loaded.read? item?

/-- The joints of a skin; a joint without a matrix keeps its place. -/
def joints (loaded : Loaded) (skin : Document.Skin) : List (String × Mat4 Single) :=
  let matrices := (skin.inverseBinds >>= loaded.read? fun _ => some (Item.mat4 .single)).getD []
  skin.joints.zipIdx.map fun (node, number) =>
    (loaded.document.nodeName node, (matrices[number]?).getD 1)

/-- Joints and weights of the vertices, if both can be read. -/
def skinSets? (loaded : Loaded) (part : Document.Part) : Option (List (Vec4 Nat × Vec4 Single)) := do
  let joints ← loaded.attribute? part (.joints 0) joint?
  return joints.zip (← loaded.attribute? part (.weights 0) weight?)

def bones (loaded : Loaded) (piece : Document.Piece) : List (SourceBone Single) :=
  match piece.skin with
  | none => []
  | some skin => skinBones (loaded.joints skin) ((loaded.skinSets? piece.part).getD [])

/-- The faces of a part, by its indices or else by all its vertices. -/
def partFaces (loaded : Loaded) (part : Document.Part) (vertices : Nat) : List (List UInt32) :=
  let named := part.indices >>= loaded.read? fun accessor => Item.whole? accessor.component
  faces part.mode ((named.getD (List.range vertices)).map UInt32.ofNat)

/-- The mesh of a piece. -/
def mesh (loaded : Loaded) (piece : Document.Piece) : Except ImportCause (SourceMesh Single) :=
  let vectors (kind : Attribute) : Option (List (Vec3 Single)) :=
    loaded.attribute? piece.part kind fun _ => some (Item.vec3 .single)
  match vectors .position with
  | none => .error (.noPositions piece.name)
  | some positions =>
    let normals := vectors .normal
    let frames := do
      let tangents ← loaded.attribute? piece.part .tangent fun _ => some (Item.vec4 .single)
      return tangentFrames (← normals) tangents
    .ok {
      name := piece.name
      material := UInt32.ofNat (piece.part.material.getD loaded.document.materials.size)
      primitive := piece.part.mode.primitive
      positions := positions.toArray
      normals := normals.map List.toArray
      uv0 := (loaded.attribute? piece.part (.texCoord 0) uv?).map List.toArray
      uv1 := (loaded.attribute? piece.part (.texCoord 1) uv?).map List.toArray
      colors := (loaded.attribute? piece.part (.color 0) color?).map List.toArray
      tangents := frames.map fun frames => (frames.map (·.1)).toArray
      bitangents := frames.map fun frames => (frames.map (·.2)).toArray
      faces := loaded.partFaces piece.part positions.length
      bones := loaded.bones piece }

/-- What the log says about a piece whose mesh can be read. -/
def meshLog (loaded : Loaded) (piece : Document.Piece) : List LogLine :=
  if piece.skin.isSome && (loaded.skinSets? piece.part).isNone then
    [⟨.warn, s!"Mesh \"{piece.name}\" is skinned but has no joints or weights"⟩]
  else []

/-! ## Animations -/

/-- A channel whose times can be read. -/
structure Timed where
  channel : Document.Channel
  sampler : Document.Sampler
  times : List Double

def timed (loaded : Loaded) (animation : Document.Animation) : List Timed :=
  animation.channels.filterMap fun channel => do
    let sampler ← animation.samplers[channel.sampler]?
    let times ← loaded.read? (fun _ => some Item.single) sampler.input
    return ⟨channel, sampler, times.map Double.ofSingle⟩

/-- The second of every three. -/
def middles : List α → List α
  | _ :: value :: _ :: rest => value :: middles rest
  | [_, value] => [value]
  | _ => []

/-- Times with their values; between cubic splines' values stand their tangents. -/
def keys (timed : Timed) (values : List α) : List (Key α) :=
  let values := if timed.sampler.interpolation = .cubicSpline then middles values else values
  timed.times.zipWith Key.mk values

/-- The keys of a property of a node; of several channels, the last one counts. -/
def lastKeys (loaded : Loaded) (channels : List Timed) (node : Nat) (property : Property)
    (item? : Document.Accessor → Option (Item α)) : List (Key α) :=
  let found := channels.filterMap fun timed =>
    if timed.channel.node = node ∧ timed.channel.property = some property then
      (loaded.read? item? timed.sampler.output).map (keys timed)
    else none
  found.getLast?.getD []

/-- A clip with one channel for every node that the animation moves. -/
def clip (loaded : Loaded) (animation : Document.Animation) : Clip Single :=
  let channels := loaded.timed animation
  { name := animation.name.getD ""
    duration := (channels.filterMap (·.times.getLast?)).foldl Double.max 0
    ticksPerSecond := 1
    channels := (channels.map (·.channel.node)).eraseDups.map fun node => {
      node := loaded.document.nodeName node
      positions := loaded.lastKeys channels node .translation fun _ => some (Item.vec3 .single)
      rotations := loaded.lastKeys channels node .rotation rotation? } }

/-! ## Scenes -/

/-- The scene's node for a visit; the node above the top has no entry in the document. -/
def sceneNode (loaded : Loaded) (uses : List Document.Use) (position : Nat) : SourceNode Single :=
  match loaded.document.nodes[position]? with
  | none => { name := Scene.defaultRootName, transform := 1 }
  | some node => {
      name := loaded.document.nodeName position
      transform := node.transform
      meshes := (node.use?.map (loaded.document.meshNumbers uses)).getD [] }

/-- The nodes of a walk, each below the one that it was reached from. -/
def sceneNodes (loaded : Loaded) (uses : List Document.Use) (visits : List (Nat × Nat)) :
    Array (SourceNode Single) :=
  let parents := Links.parentNumbers [] 0 (visits.map (·.2))
  let scene : Scene Single := (visits.zip parents).foldl
    (fun scene (visit, parent) => scene.addNode parent (loaded.sceneNode uses visit.1)) {}
  scene.nodes

/-- The pieces that the visited nodes draw. -/
def pieces (loaded : Loaded) (visits : List (Nat × Nat)) : List Document.Piece :=
  (loaded.document.uses visits).flatMap loaded.document.pieces

/-! ## The walk -/

/-- Whether everything that a node draws can be read. -/
def readable (loaded : Loaded) (position : Nat) : Bool :=
  match loaded.document.nodes[position]? >>= Document.Node.use? with
  | none => true
  | some use => (loaded.document.pieces use).all fun piece => (loaded.mesh piece).isOk

/-- A walk under way: the positions to come with their depths, the next one first, and the visits so
far, the latest first. -/
structure Tour where
  coming : List (Nat × Nat)
  visited : List (Nat × Nat)

/-- The walk from the node above the top. -/
def start (loaded : Loaded) : Tour := ⟨[(loaded.document.nodes.size, 0)], []⟩

/-- Visit the next position. Its children come before everything else; behind a node that cannot be
read nothing comes. -/
def advance? (loaded : Loaded) (tour : Tour) : Option Tour :=
  match tour.coming with
  | [] => none
  | (position, depth) :: rest =>
    match loaded.document.children? position with
    | none => some { tour with coming := rest }
    | some children => some {
        coming := if loaded.readable position then children.map (·, depth + 1) ++ rest else []
        visited := (position, depth) :: tour.visited }

/-- Walk on for as long as something comes. No position is marked as visited, so a walk that comes
back to one that it is below has no end. -/
def explore (loaded : Loaded) (tour : Tour) : List (Nat × Nat) :=
  Id.run <| repeatM (fun tour => return match loaded.advance? tour with
    | none => .inr tour.visited.reverse
    | some next => .inl next) tour

/-- The visits of the walk. Without a cycle they are known from the document alone. -/
def visits (loaded : Loaded) : List (Nat × Nat) :=
  match loaded.document.visits? with
  | some visits => visits
  | none => loaded.explore loaded.start

def toScene (loaded : Loaded) : Except ConversionError (Scene Single) := do
  if loaded.document.nodes.isEmpty then throw .emptyScene
  let visits := loaded.visits
  let pieces := loaded.pieces visits
  let meshes ← (pieces.mapM loaded.mesh).mapError .notImported
  return {
    meshes := meshes.toArray
    materials := loaded.document.sourceMaterials pieces
    nodes := loaded.sceneNodes (loaded.document.uses visits) visits
    clips := loaded.document.animations.map loaded.clip }

/-- What the log says about meshes, up to the first that cannot be read. -/
def log (loaded : Loaded) : List LogLine :=
  let read := (loaded.pieces loaded.visits).takeWhile fun piece => (loaded.mesh piece).isOk
  read.flatMap loaded.meshLog

end Loaded

end SceneBaker.Gltf
