import SceneBaker.Proofs.Geometry.Reflection
import SceneBaker.Proofs.Scene.World
import SceneBaker.Scene.Transform

/-! # Mirror images of scenes

In exact arithmetic the mirrored scene is the reflection of the scene: transforms are conjugated with
the reflection at every level of the hierarchy, in bones and in animation keys, vertices stand at the
mirror images of where they stood, and faces turn around. The mirror image of that is the scene.
-/

set_option linter.dupNamespace false

namespace SceneBaker.Scene

open Number SceneBaker.Geometry Mat4

variable {R : Type} [CommRing R]

/-- A mesh and its mirror image. -/
structure SourceMesh.Mirrored (before after : SourceMesh R) : Prop where
  positions : after.positions = before.positions.map mirrorZ.transformPoint
  normals : after.normals = before.normals.map (·.map Vec3.mirrorZ)
  tangents : after.tangents = before.tangents.map (·.map Vec3.mirrorZ)
  bitangents : after.bitangents = before.bitangents.map (·.map Vec3.mirrorZ)
  faces : after.faces = before.faces.map List.reverse
  bones : after.bones =
    before.bones.map fun bone => { bone with offset := mirrorZ * bone.offset * mirrorZ }
  name : after.name = before.name
  material : after.material = before.material
  primitive : after.primitive = before.primitive
  uv0 : after.uv0 = before.uv0
  uv1 : after.uv1 = before.uv1
  colors : after.colors = before.colors

/-- The matrix of the rotation of a key. -/
def Key.rotation (key : Key (Quat R)) : Mat4 R := ofLinear (Mat3.ofQuat key.value)

/-- A channel and the one that moves the mirror image. -/
structure Channel.Mirrored (before after : Channel R) : Prop where
  node : after.node = before.node
  positions : after.positions =
    before.positions.map fun key => { key with value := mirrorZ.transformPoint key.value }
  rotations : List.Forall₂ (fun key other => other.time = key.time ∧
    other.rotation = mirrorZ * key.rotation * mirrorZ) before.rotations after.rotations

structure Clip.Mirrored (before after : Clip R) : Prop where
  name : after.name = before.name
  duration : after.duration = before.duration
  ticksPerSecond : after.ticksPerSecond = before.ticksPerSecond
  channels : List.Forall₂ Channel.Mirrored before.channels after.channels

namespace Scene

variable {scene : Scene R}

/-! ## Hierarchies -/

theorem getElem?_nodes_mirror (scene : Scene R) (position : Nat) : scene.mirror.nodes[position]? =
    scene.nodes[position]?.map fun node => { node with transform := mirrorMatrix node.transform } :=
  Array.getElem?_map ..

theorem links_mirror (scene : Scene R) : scene.mirror.links = scene.links := by
  rw [links, mirror, Array.map_map]
  rfl

theorem World.mirror {position : Nat} {world : Mat4 R} (derived : scene.World position world) :
    scene.mirror.World position (mirrorZ * world * mirrorZ) := by
  induction derived with
  | root found =>
    have again := getElem?_nodes_mirror scene 0
    rw [found] at again
    have derived := World.root again
    exact derived
  | @child parent position node world upper above found ih =>
    have again := getElem?_nodes_mirror scene position
    rw [found] at again
    rw [← links_mirror scene] at above
    have derived := ih.child above again
    rw [reflect_mul]
    exact derived

theorem placeWorld_mirror (scene : Scene R) (worlds : Array (Mat4 R)) (position : Nat) :
    scene.mirror.placeWorld (worlds.map mirrorMatrix) position =
      (scene.placeWorld worlds position).map mirrorMatrix := by
  have parents : scene.mirror.parents = scene.parents := congrArg Links.parents (links_mirror scene)
  rw [placeWorld, placeWorld, parents, getElem?_nodes_mirror]
  cases scene.nodes[position]? with
  | none => rfl
  | some node =>
    rw [Option.map_some, Array.map_setIfInBounds]
    cases scene.parents[position]?.join with
    | none => rfl
    | some parent =>
      have above : (worlds.map mirrorMatrix)[parent]?.getD 1 =
          mirrorMatrix (worlds[parent]?.getD 1) := by
        rw [Array.getElem?_map]
        cases worlds[parent]? with
        | none => exact reflect_one.symm
        | some world => rfl
      have product : mirrorMatrix (worlds[parent]?.getD 1 * node.transform) =
          mirrorMatrix (worlds[parent]?.getD 1) * mirrorMatrix node.transform := reflect_mul ..
      simp only [above, product]

/-- All world transforms are conjugated, also those of nodes that the root does not reach. -/
theorem worldTransforms_mirror (scene : Scene R) :
    scene.mirror.worldTransforms = scene.worldTransforms.map mirrorMatrix := by
  have start : Array.replicate scene.mirror.nodes.size (1 : Mat4 R) =
      (Array.replicate scene.nodes.size 1).map mirrorMatrix := by
    have one : mirrorMatrix (1 : Mat4 R) = 1 := reflect_one
    rw [Array.map_replicate, one, mirror, Array.size_map]
  have order : scene.mirror.preorder = scene.preorder := by
    rw [Scene.preorder, links_mirror, Scene.preorder]
  rw [worldTransforms_eq, worldTransforms_eq, start, order]
  exact List.foldl_hom _ fun worlds position => placeWorld_mirror scene worlds position

/-! ## Twice -/

theorem mirrorRotation_mirrorRotation (q : Quat R) : mirrorRotation (mirrorRotation q) = q := by
  simp only [mirrorRotation, neg_neg]

theorem mirrorMatrix_mirrorMatrix (m : Mat4 R) : mirrorMatrix (mirrorMatrix m) = m := reflect_reflect m

/-- The mirror image of the mirror image is the scene. -/
theorem mirror_mirror (scene : Scene R) : scene.mirror.mirror = scene := by
  have directions (values : Option (Array (Vec3 R))) :
      (values.map (·.map Vec3.mirrorZ)).map (·.map Vec3.mirrorZ) = values := by
    cases values with
    | none => rfl
    | some values => simp [Function.comp_def]
  simp [mirror, SourceMesh.reverseFaces, Function.comp_def, mirrorMatrix_mirrorMatrix,
    mirrorRotation_mirrorRotation, directions]

/-! ## What a scene shows -/

/-- Where the vertices of a node's meshes stand in the scene. -/
def seen (scene : Scene R) (position : Nat) : List (Option (Array (Vec3 R))) :=
  match scene.nodes[position]?, scene.worldTransforms[position]? with
  | some node, some world => node.meshes.map fun index =>
    scene.meshes[index]?.map fun mesh => mesh.positions.map world.transformPoint
  | _, _ => []

/-- The products of all world transforms with all bone offsets. -/
def posed (scene : Scene R) : List (Mat4 R) :=
  scene.worldTransforms.toList.flatMap fun world => scene.meshes.toList.flatMap fun mesh =>
    mesh.bones.map fun bone => world * bone.offset

/-- The keys of all channels. -/
def keysOf {β : Type} (keys : Channel R → List (Key β)) (scene : Scene R) : List (Key β) :=
  scene.clips.flatMap fun clip => clip.channels.flatMap keys

/-- The matrices of translation and rotation of all pairs of keys. -/
def keyed (scene : Scene R) : List (Mat4 R) :=
  (scene.keysOf (·.positions)).flatMap fun position =>
    (scene.keysOf (·.rotations)).map fun rotation =>
      ofTranslation position.value * rotation.rotation

theorem seen_mirror (scene : Scene R) (position : Nat) : scene.mirror.seen position =
    (scene.seen position).map (·.map (·.map mirrorZ.transformPoint)) := by
  rw [seen, seen, getElem?_nodes_mirror, worldTransforms_mirror, Array.getElem?_map]
  cases scene.nodes[position]? with
  | none => rfl
  | some node =>
    cases scene.worldTransforms[position]? with
    | none => rfl
    | some world =>
      simp only [Option.map_some, List.map_map, Function.comp_def]
      refine List.map_congr_left fun index _ => ?_
      have mesh : scene.mirror.meshes[index]? = _ := Array.getElem?_map ..
      have points (p : Vec3 R) : (mirrorMatrix world).transformPoint p.mirrorZ =
          mirrorZ.transformPoint (world.transformPoint p) := by
        rw [mirrorZ_transformPoint]
        exact reflect_transformPoint world p
      rw [mesh]
      cases scene.meshes[index]? with
      | none => rfl
      | some mesh => simp [Function.comp_def, points]

theorem posed_mirror (scene : Scene R) :
    scene.mirror.posed = scene.posed.map mirrorMatrix := by
  have product (world offset : Mat4 R) :
      mirrorMatrix world * mirrorMatrix offset = mirrorMatrix (world * offset) :=
    (reflect_mul world offset).symm
  rw [posed, posed, worldTransforms_mirror, mirror]
  simp [List.flatMap_map, List.map_flatMap, Function.comp_def, product]

theorem keyed_mirror (scene : Scene R) :
    scene.mirror.keyed = scene.keyed.map mirrorMatrix := by
  have product (t : Vec3 R) (q : Quat R) :
      ofTranslation t.mirrorZ * ofLinear (Mat3.ofQuat (mirrorRotation q)) =
        mirrorMatrix (ofTranslation t * ofLinear (Mat3.ofQuat q)) := by
    have conjugated := reflect_mul (ofTranslation t) (ofLinear (Mat3.ofQuat q))
    rw [reflect_ofTranslation, reflect_ofQuat] at conjugated
    exact conjugated.symm
  have positions : scene.mirror.keysOf (·.positions) = (scene.keysOf (·.positions)).map fun key =>
      { key with value := key.value.mirrorZ } := by
    simp [keysOf, mirror, List.flatMap_map, List.map_flatMap]
  have rotations : scene.mirror.keysOf (·.rotations) = (scene.keysOf (·.rotations)).map fun key =>
      { key with value := mirrorRotation key.value } := by
    simp [keysOf, mirror, List.flatMap_map, List.map_flatMap]
  rw [keyed, keyed, positions, rotations]
  simp [Key.rotation, List.flatMap_map, List.map_flatMap, Function.comp_def, product]

/-! ## Mirror images -/

/-- A scene and its reflection in the plane `z = 0`. -/
structure Mirrored (scene after : Scene R) : Prop where
  nodes : after.nodes.map (fun node => (node.name, node.meshes, node.children)) =
    scene.nodes.map fun node => (node.name, node.meshes, node.children)
  materials : after.materials = scene.materials
  worlds : ∀ position world, scene.World position world ↔
    after.World position (mirrorZ * world * mirrorZ)
  worldTransforms : after.worldTransforms =
    scene.worldTransforms.map fun world => mirrorZ * world * mirrorZ
  meshes : List.Forall₂ SourceMesh.Mirrored scene.meshes.toList after.meshes.toList
  seen : ∀ position, after.seen position =
    (scene.seen position).map (·.map (·.map mirrorZ.transformPoint))
  posed : after.posed = scene.posed.map fun product => mirrorZ * product * mirrorZ
  clips : List.Forall₂ Clip.Mirrored scene.clips after.clips
  keyed : after.keyed = scene.keyed.map fun motion => mirrorZ * motion * mirrorZ

theorem forall₂_meshes_mirror (scene : Scene R) :
    List.Forall₂ SourceMesh.Mirrored scene.meshes.toList scene.mirror.meshes.toList := by
  rw [mirror, Array.toList_map, List.forall₂_map_right_iff]
  refine List.forall₂_same.mpr fun mesh _ => ?_
  constructor
  case positions => rw [mirrorZ_transformPoint]
  all_goals rfl

theorem forall₂_clips_mirror (scene : Scene R) :
    List.Forall₂ Clip.Mirrored scene.clips scene.mirror.clips := by
  rw [mirror, List.forall₂_map_right_iff]
  refine List.forall₂_same.mpr fun clip _ => ⟨rfl, rfl, rfl, ?_⟩
  rw [List.forall₂_map_right_iff]
  refine List.forall₂_same.mpr fun channel _ => ⟨rfl, by rw [mirrorZ_transformPoint], ?_⟩
  rw [List.forall₂_map_right_iff]
  exact List.forall₂_same.mpr fun key _ => ⟨rfl, (reflect_ofQuat key.value).symm⟩

/-- Mirroring a scene reflects it, and mirroring it again gives it back. -/
theorem mirrored_mirror (scene : Scene R) :
    Mirrored scene scene.mirror ∧ scene.mirror.mirror = scene := by
  refine ⟨?_, mirror_mirror scene⟩
  constructor
  case nodes =>
    rw [mirror, Array.map_map]
    rfl
  case materials => rfl
  case worlds =>
    refine fun position world => ⟨World.mirror, fun derived => ?_⟩
    have again := derived.mirror
    rwa [reflect_reflect, mirror_mirror] at again
  case worldTransforms => exact worldTransforms_mirror scene
  case meshes => exact forall₂_meshes_mirror scene
  case seen => exact seen_mirror scene
  case posed => exact posed_mirror scene
  case clips => exact forall₂_clips_mirror scene
  case keyed => exact keyed_mirror scene

end Scene

end SceneBaker.Scene
