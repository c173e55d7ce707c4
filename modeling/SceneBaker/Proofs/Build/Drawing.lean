import SceneBaker.Proofs.Build.Conversion
import SceneBaker.Proofs.Build.Slots
import Mathlib.Data.Multiset.Basic

/-! # What models draw

A model draws a tree of nodes, each with primitives. A primitive is drawn with the name of its
material and its corners in order, and a corner with what moves it, by the names of bones. So two
models can draw the same although they number materials, meshes, vertices, nodes and bones in other
ways. A model draws what its scene describes, corner by corner.
-/

set_option linter.dupNamespace false

namespace SceneBaker.Scene

variable {α : Type}

/-- Every vertex has a slot for each of its influences. -/
def SourceMesh.Slotted (mesh : SourceMesh α) : Prop :=
  ∀ vertex < mesh.positions.size, (influencesAt mesh.bones vertex).length ≤ Mesh.maxInfluences

/-- The meshes of nodes have numbers of 32 bits, and slots for all influences. -/
def Scene.Slotted (scene : Scene α) : Prop :=
  ∀ node ∈ scene.nodes, ∀ index ∈ node.meshes, index < 2 ^ 32 ∧
    ∀ mesh, scene.meshes[index]? = some mesh → mesh.Slotted

end SceneBaker.Scene

namespace SceneBaker.Build

open Number SceneBaker.Geometry Mesh Model Scene Steps

/-! ## Drawn trees -/

/-- A corner: its vertex with empty bone slots, and the names and weights of the bones in them. -/
structure DrawnCorner where
  vertex : Vertex
  influences : Multiset (Option String × Single)

structure DrawnPrimitive where
  material : Option String
  primitive : Primitive
  format : VertexFormat
  corners : List DrawnCorner

structure DrawnNode where
  name : String
  transform : DualQuat Single
  isBone : Bool
  /-- Whether it lists a mesh, be it one without primitives. -/
  filled : Bool
  primitives : Multiset DrawnPrimitive

/-- The vertices of a mesh by primitive. -/
def primitivesOf (mesh : Mesh.Mesh) : List (List Vertex) :=
  (List.range mesh.primitiveCount).map fun count =>
    (mesh.vertices.drop (count * mesh.primitive.corners)).take mesh.primitive.corners

/-- A slot with the weight zero is empty. -/
def drawnCorner (model : Model) (vertex : Vertex) : DrawnCorner where
  vertex := slotless vertex
  influences := ((vertex.influences.filter (·.2 ≠ 0)).map fun influence =>
    ((model.bone? influence.1).map (·.name), influence.2) : List (Option String × Single))

def drawnPrimitives (model : Model) (mesh : Mesh.Mesh) : List DrawnPrimitive :=
  (primitivesOf mesh).map fun vertices =>
    ⟨model.materials[mesh.material.toNat]?, mesh.primitive, mesh.format,
      vertices.map (drawnCorner model)⟩

def drawnNode (model : Model) (node : Node) : DrawnNode where
  name := node.name
  transform := node.transform
  isBone := node.isBone
  filled := !node.meshes.isEmpty
  primitives := (node.meshes.flatMap fun index =>
    (model.meshes[index.toNat]?).elim [] (drawnPrimitives model) : List DrawnPrimitive)

/-- The model's nodes stand as a tree and draw what the tree says. -/
def Draws (model : Model) (tree : Forest DrawnNode) : Prop :=
  ∃ positions, model.nodes.Spells positions ∧
    tree = positions.map fun position => drawnNode model (model.nodes.label position)

/-! ## What scenes describe -/

/-- A corner of a source mesh, its influences being those of the vertex. -/
def describedCorner (settings : Settings) (mesh : SourceMesh Single) (vertex : Nat) :
    DrawnCorner where
  vertex := cornerVertex mesh (vertexFormat mesh settings) none settings vertex
    (mesh.position vertex)
  influences := (if (vertexFormat mesh settings).bones then
    ((influencesAt mesh.bones vertex).filter (·.2 ≠ 0)).map fun influence =>
      (some influence.1, influence.2) else [] : List (Option String × Single))

/-- A primitive for every face of a source mesh. -/
def describedPrimitives (settings : Settings) (scene : Scene Single) (mesh : SourceMesh Single) :
    List DrawnPrimitive :=
  mesh.faces.map fun face =>
    ⟨scene.materials[mesh.material.toNat]?.map (·.name), mesh.primitive, vertexFormat mesh settings,
      (wound settings face).map fun corner => describedCorner settings mesh corner.toNat⟩

def describedNode (settings : Settings) (scene : Scene Single) (node : SourceNode Single) :
    DrawnNode where
  name := node.name
  transform := DualQuat.ofMatrix node.transform
  isBone := decide (node.name ∈ (Skeleton.collect scene settings).names)
  filled := !node.meshes.isEmpty
  primitives := (node.meshes.flatMap fun index =>
    (scene.meshes[index]?).elim [] (describedPrimitives settings scene) : List DrawnPrimitive)

/-- The node at a position of a scene; a bare one where there is none. -/
def describedAt (settings : Settings) (scene : Scene Single) (position : Nat) : DrawnNode :=
  describedNode settings scene (scene.nodes[position]?.getD ⟨"", 1, [], []⟩)

/-! ## Corners -/

variable {scene : Scene Single} {settings : Settings} {model : Model} {forest : Forest Nat}
  {source : SourceMesh Single}

/-- A corner of a built mesh is drawn as its source describes it. -/
theorem drawnCorner_cornerVertex {influences : Option (Array Influences)}
    (collected : Collected source (vertexFormat source settings) (Skeleton.collect scene settings)
      influences) (listed : source ∈ scene.meshes)
    (few : (Skeleton.collect scene settings).size ≤ 2 ^ 32)
    (same : model.skeleton = (Skeleton.collect scene settings).bones) {vertex : Nat}
    (inside : vertex < source.positions.size)
    (bound : (influencesAt source.bones vertex).length ≤ maxInfluences) :
    drawnCorner model (cornerVertex source (vertexFormat source settings) influences settings vertex
      (source.position vertex)) = describedCorner settings source vertex := by
  rw [drawnCorner, describedCorner, DrawnCorner.mk.injEq]
  refine ⟨rfl, congrArg _ ?_⟩
  have found (index : UInt32) : (model.bone? index).map (·.name) =
      (Skeleton.collect scene settings).name? index := by
    rw [Model.bone?, same]
    rfl
  simp only [found]
  rw [← stored, stored_cornerVertex collected listed few inside]
  split
  · rw [survivors, List.take_of_length_le bound]
  · rfl

/-! ## Primitives -/

theorem corners_pos (primitive : Primitive) : 0 < primitive.corners := by
  cases primitive <;> decide

/-- Cutting lists of one length out of what they were joined into. -/
theorem map_take_drop_flatten {α : Type} {count : Nat} (some : 0 < count) {parts : List (List α)}
    (full : ∀ part ∈ parts, part.length = count) :
    ((List.range (parts.flatten.length / count)).map fun position =>
      (parts.flatten.drop (position * count)).take count) = parts := by
  induction parts with
  | nil => simp
  | cons part parts ih =>
    obtain ⟨here, others⟩ := List.forall_mem_cons.mp full
    have length : (part :: parts).flatten.length / count = parts.flatten.length / count + 1 := by
      rw [List.flatten_cons, List.length_append, here, Nat.add_div_left _ some]
    have later (position : Nat) : (part :: parts).flatten.drop ((position + 1) * count) =
        parts.flatten.drop (position * count) := by
      rw [List.flatten_cons, Nat.succ_mul, Nat.add_comm, ← here, ← List.drop_drop, List.drop_left]
    rw [length, List.range_succ_eq_map, List.map_cons, List.map_map]
    congr 1
    · rw [Nat.zero_mul, List.drop_zero, List.flatten_cons, ← here, List.take_left]
    · simpa only [Function.comp_def, Nat.succ_eq_add_one, later] using ih others

/-- A built mesh is drawn as its source describes it. -/
theorem drawnPrimitives_of_buildMesh {mesh : Mesh.Mesh} (listed : source ∈ scene.meshes)
    (few : (Skeleton.collect scene settings).size ≤ 2 ^ 32) (slotted : source.Slotted)
    (skeleton : model.skeleton = (Skeleton.collect scene settings).bones)
    (materials : model.materials = (scene.materials.map (·.name)).toList)
    (success : buildMesh source (vertexFormat source settings) (Skeleton.collect scene settings)
      settings = .ok mesh) :
    drawnPrimitives model mesh = describedPrimitives settings scene source := by
  have outcome := buildsTo_buildMesh source (vertexFormat source settings)
    (Skeleton.collect scene settings) settings
  rw [success] at outcome
  cases outcome with
  | built influences collected faced cornered weighted =>
    have full : ∀ part ∈ source.faces.map
        (drawnFace source (vertexFormat source settings) influences settings),
        part.length = source.primitive.corners := by
      intro part member
      obtain ⟨face, among, rfl⟩ := List.mem_map.mp member
      rw [← faced face among, drawnFace, List.length_map, length_wound]
    have cut : primitivesOf (drawnMesh source (vertexFormat source settings) influences settings) =
        source.faces.map (drawnFace source (vertexFormat source settings) influences settings) :=
      map_take_drop_flatten (corners_pos _) full
    rw [drawnPrimitives, cut, describedPrimitives, List.map_map]
    refine List.map_congr_left fun face among => ?_
    have name : model.materials[source.material.toNat]? =
        scene.materials[source.material.toNat]?.map (·.name) := by
      rw [materials, Array.getElem?_toList, Array.getElem?_map]
    rw [Function.comp_apply, drawnFace, List.map_map, DrawnPrimitive.mk.injEq]
    refine ⟨name, rfl, rfl, List.map_congr_left fun corner member => ?_⟩
    have inside := cornered face among corner (mem_wound.mp member)
    exact drawnCorner_cornerVertex collected listed few skeleton inside (slotted _ inside)

/-! ## Nodes -/

/-- The meshes of a model are drawn as those of its scene describe them. -/
theorem elim_drawnPrimitives (success : buildModel scene settings = .ok model) {index : Nat}
    (slotted : ∀ mesh, scene.meshes[index]? = some mesh → mesh.Slotted) :
    (model.meshes[index]?).elim [] (drawnPrimitives model) =
      (scene.meshes[index]?).elim [] (describedPrimitives settings scene) := by
  obtain ⟨-, tree, meshes, planted, traversed, rfl⟩ := buildModel_eq_ok_iff.mp success
  have built := mapM_eq_ok_iff.mp traversed
  have length := built.length_eq
  rcases Nat.lt_or_ge index meshes.length with inside | outside
  · have present : index < scene.meshes.toList.length := length ▸ inside
    have made := List.Forall₂.get built present inside
    have source : scene.meshes[index]? = some (scene.meshes.toList.get ⟨index, present⟩) := by
      rw [← Array.getElem?_toList]
      exact List.getElem?_eq_getElem present
    have listed := Array.mem_of_getElem? source
    rw [source, List.getElem?_eq_getElem inside]
    exact drawnPrimitives_of_buildMesh listed (size_le_of_nodeTree_eq_ok planted)
      (slotted _ source) rfl rfl made
  · rw [List.getElem?_eq_none outside, Array.getElem?_eq_none (by rwa [← length] at outside)]
    rfl

/-- Built nodes are drawn as their sources describe them. -/
theorem map_drawnNode (unfolds : scene.links.Unfolds [0] forest) (distinct : forest.preorder.Nodup)
    (success : buildModel scene settings = .ok model) (slotted : scene.Slotted) :
    model.nodes.nodes.toList.map (drawnNode model) =
      (reached scene forest).map (describedNode settings scene) := by
  have numbered := numbered_of_buildModel_eq_ok unfolds distinct success
  -- A node is drawn by what numbering takes over from its source.
  let drawn (entry : String × DualQuat Single × List UInt32) : DrawnNode :=
    { name := entry.1
      transform := entry.2.1
      isBone := decide (entry.1 ∈ (Skeleton.collect scene settings).names)
      filled := !entry.2.2.isEmpty
      primitives := (entry.2.2.flatMap fun index =>
        (model.meshes[index.toNat]?).elim [] (drawnPrimitives model) : List DrawnPrimitive) }
  have nodes : model.nodes.nodes.toList.map (drawnNode model) =
      (model.nodes.nodes.toList.map fun node => (node.name, node.transform, node.meshes)).map
        drawn := by
    rw [List.map_map]
    refine List.map_congr_left fun node member => ?_
    have bone : node.isBone = decide (node.name ∈ (Skeleton.collect scene settings).names) := by
      rw [Bool.eq_iff_iff, decide_eq_true_iff]
      exact numbered.isBone_iff node member
    rw [drawnNode, bone]
    rfl
  rw [nodes, numbered.sources_eq, List.map_map]
  refine List.map_congr_left fun source member => ?_
  have listed := slotted source (mem_nodes_of_mem_reached member)
  have primitives : (source.meshes.map UInt32.ofNat).flatMap (fun index =>
        (model.meshes[index.toNat]?).elim [] (drawnPrimitives model)) =
      source.meshes.flatMap fun index =>
        (scene.meshes[index]?).elim [] (describedPrimitives settings scene) := by
    rw [List.flatMap_map]
    refine List.flatMap_congr fun index member => ?_
    obtain ⟨small, slotted⟩ := listed index member
    rw [UInt32.toNat_ofNat_of_lt' small, elim_drawnPrimitives success slotted]
  rw [describedNode, ← primitives, ← List.isEmpty_map]
  rfl

/-- A model draws the tree that its scene describes. -/
theorem draws_of_buildModel (unfolds : scene.links.Unfolds [0] forest)
    (distinct : forest.preorder.Nodup) (success : buildModel scene settings = .ok model)
    (slotted : scene.Slotted) :
    Draws model (forest.map (describedAt settings scene)) := by
  have nodes := map_drawnNode unfolds distinct success slotted
  obtain ⟨-, tree, meshes, planted, -, made⟩ := buildModel_eq_ok_iff.mp success
  obtain rfl : model.nodes = tree := by rw [← made]
  obtain ⟨spells, -⟩ := planted_of_nodeTree_eq_ok unfolds distinct planted
  refine ⟨forest.number 0, spells, Forest.ext_preorder 0 ?_ ?_⟩
  · rw [Forest.number_map, Forest.number_map, Forest.number_number]
  · have described : (reached scene forest).map (describedNode settings scene) =
        forest.preorder.map (describedAt settings scene) := by
      rw [reached, List.map_filterMap, ← List.filterMap_eq_map]
      refine List.filterMap_congr fun position member => ?_
      have found := Array.getElem?_eq_getElem (lt_size_of_unfolds unfolds member)
      rw [Function.comp_apply, describedAt, found]
      rfl
    have labels : (List.range model.nodes.size).map model.nodes.label =
        model.nodes.nodes.toList.map Node.bare := by
      refine List.ext_getElem (by simp [NodeTree.size]) fun position first second => ?_
      have inside : position < model.nodes.nodes.size := by simpa using second
      rw [List.getElem_map, List.getElem_map, List.getElem_range, Array.getElem_toList]
      exact NodeTree.label_eq (Array.getElem?_eq_getElem inside)
    have size : forest.size = model.nodes.size := by
      rw [← spells.size_eq, Forest.size_number]
    rw [Forest.preorder_map, Forest.preorder_map, Forest.preorder_number, ← described, ← nodes,
      size, ← List.range_eq_range']
    calc model.nodes.nodes.toList.map (drawnNode model)
        = (model.nodes.nodes.toList.map Node.bare).map (drawnNode model) := by
          rw [List.map_map]
          rfl
      _ = (List.range model.nodes.size).map
            fun position => drawnNode model (model.nodes.label position) := by
          rw [← labels, List.map_map]
          rfl

end SceneBaker.Build
