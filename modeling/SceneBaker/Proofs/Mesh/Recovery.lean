import SceneBaker.Proofs.Binary.Acceptance
import SceneBaker.Proofs.Mesh.Revision

/-! # Recovery of meshes

A mesh is read back with the bounds that were stored for it and is otherwise unchanged, provided its
vertices hold nothing outside the mesh's format and its bone indices come back from their numbers.
Every mesh that was read meets that.
-/

set_option linter.dupNamespace false

namespace SceneBaker.Mesh

open Number SceneBaker.Geometry Binary

/-- Without a flag for the second texture coordinates there are none. -/
theorem VertexFormat.recovers_decode {revision : Revision} {format : VertexFormat}
    (uv1 : revision.minor < 3 → format.uv1 = false) :
    (VertexFormat.decode revision.version).Recovers (format.encodeIn revision) format := by
  have flag (value : Bool) := Reader.recovers_bool value
  simp only [encodeIn, Output.append_assoc]
  refine (flag _).bind <| (flag _).bind <| (flag _).bind ?_
  cases revision with
  | latest =>
    exact (flag _).bind <| (flag _).bind <| (flag _).bind <| (flag _).bind <| (flag _).bind_pure _
  | unnumbered | plain | boxed | formatted =>
    refine ((Reader.Recovers.pure false).skip_bind <| (flag _).bind <| (flag _).bind <|
      (flag _).bind <| (flag _).bind_pure _).congr ?_
    rw [← uv1 (by simp [Revision.minor])]

/-- Reading a value that may be left out. -/
private theorem recovers_given {α : Type} {reader : Reader α} {output : Output} {a default : α}
    {stored : Bool} (recovers : stored = true → reader.Recovers output a) :
    (if stored = true then reader else pure default).Recovers
      (if stored = true then output else .empty) (if stored = true then a else default) := by
  cases stored with
  | false => exact .pure default
  | true => exact recovers rfl

private theorem given_append (stored : Bool) (first second : Output) :
    (if stored = true then first ++ second else Output.empty) =
      (if stored = true then first else .empty) ++ (if stored = true then second else .empty) := by
  cases stored <;> simp

namespace Vertex

/-- What remains of a vertex in a file of some format: the attributes of the format, with defaults
in place of the others. -/
def kept (format : VertexFormat) (vertex : Vertex) : Vertex where
  position := if format.position then vertex.position else 0
  normal := if format.normal then vertex.normal else 0
  uv0 := if format.uv0 then vertex.uv0 else 0
  uv1 := if format.uv1 then vertex.uv1 else 0
  color := if format.color then vertex.color else 0
  tangent := if format.tangent then vertex.tangent else 0
  bitangentSign := if format.tangent then vertex.bitangentSign else 1
  boneIndices := if format.bones then vertex.boneIndices else ⟨0, 0, 0, 0⟩
  boneWeights := if format.bones then vertex.boneWeights else ⟨0, 0, 0, 0⟩
  id := if format.ids then vertex.id else 0

private theorem recovers_boneIndices {indices : Vec4 UInt32}
    (storable : ∀ index ∈ indices.toList, Storable index) :
    (do return ⟨← Reader.index .bone, ← Reader.index .bone, ← Reader.index .bone,
      ← Reader.index .bone⟩ : Reader (Vec4 UInt32)).Recovers
      (.each indices.toList Output.index) indices := by
  obtain ⟨first, second, third, fourth⟩ := indices
  simp only [Vec4.toList, List.forall_mem_cons] at storable
  obtain ⟨first, second, third, fourth, -⟩ := storable
  exact (Reader.recovers_index first .bone).bind <| (Reader.recovers_index second .bone).bind <|
    (Reader.recovers_index third .bone).bind <| (Reader.recovers_index fourth .bone).bind (.pure _)

theorem recovers_decode (format : VertexFormat) (vertex : Vertex)
    (storable : format.bones = true → ∀ index ∈ vertex.boneIndices.toList, Storable index) :
    (Vertex.decode format).Recovers (vertex.encode format) (vertex.kept format) := by
  unfold Vertex.decode Vertex.encode
  simp only [given_append, Output.append_assoc]
  exact (recovers_given fun _ => Reader.recovers_vec3 _).bind <|
    (recovers_given fun _ => Reader.recovers_vec3 _).bind <|
    (recovers_given fun _ => Reader.recovers_vec2 _).bind <|
    (recovers_given fun _ => Reader.recovers_vec2 _).bind <|
    (recovers_given fun _ => Reader.recovers_u32 _).bind <|
    (recovers_given fun _ => Reader.recovers_vec3 _).bind <|
    (recovers_given fun _ => Reader.recovers_single _).bind <|
    (recovers_given fun stored => recovers_boneIndices (storable stored)).bind <|
    (recovers_given fun _ => Reader.recovers_vec4 _).bind <|
    (recovers_given fun _ => Reader.recovers_i32 _).bind_pure _

end Vertex

theorem Bounds.recovers_decode (bounds : Bounds) : Bounds.decode.Recovers bounds.encode bounds :=
  (Reader.recovers_vec3 _).bind ((Reader.recovers_vec3 _).bind_pure _)

theorem Primitive.ofCode_code (primitive : Primitive) : ofCode primitive.code = .ok primitive := by
  cases primitive <;> rfl

namespace Mesh

/-- The mesh with the bounds that are stored for it. -/
def boxed (mesh : Mesh) : Mesh := { mesh with bounds := some mesh.storedBounds }

/-- The mesh without bounds. -/
def unboxed (mesh : Mesh) : Mesh := { mesh with bounds := none }

/-- A mesh that a file can hold without loss, apart from absent bounds. -/
structure Encodable (mesh : Mesh) : Prop where
  vertexCount : mesh.vertices.length < 2 ^ 32
  kept : ∀ vertex ∈ mesh.vertices, vertex.kept mesh.format = vertex
  storable : mesh.format.bones = true →
    ∀ vertex ∈ mesh.vertices, ∀ index ∈ vertex.boneIndices.toList, Storable index

theorem recovers_decodeIn {revision : Revision} {mesh : Mesh} (encodable : mesh.Encodable)
    (expressible : mesh.Expressible revision) :
    (Mesh.decode revision.version revision.shared?).Recovers (mesh.encodeIn revision)
      (mesh.readIn revision) := by
  have vertices : (Reader.times (UInt32.ofNat mesh.vertices.length).toNat
      (Vertex.decode mesh.format)).Recovers
      (.each mesh.vertices (Vertex.encode mesh.format)) mesh.vertices := by
    rw [UInt32.toNat_ofNat_of_lt' encodable.vertexCount]
    refine (Reader.Recovers.times fun vertex member => Vertex.recovers_decode mesh.format vertex
      fun stored => encodable.storable stored vertex member).congr ?_
    simpa using List.map_congr_left encodable.kept
  have count := Reader.recovers_count encodable.vertexCount .vertex
  have bounds := (Bounds.recovers_decode mesh.storedBounds).map some
  have format := VertexFormat.recovers_decode expressible.uv1
  have primitive := Reader.Recovers.ofExcept (Primitive.ofCode_code mesh.primitive)
  unfold Mesh.decode Mesh.encodeIn
  simp only [Output.append_assoc]
  refine (Reader.recovers_u32 _).bind ?_
  cases revision with
  | unnumbered shared | plain shared =>
    obtain ⟨rfl, triangles⟩ := expressible.shared _ rfl
    refine ((Reader.Recovers.pure none).skip_bind <| (Reader.Recovers.pure _).skip_bind <|
      count.bind <| vertices.bind_pure _).congr ?_
    rw [readIn, ← triangles]
    rfl
  | boxed shared =>
    obtain ⟨rfl, triangles⟩ := expressible.shared _ rfl
    refine (bounds.bind <| (Reader.Recovers.pure _).skip_bind <|
      count.bind <| vertices.bind_pure _).congr ?_
    rw [readIn, ← triangles]
    rfl
  | formatted | latest =>
    exact bounds.bind <| format.bind <| (Reader.recovers_u8 _).bind <| primitive.skip_bind <|
      (Reader.Recovers.pure _).skip_bind <| count.bind <| vertices.bind_pure _

theorem recovers_decode {mesh : Mesh} (encodable : mesh.Encodable) :
    (Mesh.decode .current none).Recovers mesh.encode mesh.boxed := by
  rw [← mesh.encodeIn_latest]
  exact recovers_decodeIn encodable mesh.expressible_latest

@[simp] theorem unboxed_boxed (mesh : Mesh) : mesh.boxed.unboxed = mesh.unboxed := rfl

@[simp] theorem unboxed_readIn (revision : Revision) (mesh : Mesh) :
    (mesh.readIn revision).unboxed = mesh.unboxed := rfl

@[simp] theorem boxed_boxed (mesh : Mesh) : mesh.boxed.boxed = mesh.boxed := rfl

@[simp] theorem encode_boxed (mesh : Mesh) : mesh.boxed.encode = mesh.encode := rfl

end Mesh

/-! ## Meshes that were read -/

/-- A value that was left out is its default, and one that was read is what its reader ensures. -/
private theorem ensures_given {α : Type} {reader : Reader α} {P : α → Prop} {default : α}
    (stored : Bool) (read : reader.Ensures P) (absent : P default) :
    (if stored = true then reader else pure default).Ensures
      fun a => (if stored = true then a else default) = a ∧ P a := by
  cases stored with
  | false => exact .pure ⟨rfl, absent⟩
  | true => exact fun bytes a rest success => ⟨rfl, read bytes a rest success⟩

private theorem ensures_default {α : Type} (reader : Reader α) (default : α) (stored : Bool) :
    (if stored = true then reader else pure default).Ensures
      fun a => (if stored = true then a else default) = a :=
  fun _ _ _ success => (ensures_given stored (.trivial reader) .intro _ _ _ success).1

private theorem ensures_boneIndices :
    (do return ⟨← Reader.index .bone, ← Reader.index .bone, ← Reader.index .bone,
      ← Reader.index .bone⟩ : Reader (Vec4 UInt32)).Ensures
      fun indices => ∀ index ∈ indices.toList, Storable index := by
  have read := Reader.ensures_index .bone
  refine read.bind fun _ first => read.bind fun _ second => read.bind fun _ third =>
    read.bind fun _ fourth => .pure ?_
  simp [Vec4.toList, first, second, third, fourth]

theorem Vertex.ensures_decode (format : VertexFormat) :
    (Vertex.decode format).Ensures fun vertex =>
      vertex.kept format = vertex ∧ ∀ index ∈ vertex.boneIndices.toList, Storable index := by
  have zero : Storable 0 := storable_of_le (by decide)
  unfold Vertex.decode
  refine (ensures_default _ _ _).bind fun _ position => (ensures_default _ _ _).bind fun _ normal =>
    (ensures_default _ _ _).bind fun _ uv0 => (ensures_default _ _ _).bind fun _ uv1 =>
    (ensures_default _ _ _).bind fun _ color => (ensures_default _ _ _).bind fun _ tangent =>
    (ensures_default _ _ _).bind fun _ sign =>
    (ensures_given format.bones ensures_boneIndices (by simp [Vec4.toList, zero])).bind
      fun _ bones => (ensures_default _ _ _).bind fun _ weights =>
    (ensures_default _ _ _).bind fun _ id => .pure ⟨?_, bones.2⟩
  simp only [Vertex.kept, position, normal, uv0, uv1, color, tangent, sign, bones.1, weights, id]

theorem Mesh.ensures_decode (version : Version) (shared : Option VertexFormat) :
    (Mesh.decode version shared).Ensures Encodable := by
  have tail (format : VertexFormat) {f : List Vertex → Mesh}
      (same : ∀ vertices, (f vertices).vertices = vertices ∧ (f vertices).format = format) :
      Reader.Ensures (do return f (← Reader.times (← Reader.u32).toNat (Vertex.decode format)))
        Encodable := by
    refine .skip fun count => ((Vertex.ensures_decode format).times count.toNat).bind
      fun vertices read => .pure ⟨?_, ?_, ?_⟩
    · rw [(same vertices).1, read.1]
      exact count.toNat_lt
    · rw [(same vertices).1, (same vertices).2]
      exact fun vertex member => (read.2 vertex member).1
    · rw [(same vertices).1]
      exact fun _ vertex member => (read.2 vertex member).2
  refine .skip fun _ => .ite (fun _ => .skip fun _ => .ite ?_ ?_) fun _ => .skip fun _ => .ite ?_ ?_
  -- With and without bounds, the format and the primitive are stored or shared.
  all_goals intro _
  · exact .skip fun _ => .skip fun _ => .skip fun _ => .skip fun _ => tail _ fun _ => ⟨rfl, rfl⟩
  · exact .skip fun _ => tail _ fun _ => ⟨rfl, rfl⟩
  · exact .skip fun _ => .skip fun _ => .skip fun _ => .skip fun _ => tail _ fun _ => ⟨rfl, rfl⟩
  · exact .skip fun _ => tail _ fun _ => ⟨rfl, rfl⟩

end SceneBaker.Mesh
