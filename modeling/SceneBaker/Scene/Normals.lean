import SceneBaker.Scene.Basic
import SceneBaker.Settings
import Std.Data.HashMap

/-! # Normals and tangents

Triangle meshes without normals get flat or smooth ones, and those with normals and texture
coordinates get tangents. Faces that are no triangles of existing vertices contribute nothing; with
such a face a mesh gets no flat normals at all.
-/

namespace SceneBaker.Scene

open Number SceneBaker.Geometry

instance : Hashable Single := ⟨fun x => hash x.bits⟩

instance : Hashable (Vec3 Single) := ⟨fun v => mixHash (hash v.x) (mixHash (hash v.y) (hash v.z))⟩

namespace SourceMesh

/-- The corners of a face, if it is a triangle of existing vertices. -/
def triangle? {α : Type} (mesh : SourceMesh α) : List UInt32 → Option (Nat × Nat × Nat)
  | [a, b, c] =>
    let count := mesh.positions.size
    if a.toNat < count ∧ b.toNat < count ∧ c.toNat < count then
      some (a.toNat, b.toNat, c.toNat)
    else none
  | _ => none

/-- All valid triangles, in the order of the faces. -/
def triangles {α : Type} (mesh : SourceMesh α) : List (Nat × Nat × Nat) :=
  mesh.faces.filterMap mesh.triangle?

def position {α : Type} [Zero α] (mesh : SourceMesh α) (vertex : Nat) : Vec3 α :=
  mesh.positions[vertex]?.getD 0

/-- A vector at right angles to a triangle, twice as long as its area. -/
def areaNormal {α : Type} [Zero α] [Sub α] [Mul α] (mesh : SourceMesh α) :
    Nat × Nat × Nat → Vec3 α
  | (a, b, c) =>
    (mesh.position b - mesh.position a).cross (mesh.position c - mesh.position a)

/-! ## Smooth normals -/

/-- Sums of the area normals of all triangles at a position, by the bits of the position. -/
def weldedNormals (mesh : SourceMesh Single) : Std.HashMap (Vec3 Single) (Vec3 Single) :=
  mesh.triangles.foldl
    (fun sums corners =>
      let normal := mesh.areaNormal corners
      [corners.1, corners.2.1, corners.2.2].foldl
        (fun sums corner =>
          let place := mesh.position corner
          sums.insert place (sums.getD place 0 + normal))
        sums)
    ∅

/-- One normal per vertex; vertices at one position share theirs. -/
def withSmoothNormals (mesh : SourceMesh Single) : SourceMesh Single :=
  let sums := mesh.weldedNormals
  { mesh with
    normals := some <| mesh.positions.map fun place =>
      match sums[place]? with
      | some sum => sum.normalizeOrZero
      | none => 0 }

/-! ## Flat normals -/

/-- For every vertex its copies, if vertex `k` of the new mesh is a copy of `sources[k]`. -/
def copies (count : Nat) (sources : List Nat) : Array (List UInt32) :=
  sources.zipIdx.foldl
    (fun copies (source, copy) => copies.modify source (· ++ [UInt32.ofNat copy]))
    (Array.replicate count [])

/-- A mesh whose vertex `k` is a copy of the old vertex `sources[k]`, with the faces and normals
given. Weights go to all copies of their vertex. -/
def unshare (mesh : SourceMesh Single) (sources : List Nat) (faces : List (List UInt32))
    (normals : List (Vec3 Single)) : SourceMesh Single :=
  let pick {β : Type} (default : β) (values : Array β) : Array β :=
    (sources.map fun source => values[source]?.getD default).toArray
  let copies := copies mesh.positions.size sources
  { mesh with
    positions := pick 0 mesh.positions
    normals := some normals.toArray
    uv0 := mesh.uv0.map (pick 0)
    uv1 := mesh.uv1.map (pick 0)
    colors := mesh.colors.map (pick ⟨0, 0, 0, 0⟩)
    tangents := mesh.tangents.map (pick 0)
    bitangents := mesh.bitangents.map (pick 0)
    faces
    bones := mesh.bones.map fun bone =>
      { bone with
        weights := bone.weights.flatMap fun weight =>
          (copies[weight.vertex.toNat]?.getD []).map fun vertex => { weight with vertex } } }

/-- Whether all faces are triangles of existing vertices. -/
def allTriangles {α : Type} (mesh : SourceMesh α) : Bool :=
  mesh.faces.all fun face => (mesh.triangle? face).isSome

/-- One normal per face, which takes three vertices for every face. A mesh with other faces than
triangles stays as it is. -/
def withFlatNormals (mesh : SourceMesh Single) : SourceMesh Single :=
  if mesh.allTriangles then
    let triangles := mesh.triangles
    let sources := triangles.flatMap fun (a, b, c) => [a, b, c]
    let faces := (List.range triangles.length).map fun face =>
      [UInt32.ofNat (3 * face), UInt32.ofNat (3 * face + 1), UInt32.ofNat (3 * face + 2)]
    let normals := triangles.flatMap fun corners =>
      List.replicate 3 (mesh.areaNormal corners).normalizeOrZero
    mesh.unshare sources faces normals
  else mesh

/-- Whether a mesh is one that gets normals. -/
def lacksNormals {α : Type} (mesh : SourceMesh α) : Bool :=
  mesh.normals.isNone && mesh.primitive == .triangles

def withNormals (mode : NormalMode) (mesh : SourceMesh Single) : SourceMesh Single :=
  if mesh.lacksNormals then
    match mode with
    | .none => mesh
    | .flat => mesh.withFlatNormals
    | .smooth => mesh.withSmoothNormals
  else mesh

/-! ## Tangents -/

/-- Tangent and bitangent of a triangle by its texture coordinates; none where those span no
area. -/
def areaTangents? (mesh : SourceMesh Single) (uvs : Array (Vec2 Single)) :
    Nat × Nat × Nat → Option (Vec3 Single × Vec3 Single)
  | (a, b, c) => do
    let uvA ← uvs[a]?
    let uvB ← uvs[b]?
    let uvC ← uvs[c]?
    let e1 := mesh.position b - mesh.position a
    let e2 := mesh.position c - mesh.position a
    let d1 := uvB - uvA
    let d2 := uvC - uvA
    let determinant := d1.x * d2.y - d2.x * d1.y
    let smallest : Single := ⟨0x34000000⟩
    if determinant.abs < smallest then none
    else
      let inverse := 1 / determinant
      some ((e1 * d2.y - e2 * d1.y) * inverse, (e2 * d1.x - e1 * d2.x) * inverse)

/-- Sums of tangents and bitangents of the triangles at every vertex. -/
def tangentSums (mesh : SourceMesh Single) (uvs : Array (Vec2 Single)) :
    Array (Vec3 Single × Vec3 Single) :=
  mesh.triangles.foldl
    (fun sums corners =>
      match mesh.areaTangents? uvs corners with
      | none => sums
      | some (tangent, bitangent) =>
        [corners.1, corners.2.1, corners.2.2].foldl
          (fun sums corner => sums.modify corner fun (t, b) => (t + tangent, b + bitangent)) sums)
    (Array.replicate mesh.positions.size (0, 0))

/-- Unit tangent at right angles to a normal, and unit bitangent, from their sums. -/
def frame (normal : Vec3 Single) (sums : Vec3 Single × Vec3 Single) :
    Vec3 Single × Vec3 Single :=
  let projected := (sums.1 - normal * normal.dot sums.1).normalizeOrZero
  let tangent := if projected.numEq 0 then normal.orthogonal.normalizeOrZero else projected
  let unit := sums.2.normalizeOrZero
  (tangent, if unit.numEq 0 then normal.cross tangent else unit)

/-- Whether a mesh is one that gets tangents. -/
def lacksTangents {α : Type} (mesh : SourceMesh α) : Bool :=
  !mesh.hasTangents && mesh.primitive == .triangles && mesh.normals.isSome && mesh.uv0.isSome

def withTangents (mesh : SourceMesh Single) : SourceMesh Single :=
  match mesh.lacksTangents, mesh.normals, mesh.uv0 with
  | true, some normals, some uvs =>
    let frames := (mesh.tangentSums uvs).mapIdx fun vertex sums =>
      frame (normals[vertex]?.getD 0) sums
    { mesh with tangents := some (frames.map (·.1)), bitangents := some (frames.map (·.2)) }
  | _, _, _ => mesh

end SourceMesh

namespace Scene

def generateNormals (scene : Scene Single) (mode : NormalMode) : Scene Single :=
  { scene with meshes := scene.meshes.map (·.withNormals mode) }

def generateTangents (scene : Scene Single) : Scene Single :=
  { scene with meshes := scene.meshes.map (·.withTangents) }

end Scene

end SceneBaker.Scene
