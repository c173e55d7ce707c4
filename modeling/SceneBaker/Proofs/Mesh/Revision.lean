import SceneBaker.Mesh.Basic
import SceneBaker.Proofs.Binary.Acceptance

/-! # Revisions of the mesh layout

Only the current revision is ever written. What the older ones store follows from their layout: boxes
came with minor revision 1, formats and primitives of single meshes with 2, and the flag of the
second texture coordinates with 3.
-/

set_option linter.dupNamespace false

namespace SceneBaker.Mesh

open Binary

/-- A revision of the file layout. Before minor revision 2 a model has one format for all of its
meshes. -/
inductive Revision where
  /-- Minor revision 0 behind the older magic, without a byte for it. -/
  | unnumbered (shared : VertexFormat)
  | plain (shared : VertexFormat)
  | boxed (shared : VertexFormat)
  | formatted
  | latest
deriving DecidableEq

namespace Revision

def minor : Revision → Nat
  | unnumbered _ => 0
  | plain _ => 0
  | boxed _ => 1
  | formatted => 2
  | latest => 3

def shared? : Revision → Option VertexFormat
  | unnumbered shared => some shared
  | plain shared => some shared
  | boxed shared => some shared
  | formatted => none
  | latest => none

def version (revision : Revision) : Version := ⟨3, UInt8.ofNat revision.minor⟩

@[simp] theorem version_latest : latest.version = .current := rfl

/-- A shared format exists before minor revision 2 and not since. -/
theorem isSome_shared?_iff (revision : Revision) : revision.shared?.isSome ↔ revision.minor < 2 := by
  cases revision <;> simp [shared?, minor]

end Revision

/-- The flags that a revision has. -/
def VertexFormat.encodeIn (revision : Revision) (format : VertexFormat) : Output :=
  .bool format.position ++ .bool format.normal ++ .bool format.uv0
    ++ (if 3 ≤ revision.minor then .bool format.uv1 else .empty)
    ++ .bool format.color ++ .bool format.tangent ++ .bool format.bones ++ .bool format.ids

theorem VertexFormat.encodeIn_latest (format : VertexFormat) :
    format.encodeIn .latest = format.encode := by
  simp [encodeIn, encode, flags, Revision.minor, Output.append_assoc]

namespace Mesh

/-- A mesh in the layout of a revision. -/
def encodeIn (revision : Revision) (mesh : Mesh) : Output :=
  .u32 mesh.material
    ++ (if 1 ≤ revision.minor then mesh.storedBounds.encode else .empty)
    ++ (if 2 ≤ revision.minor then mesh.format.encodeIn revision else .empty)
    ++ (if 2 ≤ revision.minor then .u8 mesh.primitive.code else .empty)
    ++ .count .vertex mesh.vertices.length ++ .each mesh.vertices (Vertex.encode mesh.format)

/-- A mesh that a revision has a place for all of. -/
structure Expressible (revision : Revision) (mesh : Mesh) : Prop where
  shared : ∀ shared, revision.shared? = some shared →
    mesh.format = shared ∧ mesh.primitive = .triangles
  uv1 : revision.minor < 3 → mesh.format.uv1 = false

/-- The mesh as it is read from a file of a revision. -/
def readIn (revision : Revision) (mesh : Mesh) : Mesh :=
  { mesh with bounds := if 1 ≤ revision.minor then some mesh.storedBounds else none }

theorem bounds_readIn_eq_none_iff {revision : Revision} (mesh : Mesh) :
    (mesh.readIn revision).bounds = none ↔ revision.minor = 0 := by
  cases revision <;> simp [readIn, Revision.minor]

theorem encodeIn_latest (mesh : Mesh) : mesh.encodeIn .latest = mesh.encode := by
  rw [encodeIn, encode, mesh.format.encodeIn_latest]
  rfl

theorem expressible_latest (mesh : Mesh) : mesh.Expressible .latest where
  shared _ none := nomatch none
  uv1 older := absurd older (Nat.lt_irrefl _)

end Mesh

end SceneBaker.Mesh
