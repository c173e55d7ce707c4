import SceneBaker.Proofs.Model.RoundTrip

/-! # Older revisions

A model whose meshes an older revision has a place for is read back from the layout of that revision.
It then has the version and the shared format of the file, and boxes where the revision has them.
Versions other than the four revisions are refused, whatever follows them.
-/

set_option linter.dupNamespace false

namespace SceneBaker

open Binary

namespace Mesh.Revision

/-- The magic and the version of a file. -/
def header : Revision → Output
  | unnumbered _ => .ofBytes [0x62, 0x62, 0x6d, 0x6f, 0x64, 0, 3]
  | revision => .ofBytes [0x42, 0x42, 0x4d, 0x4f, 0x44, 0, 3, UInt8.ofNat revision.minor]

theorem recovers_header (revision : Revision) :
    Model.Model.decodeVersion.Recovers revision.header revision.version := by
  cases revision <;> exact ⟨rfl, fun rest => rfl⟩

end Mesh.Revision

namespace Model.Model

open Mesh

/-- A model in the layout of a revision. -/
def encodeIn (revision : Revision) (model : Model) : Output :=
  revision.header
    ++ (revision.shared?.elim .empty fun shared => shared.encodeIn revision)
    ++ model.encodeTables (Mesh.encodeIn revision)

/-- A model that a revision has a place for all of. -/
structure Expressible (revision : Revision) (model : Model) : Prop where
  /-- The shared format lies within the revision even if there is no mesh. -/
  shared : ∀ shared, revision.shared? = some shared → shared.uv1 = false
  meshes : ∀ mesh ∈ model.meshes, mesh.Expressible revision

/-- The model as it is read from a file of a revision. -/
def readIn (revision : Revision) (model : Model) : Model :=
  { model with
    version := revision.version
    sharedFormat := revision.shared?
    meshes := model.meshes.map (Mesh.readIn revision) }

variable {revision : Revision} {model : Model}

/-- The format that stands in front of the tables before minor revision 2. -/
theorem recovers_shared (uv1 : ∀ shared, revision.shared? = some shared → shared.uv1 = false) :
    (if revision.version.minor < Mesh.formatMinor then
        some <$> VertexFormat.decode revision.version else pure none).Recovers
      (revision.shared?.elim .empty fun shared => shared.encodeIn revision) revision.shared? := by
  cases revision with
  | unnumbered shared | plain shared | boxed shared =>
    exact (VertexFormat.recovers_decode fun _ => uv1 shared rfl).map some
  | formatted | latest => exact .pure none

theorem recovers_decodeIn {forest : Forest Nat} (spells : model.nodes.Spells forest)
    (rooted : 0 < model.nodes.size)
    (inOrder : .ofForest (forest.map model.nodes.label) = model.nodes)
    (encodable : model.Encodable) (indexed : model.Indexed) (named : model.Named)
    (expressible : model.Expressible revision) :
    Model.decode.Recovers (model.encodeIn revision) (model.readIn revision) := by
  have tables := recovers_decodeTables spells rooted encodable indexed named
    (Mesh.unboxed_readIn revision) fun mesh member =>
      Mesh.recovers_decodeIn (encodable.meshes mesh member) (expressible.meshes mesh member)
  rw [inOrder] at tables
  rw [decode_eq, encodeIn, Output.append_assoc]
  exact revision.recovers_header.bind ((recovers_shared expressible.shared).bind tables)

/-- A version that is none of the four revisions. -/
theorem supported_eq_false_iff {version : Version} :
    version.supported = false ↔ ¬ (version.major = 3 ∧ version.minor.toNat ≤ 3) := by
  have minor : version.minor ≤ 3 ↔ version.minor.toNat ≤ 3 := UInt8.le_iff_toNat_le
  simp [Version.supported, Version.current, minor]

/-- Nothing is read behind a version that is refused. -/
theorem ofBytes_of_refused {bytes : List UInt8} {cause : CodecError}
    (refused : decodeVersion bytes = .error cause) : Model.ofBytes bytes = .error cause := by
  rw [ofBytes, Reader.run, decode_eq, Reader.bind_apply, refused]
  rfl

/-- The check behind both magics. -/
private def checkVersion (version : Version) : Reader Version :=
  if version.supported then pure version else .fail (.unsupportedVersion version)

private theorem decodeVersion_numbered (major minor : UInt8) (rest : List UInt8) :
    decodeVersion ([0x42, 0x42, 0x4d, 0x4f, 0x44, 0, major, minor] ++ rest) =
      checkVersion ⟨major, minor⟩ rest := by
  have first : Reader.u8 (major :: minor :: rest) = .ok (major, minor :: rest) :=
    (Reader.recovers_u8 major).reads _
  have second : Reader.u8 (minor :: rest) = .ok (minor, rest) := (Reader.recovers_u8 minor).reads _
  change (Reader.u8 >>= fun major => Reader.u8 >>= fun minor => checkVersion ⟨major, minor⟩)
    (major :: minor :: rest) = _
  rw [Reader.bind_apply, first]
  dsimp only
  rw [Reader.bind_apply, second]

private theorem decodeVersion_unnumbered (major : UInt8) (rest : List UInt8) :
    decodeVersion ([0x62, 0x62, 0x6d, 0x6f, 0x64, 0, major] ++ rest) =
      checkVersion ⟨major, 0⟩ rest := by
  have first : Reader.u8 (major :: rest) = .ok (major, rest) := (Reader.recovers_u8 major).reads _
  change (Reader.u8 >>= fun major => checkVersion ⟨major, 0⟩) (major :: rest) = _
  rw [Reader.bind_apply, first]

private theorem checkVersion_of_other {version : Version}
    (other : ¬ (version.major = 3 ∧ version.minor.toNat ≤ 3)) (rest : List UInt8) :
    checkVersion version rest = .error (.unsupportedVersion version) := by
  rw [checkVersion, supported_eq_false_iff.mpr other]
  rfl

/-- A valid model in preorder that a revision has a place for all of is read back from its layout.
Every other version is refused and named, under both magics and whatever follows. -/
theorem ofBytes_encodeIn :
    (∀ (revision : Revision) (model : Model), model.nodes.Grown → model.validate = .ok () →
      model.nodes.visits.map (·.1) = List.range model.nodes.size → model.Portable → model.Named →
      model.Expressible revision →
      ∃ bytes decoded, (model.encodeIn revision).result = .ok bytes ∧
        Model.ofBytes bytes = .ok decoded ∧ decoded = model.readIn revision ∧
        (decoded.sharedFormat.isSome ↔ revision.minor < 2) ∧
        ∀ mesh ∈ decoded.meshes, (mesh.bounds = none ↔ revision.minor = 0) ∧
          (revision.minor < 3 → mesh.format.uv1 = false) ∧
          ∀ shared, decoded.sharedFormat = some shared → mesh.format = shared) ∧
    (∀ (major minor : UInt8) (rest : List UInt8), ¬ (major = 3 ∧ minor.toNat ≤ 3) →
      Model.ofBytes ([0x42, 0x42, 0x4d, 0x4f, 0x44, 0, major, minor] ++ rest) =
        .error (.unsupportedVersion ⟨major, minor⟩)) ∧
    ∀ (major : UInt8) (rest : List UInt8), major ≠ 3 →
      Model.ofBytes ([0x62, 0x62, 0x6d, 0x6f, 0x64, 0, major] ++ rest) =
        .error (.unsupportedVersion ⟨major, 0⟩) := by
  refine ⟨?recovery, ?numbered, ?unnumbered⟩
  case recovery =>
    intro revision model grown valid inOrder portable named expressible
    obtain ⟨forest, spells⟩ := grown.exists_spells
    have recovers := recovers_decodeIn spells grown.rooted (spells.ofForest_map_label inOrder)
      portable.encodable (validate_eq_ok_iff.mp valid) named expressible
    refine ⟨_, _, Output.result_eq_ok recovers.complete,
      Reader.run_eq_ok_iff.mpr ⟨[], recovers.run_bytes⟩, rfl, revision.isSome_shared?_iff, ?_⟩
    intro mesh member
    obtain ⟨own, listed, rfl⟩ := List.mem_map.mp member
    have fits := expressible.meshes own listed
    exact ⟨own.bounds_readIn_eq_none_iff, fits.uv1,
      fun shared among => (fits.shared shared among).1⟩
  case numbered =>
    intro major minor rest other
    apply ofBytes_of_refused
    rw [decodeVersion_numbered, checkVersion_of_other other]
  case unnumbered =>
    intro major rest other
    apply ofBytes_of_refused
    rw [decodeVersion_unnumbered, checkVersion_of_other fun known => other known.1]

/-- A skinned model in preorder whose one mesh has positions only. -/
def ordered : Model where
  meshes := [{ vertices := [{}, { position := ⟨1, 0, 0⟩ }] }]
  nodes := (((NodeTree.ofRoot { name := "root", index := 1 }).attach 0
    { name := "hip", isBone := true }).attach 1 { name := "foot", index := 2 }).attach 0
    { name := "skin", index := 3, meshes := [0] }
  skeleton := [{ name := "hip" }]
  materials := ["leather"]

theorem ofBytes_encodeIn_ordered : ordered.validate = .ok () ∧
    ordered.nodes.visits.map (·.1) = List.range ordered.nodes.size ∧ ordered.Portable ∧
    ordered.Named ∧ ordered.Expressible (.unnumbered .positionOnly) ∧
    (∃ bytes, (ordered.encodeIn (.unnumbered .positionOnly)).result = .ok bytes ∧
      Model.ofBytes bytes = .ok { ordered with
        version := ⟨3, 0⟩
        sharedFormat := some .positionOnly }) ∧
    Model.ofBytes [0x42, 0x42, 0x4d, 0x4f, 0x44, 0, 3, 4, 1] = .error (.unsupportedVersion ⟨3, 4⟩) ∧
    Model.ofBytes [0x62, 0x62, 0x6d, 0x6f, 0x64, 0, 2, 3] = .error (.unsupportedVersion ⟨2, 0⟩) := by
  have grown : ordered.nodes.Grown :=
    (((NodeTree.Grown.root rfl).attach (by decide) rfl).attach (by decide) rfl).attach
      (by decide) rfl
  have valid : ordered.validate = .ok () := by decide
  have inOrder : ordered.nodes.visits.map (·.1) = List.range ordered.nodes.size := by decide +kernel
  have named : ordered.Named := by unfold Named; decide
  have portable : ordered.Portable := by
    constructor
    case nodeNames | materialNames | kept => decide
    all_goals simp [ordered, NodeTree.attach, NodeTree.ofRoot, Geometry.Vec4.toList]
  have expressible : ordered.Expressible (.unnumbered .positionOnly) := by
    constructor
    · rintro shared ⟨⟩
      rfl
    · intro mesh member
      obtain rfl := List.mem_singleton.mp member
      exact ⟨by rintro shared ⟨⟩; exact ⟨rfl, rfl⟩, fun _ => rfl⟩
  obtain ⟨recovery, numbered, unnumbered⟩ := ofBytes_encodeIn
  obtain ⟨bytes, decoded, written, read, rfl, -⟩ :=
    recovery _ _ grown valid inOrder portable named expressible
  exact ⟨valid, inOrder, portable, named, expressible, ⟨bytes, written, read⟩,
    numbered 3 4 [1] (by decide), unnumbered 2 [3] (by decide)⟩

end Model.Model

end SceneBaker
