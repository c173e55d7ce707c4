import SceneBaker.Proofs.Model.Access
import SceneBaker.Proofs.Model.RoundTrip

/-! # Consistent models

Validation compares an index with the number of its table as it is stored, in 32 bits, and marks the
indices it has met. A model is consistent if its indices are right as plain numbers, where no number
wraps around and nothing is marked: nodes and bones are numbered without gaps or repetition, and
everything else refers to an entry that is there. The two agree as long as the numbers of entries fit.
-/

set_option linter.dupNamespace false

namespace SceneBaker.Model.Model

open Binary Mesh

variable {model : Model}

/-- Every table that an index refers to has a number of entries that can be stored. -/
structure Tabled (model : Model) : Prop where
  nodes : model.nodes.size < 2 ^ 32
  bones : model.skeleton.length < 2 ^ 32
  meshes : model.meshes.length < 2 ^ 32
  materials : model.materials.length < 2 ^ 32

instance (model : Model) : Decidable model.Tabled :=
  decidable_of_iff (model.nodes.size < 2 ^ 32 ∧ model.skeleton.length < 2 ^ 32 ∧
      model.meshes.length < 2 ^ 32 ∧ model.materials.length < 2 ^ 32)
    ⟨fun ⟨nodes, bones, meshes, materials⟩ => ⟨nodes, bones, meshes, materials⟩,
      fun tabled => ⟨tabled.nodes, tabled.bones, tabled.meshes, tabled.materials⟩⟩

structure Consistent (model : Model) : Prop where
  nodes : (model.nodes.nodes.toList.map (·.index.toNat)).Perm (List.range model.nodes.size)
  boneNodes : ∀ node ∈ model.nodes.nodes.toList, node.isBone = true →
    node.index.toNat < model.skeleton.length
  bones : (model.skeleton.map (·.index.toNat)).Perm (List.range model.skeleton.length)
  nodeMeshes : ∀ node ∈ model.nodes.nodes.toList, ∀ mesh ∈ node.meshes,
    mesh.toNat < model.meshes.length
  materials : ∀ mesh ∈ model.meshes, mesh.material.toNat < model.materials.length
  /-- A bone with a weight that compares equal to zero may be anything. -/
  influences : ∀ mesh ∈ model.meshes, mesh.format.bones = true → ∀ vertex ∈ mesh.vertices,
    ∀ influence ∈ vertex.influences, influence.2.numEq 0 = false →
      influence.1.toNat < model.skeleton.length

/-- An index below a stored number is below the number itself. -/
theorem toNat_lt_of_lt_ofNat {index : UInt32} {count : Nat} (inside : index < UInt32.ofNat count) :
    index.toNat < count := by
  rw [UInt32.lt_iff_toNat_lt, UInt32.toNat_ofNat'] at inside
  exact inside.trans_le (Nat.mod_le ..)

theorem lt_ofNat_iff {index : UInt32} {count : Nat} (small : count < 2 ^ 32) :
    index < UInt32.ofNat count ↔ index.toNat < count := by
  rw [UInt32.lt_iff_toNat_lt, UInt32.toNat_ofNat_of_lt' small]

/-- Entries that are numbered without gaps have indices below their number, and no index twice. -/
theorem numbered_of_perm {α : Type} {entries : List α} {index : α → UInt32} {count : Nat}
    (numbered : (entries.map fun entry => (index entry).toNat).Perm (List.range count)) :
    (entries.map index).Nodup ∧ ∀ entry ∈ entries, (index entry).toNat < count := by
  constructor
  · have distinct := numbered.nodup_iff.mpr List.nodup_range
    apply List.Nodup.of_map UInt32.toNat
    rwa [List.map_map]
  · intro entry member
    apply List.mem_range.mp
    exact numbered.subset (List.mem_map_of_mem member)

theorem Indexed.consistent (indexed : model.Indexed) : model.Consistent where
  nodes := indexed.perm_nodes.2
  boneNodes node member flagged := toNat_lt_of_lt_ofNat ((indexed.nodes node member).bone flagged)
  bones := indexed.perm_bones.2
  nodeMeshes node member mesh used :=
    toNat_lt_of_lt_ofNat ((indexed.nodes node member).meshes mesh used)
  materials mesh member := toNat_lt_of_lt_ofNat (indexed.meshes mesh member).material
  influences mesh member stored vertex used influence held weighted :=
    toNat_lt_of_lt_ofNat
      ((indexed.meshes mesh member).bones stored vertex used influence held weighted)

theorem Consistent.indexed (consistent : model.Consistent) (tabled : model.Tabled) :
    model.Indexed := by
  obtain ⟨distinctNodes, nodesInside⟩ := numbered_of_perm consistent.nodes
  obtain ⟨distinctBones, bonesInside⟩ := numbered_of_perm consistent.bones
  constructor
  case distinctNodes => exact distinctNodes
  case distinctBones => exact distinctBones
  case nodes =>
    intro node member
    constructor
    · exact (lt_ofNat_iff tabled.nodes).mpr (nodesInside node member)
    · intro flagged
      exact (lt_ofNat_iff tabled.bones).mpr (consistent.boneNodes node member flagged)
    · intro mesh used
      exact (lt_ofNat_iff tabled.meshes).mpr (consistent.nodeMeshes node member mesh used)
  case bones =>
    intro bone member
    exact (lt_ofNat_iff tabled.bones).mpr (bonesInside bone member)
  case meshes =>
    intro mesh member
    constructor
    · exact (lt_ofNat_iff tabled.materials).mpr (consistent.materials mesh member)
    · intro stored vertex used influence held weighted
      apply (lt_ofNat_iff tabled.bones).mpr
      exact consistent.influences mesh member stored vertex used influence held weighted

/-- A model that comes out of a file is consistent, whatever the file holds. -/
theorem consistent_of_ofBytes {bytes : List UInt8} (accepted : Model.ofBytes bytes = .ok model) :
    model.Consistent := by
  obtain ⟨rest, read⟩ := Reader.run_eq_ok_iff.mp accepted
  exact (ensures_decode _ _ _ read).indexed.consistent

/-- Validation accepts the consistent models and nothing else, decoding ends in an error or in a
consistent model, and neither looks outside a table. -/
theorem validate_iff_consistent :
    (∀ model : Model, model.Tabled → (model.validate = .ok () ↔ model.Consistent)) ∧
    (∀ model : Model, model.guardedValidate = .plain model.validate) ∧
    ∀ bytes : List UInt8, Model.guardedDecode bytes = .plain (Model.decode bytes) ∧
      ((∃ cause, Model.ofBytes bytes = .error cause) ∨
        ∃ model, Model.ofBytes bytes = .ok model ∧ model.Consistent) := by
  refine ⟨?exact, guardedValidate_eq, ?decoding⟩
  case exact =>
    intro model tabled
    rw [validate_eq_ok_iff]
    exact ⟨Indexed.consistent, fun consistent => consistent.indexed tabled⟩
  case decoding =>
    intro bytes
    refine ⟨congrFun guardedDecode_eq bytes, ?_⟩
    cases read : Model.ofBytes bytes with
    | error cause => exact .inl ⟨cause, rfl⟩
    | ok model => exact .inr ⟨model, rfl, consistent_of_ofBytes read⟩

theorem validate_iff_consistent_scattered : scattered.Tabled ∧ scattered.Consistent ∧
    ∃ model, Model.ofBytes oldFile = .ok model ∧ model.Consistent := by
  have tabled : scattered.Tabled := by decide
  have accepted : Model.ofBytes oldFile = .ok oldModel := by decide +kernel
  obtain ⟨exact, -, decoding⟩ := validate_iff_consistent
  refine ⟨tabled, (exact _ tabled).mp (by decide), ?_⟩
  rcases (decoding oldFile).2 with ⟨cause, failed⟩ | found
  · simp [accepted] at failed
  · exact found

end SceneBaker.Model.Model
