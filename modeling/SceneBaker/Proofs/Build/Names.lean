import SceneBaker.Proofs.Build.Conversion
import SceneBaker.Proofs.Build.RoundTrip
import SceneBaker.Proofs.Model.Counts
import SceneBaker.Proofs.Model.RoundTrip

/-! # Names of built models through their files

A name is stored as text that ends at the first zero byte, and nothing keeps a zero byte out of the
names of a scene or of a model. The file of a built model gives its names back exactly if none of
them has one. After any other name the reader takes the rest of it for the fields that follow.
-/

set_option linter.dupNamespace false

namespace SceneBaker.Build

open Number Binary Model Scene Steps

/-- Models with the same names of nodes, in preorder, and of materials. -/
structure SameNames (first second : Model) : Prop where
  nodes : first.nodes.preorder.map (·.2.name) = second.nodes.preorder.map (·.2.name)
  materials : first.materials = second.materials

/-- No node of a hierarchy and no material has a zero byte in its name. -/
structure Unbroken (scene : Scene Single) (forest : Forest Nat) : Prop where
  nodes : ∀ source ∈ reached scene forest, Reader.Unbroken source.name
  materials : ∀ material ∈ scene.materials, Reader.Unbroken material.name

variable {scene : Scene Single} {settings : Settings} {forest : Forest Nat} {model : Model}
  {bytes : List UInt8}

/-- What was written fits the fields of the file. -/
theorem small_of_toBytes_eq_ok (spells : model.nodes.Spells forest)
    (written : model.toBytes = .ok bytes) : Small model := by
  obtain ⟨tables, vertices, nodeMeshes⟩ :=
    (Model.complete_encode_iff spells).mp (Output.of_result_eq_ok written).1
  exact ⟨tables, vertices, nodeMeshes⟩

/-- No name that was read has a zero byte. -/
theorem unbroken_of_ofBytes (read : Model.ofBytes bytes = .ok model) :
    (∀ name ∈ model.nodes.preorder.map (·.2.name), Reader.Unbroken name) ∧
      ∀ name ∈ model.materials, Reader.Unbroken name := by
  obtain ⟨rest, decoded⟩ := Reader.run_eq_ok_iff.mp read
  obtain ⟨⟨forest, spells, -⟩, encodable, -⟩ := Model.ensures_decode _ _ _ decoded
  refine ⟨fun name member => ?_, encodable.materials⟩
  obtain ⟨entry, visited, rfl⟩ := List.mem_map.mp member
  have listed : entry.2 ∈ forest.preorder.filterMap model.nodes.get? := by
    rw [← spells.map_snd_preorder]
    exact List.mem_map_of_mem visited
  exact (encodable.nodes _ (spells.perm_get?.subset listed)).unbroken

/-- The file of a built model with unbroken names gives back what is stored of the model, but for
absent boxes. -/
theorem ofBytes_rooted_of_unbroken
    (built : BuiltModel scene (Skeleton.collect scene settings) forest model)
    (resolved : Resolved scene) (small : Small model) (unbroken : Unbroken scene forest)
    (written : model.toBytes = .ok bytes) : Model.ofBytes bytes = .ok model.rooted.upgrade := by
  have portable := built.portable_of_unbroken resolved small unbroken.nodes unbroken.materials
  have indexed := (built.consistent_of_resolved resolved small.tables).indexed small.tables
  have recovers := Model.recovers_decode_rooted built.spells built.inOrder portable.encodable
    indexed (built.named small.tables)
  obtain ⟨-, rfl⟩ := Output.of_result_eq_ok written
  exact Reader.run_eq_ok_iff.mpr ⟨[], recovers.run_bytes⟩

theorem ofBytes_of_unbroken (built : BuiltModel scene (Skeleton.collect scene settings) forest model)
    (planted : 0 < model.nodes.size) (resolved : Resolved scene) (small : Small model)
    (unbroken : Unbroken scene forest) (written : model.toBytes = .ok bytes) :
    Model.ofBytes bytes = .ok model.upgrade := by
  rw [ofBytes_rooted_of_unbroken built resolved small unbroken written,
    Model.rooted_of_pos planted]

/-- A built model has the names of its scene, and its file gives them back exactly if none of them
has a zero byte. -/
theorem exists_sameNames_iff (unfolds : scene.links.Unfolds [0] forest)
    (distinct : forest.preorder.Nodup) (rooted : 0 < scene.nodes.size) (resolved : Resolved scene)
    (success : buildModel scene settings = .ok model) (written : model.toBytes = .ok bytes) :
    model.nodes.preorder.map (·.2.name) = (reached scene forest).map (·.name) ∧
    model.materials = scene.materials.toList.map (·.name) ∧
    ((∃ read, Model.ofBytes bytes = .ok read ∧ SameNames read model) ↔ Unbroken scene forest) := by
  obtain ⟨spells, numbered⟩ := planted_of_buildModel_eq_ok unfolds distinct success
  have small := small_of_toBytes_eq_ok spells written
  have built := built_of_buildModel unfolds distinct success small.tables.bones
  have nodes := numbered.names_eq
  refine ⟨nodes, built.materials, ?_, fun unbroken => ?_⟩
  · rintro ⟨read, accepted, same⟩
    obtain ⟨nodeNames, materialNames⟩ := unbroken_of_ofBytes accepted
    rw [same.nodes, nodes] at nodeNames
    rw [same.materials, built.materials] at materialNames
    constructor
    · exact fun source listed => nodeNames _ (List.mem_map_of_mem listed)
    · intro material listed
      exact materialNames _ (List.mem_map_of_mem (Array.mem_toList_iff.mpr listed))
  · have planted : 0 < model.nodes.size := by
      obtain ⟨below, rfl⟩ := unfolds.exists_root (by simpa [Scene.links] using rooted)
      rw [← spells.size_eq, Forest.size_number, Forest.size]
      omega
    exact ⟨_, ofBytes_of_unbroken built planted resolved small unbroken written, rfl, rfl⟩

/-- A bench, which is a single triangle. -/
def bench (name material : String) : Scene Single where
  meshes := #[{ positions := #[0, 0, 0], faces := [[0, 1, 2]] }]
  materials := #[.plain material]
  nodes := #[⟨name, 1, [0], []⟩]

theorem unfolds_bench (name material : String) :
    (bench name material).links.Unfolds [0] (.cons 0 .nil .nil) :=
  .inside (by simp [bench, Scene.links]) .nil .nil

theorem resolved_bench (name material : String) : Resolved (bench name material) := by
  constructor <;> simp [bench]

theorem exists_sameNames_bench :
    (bench "Bänkchen" "Eiche").links.Unfolds [0] (.cons 0 .nil .nil) ∧
    Resolved (bench "Bänkchen" "Eiche") ∧ ∃ model bytes,
      buildModel (bench "Bänkchen" "Eiche") {} = .ok model ∧ model.toBytes = .ok bytes ∧
      ∃ read, Model.ofBytes bytes = .ok read ∧ SameNames read model := by
  have stored : ((buildModel (bench "Bänkchen" "Eiche") {}).toOption.bind
      (·.toBytes.toOption)).isSome = true := by decide +kernel
  obtain ⟨bytes, written⟩ := Option.isSome_iff_exists.mp stored
  obtain ⟨model, success, written⟩ := Option.bind_eq_some_iff.mp written
  have success := toOption_eq_some_iff.mp success
  have written := toOption_eq_some_iff.mp written
  have unbroken : Unbroken (bench "Bänkchen" "Eiche") (.cons 0 .nil .nil) := by
    constructor <;> decide +kernel
  obtain ⟨-, -, same⟩ := exists_sameNames_iff (unfolds_bench ..) (by decide) (by decide)
    (resolved_bench ..) success written
  exact ⟨unfolds_bench .., resolved_bench .., model, bytes, success, written, same.mpr unbroken⟩

/-- A zero byte in the name of a node leaves a file that cannot be read, and one in the name of a
material a file in which the material has another name. -/
theorem bench_misread :
    (∀ name material, (bench name material).links.Unfolds [0] (.cons 0 .nil .nil) ∧
      Resolved (bench name material)) ∧
    (∃ model bytes cause, buildModel (bench "bench\x00left" "oak") {} = .ok model ∧
      model.toBytes = .ok bytes ∧ Model.ofBytes bytes = .error cause) ∧
    ∃ model bytes read, buildModel (bench "bench" "oak\x00stained") {} = .ok model ∧
      model.toBytes = .ok bytes ∧ Model.ofBytes bytes = .ok read ∧
      model.materials = ["oak\x00stained"] ∧ read.materials = ["oak"] := by
  refine ⟨fun name material => ⟨unfolds_bench .., resolved_bench ..⟩, ?_, ?_⟩
  · have read : ((buildModel (bench "bench\x00left" "oak") {}).toOption.bind fun model =>
        model.toBytes.toOption.map fun bytes => (Model.ofBytes bytes).toOption.isNone) =
          some true := by decide +kernel
    obtain ⟨model, success, read⟩ := Option.bind_eq_some_iff.mp read
    obtain ⟨bytes, written, read⟩ := Option.map_eq_some_iff.mp read
    cases result : Model.ofBytes bytes with
    | ok again => simp [result, Except.toOption] at read
    | error cause =>
      exact ⟨model, bytes, cause, toOption_eq_some_iff.mp success, toOption_eq_some_iff.mp written,
        result⟩
  · have read : ((buildModel (bench "bench" "oak\x00stained") {}).toOption.bind fun model =>
        model.toBytes.toOption.bind fun bytes => (Model.ofBytes bytes).toOption.map fun read =>
          (model.materials, read.materials)) = some (["oak\x00stained"], ["oak"]) := by
      decide +kernel
    obtain ⟨model, success, read⟩ := Option.bind_eq_some_iff.mp read
    obtain ⟨bytes, written, read⟩ := Option.bind_eq_some_iff.mp read
    obtain ⟨again, accepted, names⟩ := Option.map_eq_some_iff.mp read
    exact ⟨model, bytes, again, toOption_eq_some_iff.mp success, toOption_eq_some_iff.mp written,
      toOption_eq_some_iff.mp accepted, (Prod.mk.inj names).1, (Prod.mk.inj names).2⟩

end SceneBaker.Build
