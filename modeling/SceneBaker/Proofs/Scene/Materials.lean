import SceneBaker.Proofs.Build.Drawing
import SceneBaker.Scene.Reduce

/-! # Merged materials

Each used material keeps a material of its name, at a position that is no later than its own. So
every mesh is drawn with the name that its material had. What is left are the used materials, the
first one of each name, and merging them again changes nothing.
-/

set_option linter.dupNamespace false

namespace SceneBaker.Scene

open Number Mesh Build

namespace Scene

variable {α : Type} {scene : Scene α}

/-- Adding a material leaves one of its name, and the earlier ones as they were. -/
theorem keepMaterial_cases (kept : Array (SourceMaterial α)) (material : SourceMaterial α) :
    ∃ more position, keepMaterial kept material = (kept ++ more, position) ∧ more.size ≤ 1 ∧
      position ≤ kept.size ∧ (kept ++ more)[position]?.map (·.name) = some material.name := by
  rw [keepMaterial]
  split
  case h_1 position found =>
    obtain ⟨inside, same, -⟩ := Array.findIdx?_eq_some_iff_getElem.mp found
    refine ⟨#[], position, by simp, Nat.zero_le _, inside.le, ?_⟩
    rw [Array.append_empty, Array.getElem?_eq_getElem inside, Option.map_some]
    exact congrArg some (by simpa using same)
  case h_2 => exact ⟨#[material], kept.size, rfl, Nat.le_refl 1, Nat.le_refl _, by simp⟩

/-- Keep a material if it is used. -/
def reduceStep (scene : Scene α) (state : Array (SourceMaterial α) × Array Nat)
    (entry : SourceMaterial α × Nat) : Array (SourceMaterial α) × Array Nat :=
  if scene.usesMaterial entry.2 then
    ((keepMaterial state.1 entry.1).1, state.2.push (keepMaterial state.1 entry.1).2)
  else (state.1, state.2.push 0)

theorem reducedMaterials_eq (scene : Scene α) :
    scene.reducedMaterials = scene.materials.toList.zipIdx.foldl scene.reduceStep (#[], #[]) := rfl

/-- The materials that were met have positions, and used ones a material of their name there. -/
structure Reduces (scene : Scene α) (met : List (SourceMaterial α))
    (state : Array (SourceMaterial α) × Array Nat) : Prop where
  size : state.2.size = met.length
  few : state.1.size ≤ met.length
  placed : ∀ old material, met[old]? = some material → scene.usesMaterial old = true →
    ∃ position ≤ old, state.2[old]? = some position ∧
      state.1[position]?.map (·.name) = some material.name

theorem Reduces.step {met : List (SourceMaterial α)} {state : Array (SourceMaterial α) × Array Nat}
    (reduces : scene.Reduces met state) (material : SourceMaterial α) :
    scene.Reduces (met ++ [material]) (scene.reduceStep state (material, met.length)) := by
  obtain ⟨more, place, result, small, early, named⟩ : ∃ more place,
      scene.reduceStep state (material, met.length) = (state.1 ++ more, state.2.push place) ∧
        more.size ≤ 1 ∧ place ≤ state.1.size ∧ (scene.usesMaterial met.length = true →
          (state.1 ++ more)[place]?.map (·.name) = some material.name) := by
    rw [reduceStep]
    split
    case isTrue =>
      obtain ⟨more, place, result, small, early, named⟩ := keepMaterial_cases state.1 material
      exact ⟨more, place, by rw [result], small, early, fun _ => named⟩
    case isFalse unused =>
      exact ⟨#[], 0, by rw [Array.append_empty], Nat.zero_le _, Nat.zero_le _,
        fun used => absurd used unused⟩
  have few := reduces.few
  rw [result]
  refine ⟨by simp [reduces.size], ?_, fun old found present used => ?_⟩
  · rw [Array.size_append, List.length_append, List.length_singleton]
    omega
  · rcases Nat.lt_or_ge old met.length with before | after
    · rw [List.getElem?_append_left before] at present
      obtain ⟨position, earlier, stored, name⟩ := reduces.placed old found present used
      obtain ⟨entry, inside, -⟩ := Option.map_eq_some_iff.mp name
      have within := (Array.getElem?_eq_some_iff.mp inside).1
      refine ⟨position, earlier, ?_, ?_⟩
      · rw [Array.getElem?_push, if_neg (by rw [reduces.size]; omega), stored]
      · rw [Array.getElem?_append_left within, name]
    · obtain rfl : old = met.length := by
        have within := (List.getElem?_eq_some_iff.mp present).1
        rw [List.length_append, List.length_singleton] at within
        omega
      obtain rfl : material = found := by simpa using present
      refine ⟨place, early.trans few, ?_, named used⟩
      rw [Array.getElem?_push, if_pos reduces.size.symm]

theorem reduces_reducedMaterials (scene : Scene α) :
    scene.Reduces scene.materials.toList scene.reducedMaterials := by
  rw [reducedMaterials_eq]
  induction scene.materials.toList using List.reverseRecOn with
  | nil => exact ⟨rfl, Nat.le_refl 0, by simp⟩
  | append_singleton met material ih =>
    rw [List.zipIdx_append, List.foldl_append]
    simpa using ih.step material

/-- The new material of a mesh. -/
def movedMaterial (scene : Scene α) (mesh : SourceMesh α) : SourceMesh α :=
  { mesh with
    material := UInt32.ofNat (scene.reducedMaterials.2[mesh.material.toNat]?.getD 0) }

theorem meshes_mergeMaterials (scene : Scene α) :
    scene.mergeMaterials.meshes = scene.meshes.map scene.movedMaterial := rfl

/-- The new material of a mesh has the name of the old one. -/
theorem name_movedMaterial {mesh : SourceMesh α} (listed : mesh ∈ scene.meshes)
    (present : mesh.material.toNat < scene.materials.size) :
    scene.mergeMaterials.materials[(scene.movedMaterial mesh).material.toNat]?.map (·.name) =
      scene.materials[mesh.material.toNat]?.map (·.name) := by
  have used : scene.usesMaterial mesh.material.toNat = true :=
    Array.any_eq_true'.mpr ⟨mesh, listed, beq_self_eq_true _⟩
  have found := Array.getElem?_eq_getElem present
  obtain ⟨position, early, stored, named⟩ := scene.reduces_reducedMaterials.placed _ _
    (by rw [Array.getElem?_toList, found]) used
  have small : (UInt32.ofNat position).toNat = position :=
    UInt32.toNat_ofNat_of_lt' (early.trans_lt mesh.material.toNat_lt)
  rw [movedMaterial, stored, Option.getD_some, small, found, Option.map_some]
  exact named

end Scene

/-- A mesh is described the same with its new material. -/
theorem describedPrimitives_movedMaterial {scene : Scene Single} (settings : Settings)
    {mesh : SourceMesh Single} (listed : mesh ∈ scene.meshes)
    (present : mesh.material.toNat < scene.materials.size) :
    describedPrimitives settings scene.mergeMaterials (scene.movedMaterial mesh) =
      describedPrimitives settings scene mesh := by
  rw [describedPrimitives, Scene.name_movedMaterial listed present]
  rfl

/-! ## What is left -/

namespace Scene

variable {α : Type} {scene : Scene α}

/-- A used material, the first used one of its name. -/
def leads (scene : Scene α) (old : Nat) : Bool :=
  scene.usesMaterial old && !(List.range old).any fun earlier =>
    scene.usesMaterial earlier &&
      scene.materials[earlier]?.map (·.name) == scene.materials[old]?.map (·.name)

theorem leads_iff {old : Nat} : scene.leads old = true ↔ scene.usesMaterial old = true ∧
    ∀ earlier < old, scene.usesMaterial earlier = true →
      scene.materials[earlier]?.map (·.name) ≠ scene.materials[old]?.map (·.name) := by
  simp [leads]

theorem usesMaterial_iff {old : Nat} :
    scene.usesMaterial old = true ↔ ∃ mesh ∈ scene.meshes, mesh.material.toNat = old := by
  rw [usesMaterial, Array.any_eq_true']
  simp

/-- A material is added behind the others unless one of its name is among them. -/
theorem toList_keepMaterial (kept : Array (SourceMaterial α)) (material : SourceMaterial α) :
    (keepMaterial kept material).1.toList =
      if material.name ∈ kept.toList.map (·.name) then kept.toList else kept.toList ++ [material] := by
  rw [keepMaterial]
  split
  case h_1 position found =>
    obtain ⟨inside, same, -⟩ := Array.findIdx?_eq_some_iff_getElem.mp found
    rw [if_pos]
    refine List.mem_map.mpr ⟨kept[position], by simp, by simpa using same⟩
  case h_2 absent =>
    rw [if_neg, Array.toList_push]
    intro listed
    obtain ⟨other, member, same⟩ := List.mem_map.mp listed
    have different := Array.findIdx?_eq_none_iff.mp absent other (Array.mem_toList_iff.mp member)
    simp [same] at different

/-- The leading ones among the first materials of a scene. -/
def leading (scene : Scene α) (count : Nat) : List (SourceMaterial α) :=
  ((List.range count).filter scene.leads).filterMap (scene.materials[·]?)

theorem leading_succ (scene : Scene α) (count : Nat) : scene.leading (count + 1) =
    scene.leading count ++ if scene.leads count then scene.materials[count]?.toList else [] := by
  rw [leading, List.range_succ, List.filter_append, List.filterMap_append, leading]
  cases found : scene.materials[count]? <;> by_cases lead : scene.leads count = true <;>
    simp [lead, found]

theorem mem_leading {count : Nat} {material : SourceMaterial α} :
    material ∈ scene.leading count ↔
      ∃ old < count, scene.leads old = true ∧ scene.materials[old]? = some material := by
  simp [leading, and_assoc]

/-- Every name of a used material is one of a leading material. -/
theorem mem_names_leading {count : Nat} {name : String} :
    name ∈ (scene.leading count).map (·.name) ↔ ∃ old < count,
      scene.usesMaterial old = true ∧ scene.materials[old]?.map (·.name) = some name := by
  constructor
  · intro member
    obtain ⟨material, among, rfl⟩ := List.mem_map.mp member
    obtain ⟨old, before, lead, found⟩ := mem_leading.mp among
    exact ⟨old, before, (leads_iff.mp lead).1, by rw [found, Option.map_some]⟩
  · rintro ⟨old, before, used, named⟩
    -- The first used material of the name leads.
    induction old using Nat.strong_induction_on with
    | _ old ih =>
      by_cases lead : scene.leads old = true
      · obtain ⟨material, found, rfl⟩ := Option.map_eq_some_iff.mp named
        exact List.mem_map_of_mem (mem_leading.mpr ⟨old, before, lead, found⟩)
      · have follows := mt leads_iff.mpr lead
        push Not at follows
        obtain ⟨earlier, less, again, same⟩ := follows used
        exact ih earlier less (less.trans before) again (same.trans named)

theorem leads_iff_not_mem {old : Nat} {material : SourceMaterial α}
    (found : scene.materials[old]? = some material) : scene.leads old = true ↔
      scene.usesMaterial old = true ∧ material.name ∉ (scene.leading old).map (·.name) := by
  rw [leads_iff, mem_names_leading, found]
  simp

/-- After the first materials of a scene, the leading ones among them are kept. -/
theorem toList_foldl_reduceStep (scene : Scene α) {count : Nat}
    (within : count ≤ scene.materials.size) :
    ((scene.materials.toList.take count).zipIdx.foldl scene.reduceStep (#[], #[])).1.toList =
      scene.leading count := by
  induction count with
  | zero => rfl
  | succ count ih =>
    have found := Array.getElem?_eq_getElem within
    have length : (scene.materials.toList.take count).length = count := by
      rw [List.length_take, Array.length_toList]
      omega
    have kept := ih (by omega)
    rw [List.take_add_one, Array.getElem?_toList, found, Option.toList_some, List.zipIdx_append,
      List.foldl_append, leading_succ, found, Option.toList_some, length, List.zipIdx_singleton,
      List.foldl_cons, List.foldl_nil, Nat.zero_add, reduceStep]
    have lead := leads_iff_not_mem found
    rw [← kept] at lead ⊢
    by_cases used : scene.usesMaterial count = true
    · rw [if_pos used, toList_keepMaterial]
      by_cases taken : scene.materials[count].name ∈ (((scene.materials.toList.take
          count).zipIdx.foldl scene.reduceStep (#[], #[])).1.toList.map (·.name))
      · rw [if_pos taken, if_neg fun leads => (lead.mp leads).2 taken, List.append_nil]
      · rw [if_neg taken, if_pos (lead.mpr ⟨used, taken⟩)]
    · rw [if_neg used, if_neg fun leads => used (lead.mp leads).1, List.append_nil]

/-- The materials that are left are the leading ones. -/
theorem materials_mergeMaterials (scene : Scene α) :
    scene.mergeMaterials.materials.toList = scene.leading scene.materials.size := by
  have folded := scene.toList_foldl_reduceStep le_rfl
  rwa [List.take_of_length_le (by simp), ← reducedMaterials_eq] at folded

theorem nodup_names_leading (scene : Scene α) (count : Nat) :
    ((scene.leading count).map (·.name)).Nodup := by
  induction count with
  | zero => exact .nil
  | succ count ih =>
    rw [leading_succ]
    split
    case isTrue lead =>
      cases found : scene.materials[count]? with
      | none => rwa [Option.toList_none, List.append_nil]
      | some material =>
        have fresh := ((leads_iff_not_mem found).mp lead).2
        rw [Option.toList_some, List.map_append]
        exact List.nodup_append_comm.mpr (List.nodup_cons.mpr ⟨fresh, ih⟩)
    case isFalse => rwa [List.append_nil]

/-- A material that is left is used. -/
theorem exists_used_of_lt (present : ∀ mesh ∈ scene.meshes, mesh.material.toNat < scene.materials.size)
    {position : Nat} (inside : position < scene.mergeMaterials.materials.size) :
    ∃ mesh ∈ scene.mergeMaterials.meshes, mesh.material.toNat = position := by
  have found := Array.getElem?_eq_getElem inside
  have left := List.mem_of_getElem? (Array.getElem?_toList.trans found)
  rw [materials_mergeMaterials] at left
  obtain ⟨old, -, lead, same⟩ := mem_leading.mp left
  obtain ⟨mesh, listed, rfl⟩ := usesMaterial_iff.mp (leads_iff.mp lead).1
  refine ⟨scene.movedMaterial mesh, Array.mem_map.mpr ⟨mesh, listed, rfl⟩, ?_⟩
  have named := name_movedMaterial listed (present mesh listed)
  rw [same, Option.map_some] at named
  obtain ⟨other, again, name⟩ := Option.map_eq_some_iff.mp named
  have distinct := scene.nodup_names_leading scene.materials.size
  rw [← materials_mergeMaterials] at distinct
  have within := (Array.getElem?_eq_some_iff.mp again).1
  refine (List.getElem?_inj (by simpa using within) distinct).mp ?_
  simp [again, found, name]

/-- Merging leaves a scene alone whose materials are all used and have names of their own. -/
theorem mergeMaterials_eq_self
    (present : ∀ mesh ∈ scene.meshes, mesh.material.toNat < scene.materials.size)
    (used : ∀ position < scene.materials.size, ∃ mesh ∈ scene.meshes, mesh.material.toNat = position)
    (distinct : (scene.materials.toList.map (·.name)).Nodup) : scene.mergeMaterials = scene := by
  have lead : ∀ old < scene.materials.size, scene.leads old = true := by
    intro old inside
    refine leads_iff.mpr ⟨usesMaterial_iff.mpr (used old inside), fun earlier before _ same => ?_⟩
    refine before.ne ((List.getElem?_inj (by simp; omega) distinct).mp ?_)
    simpa using same
  have materials : scene.mergeMaterials.materials = scene.materials := by
    refine Array.toList_inj.mp ?_
    rw [materials_mergeMaterials, leading, List.filter_eq_self.mpr (by simpa using lead)]
    simpa using Model.NodeTree.filterMap_getElem?_range scene.materials.toList
  have moved (mesh : SourceMesh α) (listed : mesh ∈ scene.meshes) :
      scene.movedMaterial mesh = mesh := by
    have inside := present mesh listed
    have named := name_movedMaterial listed inside
    rw [materials] at named
    have same : mesh.material.toNat = (scene.movedMaterial mesh).material.toNat :=
      (List.getElem?_inj (by simpa using inside) distinct).mp (by simpa using named.symm)
    exact congrArg (fun material => { mesh with material }) (UInt32.toNat_inj.mp same.symm)
  have meshes : scene.mergeMaterials.meshes = scene.meshes := by
    rw [meshes_mergeMaterials]
    refine (Array.map_congr_left moved).trans ?_
    exact Array.map_id' _
  calc scene.mergeMaterials
      = { scene with
          materials := scene.mergeMaterials.materials
          meshes := scene.mergeMaterials.meshes } := rfl
    _ = scene := by rw [materials, meshes]

/-- A scene after merging materials: the used materials are left, the first one of each name, and
every mesh has one of the name that its material had. -/
structure MaterialsMerged (scene after : Scene α) : Prop where
  left : after.materials.toList = scene.leading scene.materials.size
  distinct : (after.materials.toList.map (·.name)).Nodup
  used : ∀ position < after.materials.size,
    ∃ mesh ∈ after.meshes, mesh.material.toNat = position
  count : after.meshes.size = scene.meshes.size
  meshes : ∀ (index : Nat) (mesh : SourceMesh α), scene.meshes[index]? = some mesh → ∃ material,
    after.meshes[index]? = some { mesh with material } ∧
      material.toNat < after.materials.size ∧
      after.materials[material.toNat]?.map (·.name) =
        scene.materials[mesh.material.toNat]?.map (·.name)
  nodes : after.nodes = scene.nodes
  clips : after.clips = scene.clips

/-- If the materials of all meshes are there, merging keeps the name of every mesh's material and
one used material of each name; merging again changes nothing. -/
theorem materialsMerged_mergeMaterials
    (present : ∀ mesh ∈ scene.meshes, mesh.material.toNat < scene.materials.size) :
    MaterialsMerged scene scene.mergeMaterials ∧
      scene.mergeMaterials.mergeMaterials = scene.mergeMaterials := by
  have inside (mesh : SourceMesh α) (listed : mesh ∈ scene.meshes) :
      (scene.movedMaterial mesh).material.toNat < scene.mergeMaterials.materials.size := by
    have named := name_movedMaterial listed (present mesh listed)
    rw [Array.getElem?_eq_getElem (present mesh listed)] at named
    obtain ⟨_, found, -⟩ := Option.map_eq_some_iff.mp named
    exact (Array.getElem?_eq_some_iff.mp found).1
  have merged : MaterialsMerged scene scene.mergeMaterials := by
    constructor
    case left => exact scene.materials_mergeMaterials
    case distinct =>
      rw [materials_mergeMaterials]
      exact scene.nodup_names_leading _
    case used => exact fun position inside => exists_used_of_lt present inside
    case count => exact Array.size_map ..
    case meshes =>
      intro index mesh found
      have listed := Array.mem_of_getElem? found
      refine ⟨(scene.movedMaterial mesh).material, ?_, inside mesh listed,
        name_movedMaterial listed (present mesh listed)⟩
      rw [meshes_mergeMaterials, Array.getElem?_map, found]
      rfl
    case nodes => rfl
    case clips => rfl
  refine ⟨merged, mergeMaterials_eq_self (fun mesh listed => ?_) merged.used merged.distinct⟩
  rw [meshes_mergeMaterials] at listed
  obtain ⟨old, among, rfl⟩ := Array.mem_map.mp listed
  exact inside old among

/-- Wood is there three times, the first of them unused, and the meshes name two of the others. -/
def workshop : Scene Single where
  meshes := #[{ name := "bench", material := 3 }, { name := "vice", material := 2 },
    { name := "stool", material := 4 }, { name := "anvil", material := 2 }]
  materials := #[.plain "wood", .plain "paint", { SourceMaterial.plain "metal" with opacity := 0 },
    { SourceMaterial.plain "wood" with opacity := 0 }, .plain "wood"]

theorem materialsMerged_workshop :
    (∀ mesh ∈ workshop.meshes, mesh.material.toNat < workshop.materials.size) ∧
    workshop.mergeMaterials.materials.toList.map (·.name) = ["metal", "wood"] ∧
    workshop.mergeMaterials.meshes.toList.map (·.material) = [1, 0, 1, 0] ∧
    MaterialsMerged workshop workshop.mergeMaterials ∧
      workshop.mergeMaterials.mergeMaterials = workshop.mergeMaterials := by
  have present : ∀ mesh ∈ workshop.meshes, mesh.material.toNat < workshop.materials.size := by decide
  exact ⟨present, by decide +kernel, by decide +kernel, materialsMerged_mergeMaterials present⟩

end Scene

end SceneBaker.Scene
