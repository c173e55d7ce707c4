import SceneBaker.Build.Skeleton
import Mathlib.Data.List.Nodup

/-! # Collected skeletons

The bones of a scene are the distinct bone names of its meshes in the order in which they are first
met. Each has its position as its index, which is what its name is looked up as.
-/

namespace SceneBaker.Build.Skeleton

open Number Scene

def names (skeleton : Skeleton) : List String := skeleton.bones.map (·.name)

/-- The skeleton holds the names of some source bones once each, in the order of their first use, and
numbers them by position. -/
structure Collects (skeleton : Skeleton) (sources : List (SourceBone Single)) : Prop where
  names_eq : skeleton.names = (sources.map (·.name)).eraseDups
  indices_eq : skeleton.bones.map (·.index) = (List.range skeleton.size).map UInt32.ofNat
  lookup : ∀ name index, skeleton.indexOf? name = some index ↔
    ∃ position, skeleton.names[position]? = some name ∧ index = UInt32.ofNat position

variable {skeleton : Skeleton}

theorem isSome_indexOf? (skeleton : Skeleton) (name : String) :
    (skeleton.indexOf? name).isSome = true ↔ name ∈ skeleton.names := by
  simp [indexOf?, names, List.find?_isSome]

theorem names_add (skeleton : Skeleton) (source : SourceBone Single) :
    (skeleton.add source).names =
      if source.name ∈ skeleton.names then skeleton.names else skeleton.names ++ [source.name] := by
  rw [add]
  by_cases taken : source.name ∈ skeleton.names
  · rw [if_pos ((isSome_indexOf? _ _).mpr taken), if_pos taken]
  · rw [if_neg (mt (isSome_indexOf? _ _).mp taken), if_neg taken, names, List.map_append]
    rfl

/-- Bones are added behind those that are there, the first of each new name. -/
theorem names_foldl_add (sources : List (SourceBone Single)) (skeleton : Skeleton) :
    (sources.foldl add skeleton).names = skeleton.names ++
      ((sources.map (·.name)).filter fun name => name ∉ skeleton.names).eraseDups := by
  induction sources generalizing skeleton with
  | nil => simp
  | cons source sources ih =>
    rw [List.foldl_cons, ih, names_add]
    by_cases taken : source.name ∈ skeleton.names
    · simp [taken]
    · have others : (sources.map (·.name)).filter
          (fun name => decide (name ∉ skeleton.names ++ [source.name])) =
          ((sources.map (·.name)).filter fun name => decide (name ∉ skeleton.names)).filter
            fun name => !name == source.name := by
        rw [List.filter_filter]
        refine List.filter_congr fun name _ => ?_
        by_cases same : name = source.name <;> simp [same]
      rw [if_neg taken, others, List.map_cons, List.filter_cons_of_pos (by simpa using taken),
        List.eraseDups_cons, List.append_assoc]
      rfl

theorem indices_foldl_add (sources : List (SourceBone Single)) {skeleton : Skeleton}
    (indices : skeleton.bones.map (·.index) = (List.range skeleton.size).map UInt32.ofNat) :
    (sources.foldl add skeleton).bones.map (·.index) =
      (List.range (sources.foldl add skeleton).size).map UInt32.ofNat := by
  induction sources generalizing skeleton with
  | nil => exact indices
  | cons source sources ih =>
    refine ih ?_
    rw [add]
    split
    case isTrue => exact indices
    case isFalse => simp [size, List.range_succ, indices, size]

theorem nodup_names_foldl_add (sources : List (SourceBone Single)) {skeleton : Skeleton}
    (distinct : skeleton.names.Nodup) : (sources.foldl add skeleton).names.Nodup := by
  induction sources generalizing skeleton with
  | nil => exact distinct
  | cons source sources ih =>
    refine ih ?_
    rw [names_add]
    split
    case isTrue => exact distinct
    case isFalse new =>
      refine List.nodup_append.mpr ⟨distinct, List.nodup_singleton _, fun name old other last => ?_⟩
      rintro rfl
      exact new (List.mem_singleton.mp last ▸ old)

private theorem index_of_getElem?
    (indices : skeleton.bones.map (·.index) = (List.range skeleton.size).map UInt32.ofNat)
    {position : Nat} {bone : Model.Bone} (found : skeleton.bones[position]? = some bone) :
    bone.index = UInt32.ofNat position := by
  obtain ⟨inside, rfl⟩ := List.getElem?_eq_some_iff.mp found
  have entry := congrArg (·[position]?) indices
  simpa [size, inside] using entry

/-- A name is looked up as the index of the one bone that has it. -/
theorem indexOf?_eq_some_iff (distinct : skeleton.names.Nodup)
    (indices : skeleton.bones.map (·.index) = (List.range skeleton.size).map UInt32.ofNat)
    (name : String) (index : UInt32) : skeleton.indexOf? name = some index ↔
      ∃ position, skeleton.names[position]? = some name ∧ index = UInt32.ofNat position := by
  have numbered {position : Nat} {bone : Model.Bone}
      (found : skeleton.bones[position]? = some bone) := index_of_getElem? indices found
  simp only [indexOf?, names, Option.map_eq_some_iff, List.getElem?_map]
  constructor
  · rintro ⟨bone, found, rfl⟩
    obtain ⟨position, inside, same⟩ := List.getElem_of_mem (List.mem_of_find?_eq_some found)
    have entry : skeleton.bones[position]? = some bone := same ▸ List.getElem?_eq_getElem inside
    exact ⟨position, ⟨bone, entry, by simpa using List.find?_some found⟩, numbered entry⟩
  · rintro ⟨position, ⟨bone, entry, rfl⟩, rfl⟩
    have present := (isSome_indexOf? skeleton bone.name).mpr
      (List.mem_map_of_mem (List.mem_of_getElem? entry))
    obtain ⟨index, found⟩ := Option.isSome_iff_exists.mp present
    obtain ⟨other, first, -⟩ := Option.map_eq_some_iff.mp found
    have same : other = bone := List.inj_on_of_nodup_map distinct (List.mem_of_find?_eq_some first)
      (List.mem_of_getElem? entry) (by simpa using List.find?_some first)
    exact ⟨bone, same ▸ first, numbered entry⟩

/-- As many bones as 32 bits can count have their positions as indices. -/
theorem Collects.toNat_index {sources : List (SourceBone Single)}
    (collects : skeleton.Collects sources) (few : skeleton.size ≤ 2 ^ 32) {position : Nat}
    {bone : Model.Bone} (found : skeleton.bones[position]? = some bone) :
    bone.index.toNat = position := by
  have inside : position < skeleton.size := (List.getElem?_eq_some_iff.mp found).1
  rw [index_of_getElem? collects.indices_eq found]
  exact UInt32.toNat_ofNat_of_lt' (by change _ < 2 ^ 32; omega)

theorem Collects.lookup_of_mem {sources : List (SourceBone Single)}
    (collects : skeleton.Collects sources) {bone : Model.Bone} (member : bone ∈ skeleton.bones) :
    skeleton.indexOf? bone.name = some bone.index := by
  obtain ⟨position, found⟩ := List.getElem?_of_mem member
  refine (collects.lookup _ _).mpr ⟨position, ?_, index_of_getElem? collects.indices_eq found⟩
  rw [names, List.getElem?_map, found]
  rfl

/-- The skeleton of a scene holds the bones of its meshes, or none where bones are left out. -/
theorem collects_collect (scene : Scene Single) (settings : Settings) :
    (collect scene settings).Collects
      (if settings.disableBones then [] else scene.meshes.toList.flatMap (·.bones)) := by
  have folded (sources : List (SourceBone Single)) : (sources.foldl add {}).Collects sources := by
    have indices := @indices_foldl_add sources {} rfl
    refine ⟨?_, indices, indexOf?_eq_some_iff (nodup_names_foldl_add sources .nil) indices⟩
    rw [names_foldl_add]
    simp [names]
  rw [collect]
  split
  case isTrue disabled => exact folded []
  case isFalse => exact folded _

end SceneBaker.Build.Skeleton
