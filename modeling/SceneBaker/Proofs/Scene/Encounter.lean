import SceneBaker.Proofs.Scene.Conservation
import SceneBaker.Proofs.Scene.Convertible
import SceneBaker.Proofs.Scene.Drawing

/-! # Which influences merged meshes keep

A vertex keeps the first four influences in the order in which the bones of its mesh name them. In a
mesh that was joined from others this order is that of the joined bones, in which those of the first
mesh lead. So a vertex of another mesh that has more than four influences may keep others than it
does with its mesh built by itself.
-/

set_option linter.dupNamespace false

namespace SceneBaker.Scene

open Number Mesh Build

variable {α : Type} {settings : Settings}

/-! ## Members of joined meshes -/

/-- Influences in the order in which a joined mesh names them. Those of its first mesh keep theirs. -/
def encountered (joined : SourceMesh α) (first : Bool) (influences : List (String × α)) :
    List (String × α) :=
  if first then influences else byBone (joined.bones.map (·.name)) influences

/-- How a mesh stands in one that it was joined into: its vertices follow `start` others and hold
what they held. -/
structure Inside (joined mesh : SourceMesh α) (first : Bool) (start : Nat) : Prop where
  size : start + mesh.positions.size ≤ joined.positions.size
  corner : ∀ vertex < mesh.positions.size, joined.corner (start + vertex) = mesh.corner vertex
  influences : ∀ vertex < mesh.positions.size, influencesAt joined.bones (start + vertex) =
    encountered joined first (influencesAt mesh.bones vertex)

namespace Inside

variable {joined mesh other : SourceMesh α} {first : Bool} {start : Nat}

protected theorem refl (mesh : SourceMesh α) : Inside mesh mesh true 0 := by
  refine ⟨?_, fun vertex _ => ?_, fun vertex _ => ?_⟩ <;> rw [Nat.zero_add]
  rfl

theorem named (inside : Inside joined mesh first start) {vertex : Nat}
    (within : vertex < mesh.positions.size) : ∀ influence ∈ influencesAt mesh.bones vertex,
      influence.1 ∈ joined.bones.map (·.name) := by
  intro influence member
  have listed : influence ∈ influencesAt joined.bones (start + vertex) := by
    rw [inside.influences vertex within, encountered]
    split
    · exact member
    · exact (perm_byBone _ _).mem_iff.mpr member
  obtain ⟨bone, among, moves⟩ := List.mem_flatMap.mp listed
  obtain ⟨weight, -, rfl⟩ := List.mem_map.mp moves
  exact List.mem_map_of_mem among

variable (one : joined.Sound) (two : other.Sound)
  (few : joined.positions.size + other.positions.size ≤ 2 ^ 32)

include one two few

/-- A mesh stands as it stood when another one is appended. -/
theorem append (inside : Inside joined mesh first start) :
    Inside (joined.append other) mesh first start := by
  have early {vertex : Nat} (within : vertex < mesh.positions.size) :
      start + vertex < joined.positions.size :=
    (Nat.add_lt_add_left within start).trans_le inside.size
  constructor
  case size =>
    rw [SourceMesh.positions_append, Array.size_append]
    exact inside.size.trans (Nat.le_add_right ..)
  case corner =>
    intro vertex within
    rw [SourceMesh.corner_append_left one.toFitted two.weighted few (early within)]
    exact inside.corner vertex within
  case influences =>
    intro vertex within
    obtain ⟨more, names⟩ := names_append_prefix joined other
    rw [influencesAt_append_left two.weighted few (early within), inside.influences vertex within,
      encountered, encountered, ← names, byBone_append (inside.named within)]

/-- A mesh that is appended stands behind the others. -/
theorem of_append (same : joined.SameKind other) :
    Inside (joined.append other) other false joined.positions.size := by
  constructor
  case size => rw [SourceMesh.positions_append, Array.size_append]
  case corner => exact fun vertex _ => SourceMesh.corner_append_right one two same few vertex
  case influences =>
    exact fun vertex _ =>
      (influencesAt_append_right one.weighted two.weighted few vertex).influencesAt_eq

end Inside

theorem corners_append {mesh other : SourceMesh α} (cornered : other.Cornered)
    (few : mesh.positions.size + other.positions.size ≤ 2 ^ 32) :
    corners settings (mesh.append other) =
      corners settings mesh ++ (corners settings other).map (mesh.positions.size + ·) := by
  rw [corners, SourceMesh.faces_append, List.flatMap_append, List.flatMap_map, corners, corners,
    List.map_flatMap]
  refine congrArg _ (List.flatMap_congr fun face member => ?_)
  rw [wound_map, List.map_map, List.map_map]
  refine List.map_congr_left fun corner among => ?_
  exact toNat_add_ofNat (cornered face member corner (mem_wound.mp among)) few

/-- The corners of a joined mesh cut into those of its members. -/
structure Cut (settings : Settings) (scene : Scene α) (group : List Nat) (joined : SourceMesh α)
    (blocks : List (List Nat)) : Prop where
  corners : corners settings joined = blocks.flatten
  members : List.Forall₂ (fun entry block => ∃ start,
    block = (Build.corners settings (scene.mesh entry.1)).map (start + ·) ∧
      Inside joined (scene.mesh entry.1) (entry.2 == 0) start) group.zipIdx blocks

namespace Cut

variable {scene : Scene α}

theorem single (settings : Settings) (scene : Scene α) (index : Nat) :
    Cut settings scene [index] (scene.mesh index) [Build.corners settings (scene.mesh index)] :=
  ⟨by simp, .cons ⟨0, by simp, .refl _⟩ .nil⟩

theorem append {front : List Nat} {joined : SourceMesh α} {blocks : List (List Nat)} {index : Nat}
    (cut : Cut settings scene front joined blocks) (started : front ≠ []) (one : joined.Sound)
    (two : (scene.mesh index).Sound) (same : joined.SameKind (scene.mesh index))
    (few : joined.positions.size + (scene.mesh index).positions.size ≤ 2 ^ 32) :
    Cut settings scene (front ++ [index]) (joined.append (scene.mesh index)) (blocks ++
      [(Build.corners settings (scene.mesh index)).map (joined.positions.size + ·)]) := by
  constructor
  case corners =>
    rw [corners_append two.cornered few, cut.corners, List.flatten_append, List.flatten_singleton]
  case members =>
    have later : (0 + front.length == 0) = false := by
      rw [Nat.zero_add, beq_eq_false_iff_ne]
      exact fun none => started (List.length_eq_zero_iff.mp none)
    rw [List.zipIdx_append]
    refine List.rel_append (cut.members.imp ?_) (.cons ⟨_, rfl, ?_⟩ .nil)
    · rintro entry block ⟨start, rfl, inside⟩
      exact ⟨start, rfl, inside.append one two few⟩
    · rw [later]
      exact .of_append one two few same

end Cut

/-- A joined mesh has the corners of its members one after another. -/
theorem exists_cut_joined {scene : Scene α} {group : List Nat} (settings : Settings)
    (filled : group ≠ []) (agree : Agree scene group)
    (each : ∀ index ∈ group, (scene.mesh index).Sound)
    (few : (scene.joined group).positions.size ≤ 2 ^ 32) :
    ∃ blocks, Cut settings scene group (scene.joined group) blocks := by
  refine Scene.joined_induction_sound (P := fun group mesh =>
    ∃ blocks, Cut settings scene group mesh blocks) filled agree each few ?_ ?_
  · exact fun index => ⟨_, .single settings scene index⟩
  · rintro front index started one two same fits ⟨blocks, cut⟩
    exact ⟨_, cut.append started one two same fits⟩

/-! ## Corners by themselves and joined -/

/-- A corner that is built with its mesh by itself and once more in a joined mesh. Only its slots may
differ: both times they hold the first four influences in the order in which the mesh that was built
names them. -/
structure Refilled (before after : Skeleton) (joined : SourceMesh Single) (first : Bool)
    (influences : List (String × Single)) (own merged : Vertex) : Prop where
  alike : slotless merged = slotless own
  apart : stored before own = survivors influences
  together : stored after merged = survivors (encountered joined first influences)
  same : first = true ∨ influences.length ≤ maxInfluences ∨
    (influences.Pairwise fun one other => (joined.bones.map (·.name)).idxOf one.1 ≤
      (joined.bones.map (·.name)).idxOf other.1) →
    (stored after merged).Perm (stored before own)

/-- A mesh that is built by itself and as a block of a joined mesh, corner by corner. -/
def MemberKept (settings : Settings) (scene after : Scene Single) (joined : SourceMesh Single)
    (entry : Nat × Nat) (block : List Vertex) : Prop :=
  ∃ own, buildMesh (scene.mesh entry.1) (vertexFormat (scene.mesh entry.1) settings)
      (Skeleton.collect scene settings) settings = .ok own ∧
    own.vertices.length = (corners settings (scene.mesh entry.1)).length ∧
    block.length = own.vertices.length ∧
    ∀ position vertex : Nat, (corners settings (scene.mesh entry.1))[position]? = some vertex →
      ∃ one other, own.vertices[position]? = some one ∧ block[position]? = some other ∧
        Refilled (Skeleton.collect scene settings) (Skeleton.collect after settings) joined
          (entry.2 == 0) (influencesAt (scene.mesh entry.1).bones vertex) one other

/-- A joined mesh is built as the blocks of its members, one after another. -/
def GroupKept (settings : Settings) (scene after : Scene Single) (group : List Nat)
    (joined : SourceMesh Single) : Prop :=
  ∃ built blocks, buildMesh joined (vertexFormat joined settings)
      (Skeleton.collect after settings) settings = .ok built ∧
    built.vertices = blocks.flatten ∧
    List.Forall₂ (MemberKept settings scene after joined) group.zipIdx blocks

section

variable {scene after : Scene Single} {joined : SourceMesh Single} {first : Bool}

theorem refilled_of_stored {before after : Skeleton} {influences : List (String × Single)}
    {own merged : Vertex} (alike : slotless merged = slotless own)
    (apart : stored before own = survivors influences)
    (filled : stored after merged = survivors (encountered joined first influences)) :
    Refilled before after joined first influences own merged := by
  refine ⟨alike, apart, filled, fun kept => ?_⟩
  rw [apart, filled, encountered]
  split
  case isTrue => exact .refl _
  case isFalse other =>
    rcases kept with leads | few | ordered
    · exact absurd leads other
    · exact perm_survivors few (perm_byBone _ _)
    · rw [byBone_eq_self ordered]

theorem groupKept_of_cut {group : List Nat} {blocks : List (List Nat)}
    (cut : Cut settings scene group joined blocks) (listed : joined ∈ after.meshes)
    (present : ∀ index ∈ group, index < scene.meshes.size)
    (kinds : ∀ index ∈ group, joined.mergeKey = (scene.mesh index).mergeKey)
    (enabled : settings.disableBones = false)
    (few : (Skeleton.collect scene settings).size ≤ 2 ^ 32)
    (fewer : (Skeleton.collect after settings).size ≤ 2 ^ 32)
    (each : ∀ index ∈ group, (scene.mesh index).Buildable settings)
    (buildable : joined.Buildable settings) : GroupKept settings scene after group joined := by
  obtain ⟨built, vertexAt, success, vertices, filled⟩ :=
    exists_buildMesh_eq_ok listed fewer buildable enabled
  refine ⟨built, blocks.map (·.map vertexAt), success, ?_, ?_⟩
  · rw [vertices, cut.corners, List.map_flatten]
  have members := (List.forall₂_and_left ..).mpr
    ⟨fun (entry : Nat × Nat) member => List.fst_mem_of_mem_zipIdx member, cut.members⟩
  refine List.forall₂_map_right_iff.mpr (members.imp ?_)
  rintro ⟨index, number⟩ _ ⟨member, start, rfl, inside⟩
  have source := Scene.mesh_mem (present index member)
  obtain ⟨own, ownAt, single, alone, held⟩ :=
    exists_buildMesh_eq_ok source few (each index member) enabled
  refine ⟨own, single, by rw [alone, List.length_map], by simp [alone],
    fun position vertex found => ?_⟩
  have within := lt_size_of_mem_corners (each index member).cornered (List.mem_of_getElem? found)
  obtain ⟨bare, apart⟩ := held vertex within
  obtain ⟨plain, together⟩ := filled (start + vertex)
    ((Nat.add_lt_add_left within start).trans_le inside.size)
  refine ⟨ownAt vertex, vertexAt (start + vertex), by simp [alone, found], by simp [found],
    refilled_of_stored ?_ apart ?_⟩
  · have format := (SourceMesh.sameKind_iff.mpr (kinds index member)).vertexFormat_eq settings
    have same := describedCorner_eq (inside.corner vertex within) format
    rw [plain, bare]
    exact congrArg DrawnCorner.vertex same
  · rw [together, inside.influences vertex within]

end

/-! ## Merged scenes -/

namespace Merged

variable {scene after : Scene α} {placements : List (Nat × Nat)}

/-- The groups hold every mesh once. -/
theorem perm_groups {mentions : Nat → Nat} (merged : Merged scene after mentions placements) :
    ((List.range after.meshes.size).flatMap (membersAt placements)).Perm
      (List.range scene.meshes.size) := by
  have distinct :=
    merged.grouped.nodup_flatMap_membersAt (List.nodup_range (n := after.meshes.size))
  refine (List.perm_ext_iff_of_nodup distinct List.nodup_range).mpr fun index => ?_
  simp only [List.mem_flatMap, List.mem_range, mem_membersAt]
  constructor
  · rintro ⟨position, -, placed⟩
    exact (merged.grouped.inside _ placed).1
  · intro inside
    obtain ⟨⟨_, position⟩, placed, rfl⟩ := List.mem_map.mp (merged.complete index inside)
    exact ⟨position, (merged.grouped.inside _ placed).2, placed⟩

end Merged

/-- Whether meshes are merged or not, a corner keeps the first four of its influences in the order in
which the bones of its mesh name them. What it keeps is the same unless its mesh was joined behind
others, it has more than four influences, and the joined bones stand in another order. -/
theorem exists_groupKept_mergeMeshes {scene : Scene Single} (sound : scene.Sound)
    (enabled : settings.disableBones = false)
    (few : (Skeleton.collect scene settings).size ≤ 2 ^ 32) :
    ∃ groups : List (List Nat), groups.flatten.Perm (List.range scene.meshes.size) ∧
      List.Forall₂ (fun group joined => (∀ index ∈ group, (scene.mesh index).Faced) →
        joined.positions.size ≤ 2 ^ 32 →
        GroupKept settings scene scene.mergeMeshes group joined) groups
        scene.mergeMeshes.meshes.toList := by
  obtain ⟨placements, merged⟩ := scene.merged_mergeMeshes
  have names (name : String) : name ∈ (Skeleton.collect scene.mergeMeshes settings).names ↔
      name ∈ (Skeleton.collect scene settings).names := by
    rw [Skeleton.mem_names_collect, Skeleton.mem_names_collect, merged.mem_names]
  have fewer := (Skeleton.size_collect_eq names).trans_le few
  refine ⟨(List.range scene.mergeMeshes.meshes.size).map (membersAt placements), ?_, ?_⟩
  · rw [← List.flatMap_def]
    exact merged.perm_groups
  refine List.forall₂_iff_get.mpr ⟨by simp, fun position within below => ?_⟩
  rw [Array.length_toList] at below
  obtain ⟨filled, made⟩ := merged.grouped.made position below
  have group : ((List.range scene.mergeMeshes.meshes.size).map (membersAt placements)).get
      ⟨position, within⟩ = membersAt placements position := by simp
  have mesh : scene.mergeMeshes.meshes.toList.get ⟨position, below⟩ =
      scene.joined (membersAt placements position) := by
    rw [Array.getElem?_eq_getElem below] at made
    exact Option.some.inj made
  rw [group, mesh]
  intro faced room
  have agree := merged.grouped.agree_membersAt position
  have present (index : Nat) (member : index ∈ membersAt placements position) :=
    (merged.grouped.inside _ (mem_membersAt.mp member)).1
  have each (index : Nat) (member : index ∈ membersAt placements position) :
      (scene.mesh index).Buildable settings := by
    have member' := sound.meshes _ (Scene.mesh_mem (present index member))
    exact ⟨faced index member, member'.cornered, fun _ => member'.weighted⟩
  have buildable : (scene.joined (membersAt placements position)).Buildable settings :=
    ⟨(Scene.faced_joined filled agree).mpr faced,
      Scene.cornered_joined filled agree fun index member => (each index member).cornered,
      fun _ => Scene.weighted_joined filled agree fun index member =>
        (each index member).weighted enabled⟩
  obtain ⟨blocks, cut⟩ := exists_cut_joined settings filled agree
    (fun index member => sound.meshes _ (Scene.mesh_mem (present index member))) room
  exact groupKept_of_cut cut (Array.mem_of_getElem? made) present (Scene.mergeKey_joined agree)
    enabled few fewer each buildable

/-- A hand in two parts. The glove has a vertex with five influences, and the sleeve names the last
of its bones first. -/
def hand : Scene Single where
  meshes := #[
    { name := "sleeve"
      positions := #[0, 0, 0]
      faces := [[0, 1, 2]]
      bones := [⟨"wrist", 1, [⟨0, 1⟩]⟩] },
    { name := "glove"
      positions := #[0, 0, 0]
      faces := [[0, 1, 2]]
      bones := [⟨"thumb", 1, [⟨0, 1⟩]⟩, ⟨"index", 1, [⟨0, 1⟩]⟩, ⟨"middle", 1, [⟨0, 1⟩]⟩,
        ⟨"ring", 1, [⟨0, 1⟩]⟩, ⟨"wrist", 1, [⟨0, 1⟩]⟩] }]
  nodes := #[⟨"hand", 1, [0, 1], [1, 2, 3, 4, 5]⟩, ⟨"wrist", 1, [], []⟩, ⟨"thumb", 1, [], []⟩,
    ⟨"index", 1, [], []⟩, ⟨"middle", 1, [], []⟩, ⟨"ring", 1, [], []⟩]

theorem sound_hand : hand.Sound := by
  constructor
  case meshes =>
    have fits (mesh : SourceMesh Single) (member : mesh ∈ hand.meshes) : mesh.Fitted := by
      simp only [hand, List.mem_toArray, List.mem_cons, List.not_mem_nil, or_false] at member
      rcases member with rfl | rfl <;> constructor <;> simp [Fits]
    have cornered : ∀ mesh ∈ hand.meshes, mesh.Cornered := by simp [hand, SourceMesh.Cornered]
    have weighted : ∀ mesh ∈ hand.meshes, mesh.Weighted := by simp [hand, SourceMesh.Weighted]
    exact fun mesh member => ⟨fits mesh member, cornered mesh member, weighted mesh member⟩
  case listed => decide
  case once => decide

theorem exists_groupKept_hand : hand.Sound ∧ hand.mergeMeshes.meshes.size = 1 ∧
    (∀ mesh ∈ hand.meshes, mesh.Faced) ∧ ({} : Settings).disableBones = false ∧
    (Skeleton.collect hand {}).size ≤ 2 ^ 32 ∧
    (∀ mesh ∈ hand.mergeMeshes.meshes, mesh.positions.size ≤ 2 ^ 32) ∧
    ∃ groups : List (List Nat), groups.flatten.Perm (List.range hand.meshes.size) ∧
      List.Forall₂ (fun group joined => (∀ index ∈ group, (hand.mesh index).Faced) →
        joined.positions.size ≤ 2 ^ 32 →
        GroupKept {} hand hand.mergeMeshes group joined) groups hand.mergeMeshes.meshes.toList := by
  have faced : ∀ mesh ∈ hand.meshes, mesh.Faced := by
    unfold SourceMesh.Faced
    decide
  have few : (Skeleton.collect hand {}).size ≤ 2 ^ 32 := by decide +kernel
  have room : ∀ mesh ∈ hand.mergeMeshes.meshes, mesh.positions.size ≤ 2 ^ 32 := by decide +kernel
  exact ⟨sound_hand, by decide +kernel, faced, rfl, few, room,
    exists_groupKept_mergeMeshes sound_hand rfl few⟩

/-- The glove keeps its wrist and loses the ring finger when it is joined to the sleeve. -/
theorem not_perm_stored_hand : hand.Sound ∧ (∀ mesh ∈ hand.meshes, mesh.Faced) ∧
    (hand.mergeMeshes.mesh 0).faces = (hand.mesh 0).faces ++ [[3, 4, 5]] ∧
    ∃ own merged, buildMesh (hand.mesh 1) (vertexFormat (hand.mesh 1) {})
        (Skeleton.collect hand {}) {} = .ok own ∧
      buildMesh (hand.mergeMeshes.mesh 0) (vertexFormat (hand.mergeMeshes.mesh 0) {})
        (Skeleton.collect hand.mergeMeshes {}) {} = .ok merged ∧
      ∃ one other, own.vertices[0]? = some one ∧ merged.vertices[3]? = some other ∧
        ¬(stored (Skeleton.collect hand.mergeMeshes {}) other).Perm
          (stored (Skeleton.collect hand {}) one) := by
  have ok {result : Except ConversionError Mesh.Mesh} {mesh : Mesh.Mesh}
      (success : result.toOption = some mesh) : result = .ok mesh := by
    cases result with
    | error => cases success
    | ok => exact congrArg _ (Option.some.inj success)
  have fingers : (((buildMesh (hand.mesh 1) (vertexFormat (hand.mesh 1) {})
      (Skeleton.collect hand {}) {}).toOption.bind (·.vertices[0]?)).map
      (stored (Skeleton.collect hand {}))) =
      some [(some "thumb", 1), (some "index", 1), (some "middle", 1), (some "ring", 1)] := by
    decide +kernel
  have joined : (((buildMesh (hand.mergeMeshes.mesh 0) (vertexFormat (hand.mergeMeshes.mesh 0) {})
      (Skeleton.collect hand.mergeMeshes {}) {}).toOption.bind (·.vertices[3]?)).map
      (stored (Skeleton.collect hand.mergeMeshes {}))) =
      some [(some "wrist", 1), (some "thumb", 1), (some "index", 1), (some "middle", 1)] := by
    decide +kernel
  obtain ⟨one, found, slots⟩ := Option.map_eq_some_iff.mp fingers
  obtain ⟨own, alone, first⟩ := Option.bind_eq_some_iff.mp found
  obtain ⟨other, again, others⟩ := Option.map_eq_some_iff.mp joined
  obtain ⟨merged, together, fourth⟩ := Option.bind_eq_some_iff.mp again
  have faced : ∀ mesh ∈ hand.meshes, mesh.Faced := by
    unfold SourceMesh.Faced
    decide
  refine ⟨sound_hand, faced, by decide +kernel, own, merged, ok alone, ok together, one, other, first,
    fourth, ?_⟩
  rw [slots, others]
  decide

end SceneBaker.Scene
