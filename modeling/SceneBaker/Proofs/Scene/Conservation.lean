import SceneBaker.Proofs.Scene.Faces
import SceneBaker.Proofs.Scene.Kinds

/-! # Merging loses and makes up nothing

After merging, a node draws the faces that it drew. A mesh that several nodes list, or none, is still
there by itself, and what only one node lists is merged as far as materials, kinds of primitives and
attributes agree.
-/

set_option linter.dupNamespace false

namespace SceneBaker.Scene

open Number Mesh

variable {α : Type} {scene after : Scene α} {placements : List (Nat × Nat)} {place : Nat → Nat}
  {before later : SourceNode α}

namespace Scene

/-- A scene whose faces, weights and nodes refer to what is there, whose meshes have as many entries
of every attribute as vertices, and whose nodes list no mesh twice. -/
structure Sound (scene : Scene α) : Prop where
  meshes : ∀ mesh ∈ scene.meshes, mesh.Sound
  listed : ∀ node ∈ scene.nodes, ∀ index ∈ node.meshes, index < scene.meshes.size
  once : ∀ node ∈ scene.nodes, node.meshes.Nodup

/-- The number of nodes that list a mesh. -/
def listings (scene : Scene α) (index : Nat) : Nat := scene.nodes.toList.countP (index ∈ ·.meshes)

/-- The faces that a node draws. -/
def drawn (scene : Scene α) (node : SourceNode α) : Multiset (Face α) :=
  (node.meshes.flatMap fun index => (scene.mesh index).drawn : List (Face α))

/-- If no node lists a mesh twice, mentions are nodes. -/
theorem Sound.mentions_eq (sound : scene.Sound) {index : Nat} (inside : index < scene.meshes.size) :
    scene.mentions[index]?.getD 0 = scene.listings index := by
  have counted (nodes : List (SourceNode α)) (once : ∀ node ∈ nodes, node.meshes.Nodup) :
      (nodes.flatMap (·.meshes)).count index = nodes.countP (index ∈ ·.meshes) := by
    induction nodes with
    | nil => rfl
    | cons node nodes ih =>
      obtain ⟨here, others⟩ := List.forall_mem_cons.mp once
      rw [List.flatMap_cons, List.count_append, ih others, List.countP_cons, here.count,
        Nat.add_comm]
      simp
  rw [Scene.mentions_eq inside]
  exact counted _ fun node member => sound.once node (Array.mem_toList_iff.mp member)

end Scene

/-- A node lists the meshes that it listed, where they went, and draws the same faces. Meshes that
several nodes list, or none, are not mixed with others, and of those that are only its own no two
agree. A vertex of a face has 32 bits, which bounds the meshes that are joined. -/
structure NodeKept (scene after : Scene α) (place : Nat → Nat) (before later : SourceNode α) :
    Prop where
  same : later = { before with meshes := later.meshes }
  distinct : later.meshes.Nodup
  within : ∀ position ∈ later.meshes, position < after.meshes.size
  listed : ∀ position, position ∈ later.meshes ↔ ∃ index ∈ before.meshes, place index = position
  draws : (∀ position ∈ later.meshes, (after.mesh position).positions.size ≤ 2 ^ 32) →
    after.drawn later = scene.drawn before
  separate : ∀ index < scene.meshes.size, scene.listings index ≠ 1 →
    (place index ∈ later.meshes ↔ index ∈ before.meshes)
  apart : ∀ first ∈ later.meshes, ∀ second ∈ later.meshes, first ≠ second →
    after.listings first = 1 → after.listings second = 1 →
    (after.mesh first).mergeKey ≠ (after.mesh second).mergeKey

/-- A scene whose meshes were merged: nothing is lost and nothing made up. Every mesh went to a
place, and one that several nodes list, or none, is there unchanged and has the place for itself. -/
structure Conserved (scene after : Scene α) (place : Nat → Nat) : Prop where
  nodes : List.Forall₂ (NodeKept scene after place) scene.nodes.toList after.nodes.toList
  placed : ∀ position, position < after.meshes.size ↔
    ∃ index < scene.meshes.size, place index = position
  unchanged : ∀ index < scene.meshes.size, scene.listings index ≠ 1 →
    after.meshes[place index]? = scene.meshes[index]? ∧
      ∀ other < scene.meshes.size, place other = place index → other = index
  materials : after.materials = scene.materials
  clips : after.clips = scene.clips

namespace Merged

variable {mentions : Nat → Nat}

/-- Every mesh has a place. -/
theorem exists_place (merged : Merged scene after mentions placements) : ∃ place : Nat → Nat,
    ∀ index position, (index, position) ∈ placements ↔
      index < scene.meshes.size ∧ place index = position := by
  have found (index : Nat) : ∃ position, index < scene.meshes.size →
      (index, position) ∈ placements := by
    by_cases inside : index < scene.meshes.size
    · obtain ⟨⟨_, position⟩, member, rfl⟩ := List.mem_map.mp (merged.complete index inside)
      exact ⟨position, fun _ => member⟩
    · exact ⟨0, fun within => absurd within inside⟩
  choose place placed using found
  refine ⟨place, fun index position => ⟨fun member => ?_, ?_⟩⟩
  · have inside := (merged.grouped.inside _ member).1
    exact ⟨inside, merged.grouped.position_unique (placed index inside) member⟩
  · rintro ⟨inside, rfl⟩
    exact placed index inside

section

variable (merged : Merged scene after mentions placements)
  (places : ∀ index position, (index, position) ∈ placements ↔
    index < scene.meshes.size ∧ place index = position)

include merged places

/-- A mesh that was made of a group has the key of its members. -/
theorem mergeKey_place {index : Nat} (inside : index < scene.meshes.size) :
    (after.mesh (place index)).mergeKey = (scene.mesh index).mergeKey := by
  have member := (places index _).mpr ⟨inside, rfl⟩
  obtain ⟨-, made⟩ := merged.grouped.made _ (merged.grouped.inside _ member).2
  rw [Scene.mesh_eq made]
  exact Scene.mergeKey_joined (merged.grouped.agree_membersAt _) index (mem_membersAt.mpr member)

/-- A mesh that is not mentioned exactly once has its place for itself. -/
theorem eq_of_place_eq {index other : Nat} (inside : index < scene.meshes.size)
    (within : other < scene.meshes.size) (many : mentions index ≠ 1)
    (same : place other = place index) : other = index := by
  have alone := merged.grouped.membersAt_eq_singleton ((places index _).mpr ⟨inside, rfl⟩) many
  have member := mem_membersAt.mpr ((places other _).mpr ⟨within, same⟩)
  rw [alone] at member
  exact List.mem_singleton.mp member

theorem unchanged_place {index : Nat} (inside : index < scene.meshes.size)
    (many : mentions index ≠ 1) : after.meshes[place index]? = scene.meshes[index]? := by
  have member := (places index _).mpr ⟨inside, rfl⟩
  obtain ⟨-, made⟩ := merged.grouped.made _ (merged.grouped.inside _ member).2
  rw [made, merged.grouped.membersAt_eq_singleton member many, Array.getElem?_eq_getElem inside]
  exact congrArg some (Scene.mesh_eq (Array.getElem?_eq_getElem inside))

theorem placed_iff (position : Nat) : position < after.meshes.size ↔
    ∃ index < scene.meshes.size, place index = position := by
  constructor
  · intro below
    obtain ⟨index, member⟩ := List.exists_mem_of_ne_nil _ (merged.grouped.made position below).1
    exact ⟨index, (places index position).mp (mem_membersAt.mp member)⟩
  · rintro ⟨index, inside, rfl⟩
    exact (merged.grouped.inside _ ((places index _).mpr ⟨inside, rfl⟩)).2

end

/-- Each node comes with what it was before. -/
theorem forall₂_relisted (merged : Merged scene after mentions placements) :
    List.Forall₂ (fun before later => before ∈ scene.nodes ∧
      Relisted scene placements before later) scene.nodes.toList after.nodes.toList :=
  (List.forall₂_and_left ..).mpr ⟨fun _ member => Array.mem_toList_iff.mp member, merged.nodes⟩

/-- A node lists what it listed, where it went. -/
theorem mem_relisted_iff (places : ∀ index position, (index, position) ∈ placements ↔
      index < scene.meshes.size ∧ place index = position)
    (relisted : Relisted scene placements before later)
    (present : ∀ index ∈ before.meshes, index < scene.meshes.size) (position : Nat) :
    position ∈ later.meshes ↔ ∃ index ∈ before.meshes, place index = position := by
  constructor
  · intro listed
    obtain ⟨index, member⟩ := relisted.valid position listed
    exact ⟨index, ((relisted.members index).mp ⟨position, listed, member⟩).1,
      ((places index position).mp member).2⟩
  · rintro ⟨index, mentioned, rfl⟩
    obtain ⟨position, listed, member⟩ :=
      (relisted.members index).mpr ⟨mentioned, present index mentioned⟩
    rwa [((places index position).mp member).2]

/-- A node draws the faces that it drew. -/
theorem drawn_relisted (merged : Merged scene after mentions placements) (sound : scene.Sound)
    (relisted : Relisted scene placements before later) (node : before ∈ scene.nodes)
    (few : ∀ position ∈ later.meshes, (after.mesh position).positions.size ≤ 2 ^ 32) :
    after.drawn later = scene.drawn before := by
  have group : ∀ position ∈ later.meshes, (after.mesh position).drawn =
      (membersAt placements position).flatMap fun index => (scene.mesh index).drawn := by
    intro position listed
    obtain ⟨index, member⟩ := relisted.valid position listed
    obtain ⟨filled, made⟩ := merged.grouped.made position (merged.grouped.inside _ member).2
    have fits := few position listed
    rw [Scene.mesh_eq made] at fits ⊢
    exact drawn_joined filled (merged.grouped.agree_membersAt _) (fun index member => sound.meshes _
      (Scene.mesh_mem (merged.grouped.inside _ (mem_membersAt.mp member)).1)) fits
  have perm := merged.perm_members relisted (sound.once before node) (sound.listed before node)
  rw [Scene.drawn, Scene.drawn, List.flatMap_congr group, ← List.flatMap_assoc]
  exact Multiset.coe_eq_coe.mpr (perm.flatMap_right _)

section

variable (merged : Merged scene after mentions placements) (sound : scene.Sound)
  (places : ∀ index position, (index, position) ∈ placements ↔
    index < scene.meshes.size ∧ place index = position)

include merged sound places

/-- A mesh with a place for itself is listed there by the nodes that listed it. -/
theorem place_mem_iff (relisted : Relisted scene placements before later)
    (node : before ∈ scene.nodes) {index : Nat} (inside : index < scene.meshes.size)
    (many : mentions index ≠ 1) : place index ∈ later.meshes ↔ index ∈ before.meshes := by
  have present := sound.listed before node
  rw [mem_relisted_iff places relisted present]
  constructor
  · rintro ⟨other, listed, same⟩
    exact merged.eq_of_place_eq places inside (present other listed) many same ▸ listed
  · exact fun listed => ⟨index, listed, rfl⟩

/-- As many nodes list it. -/
theorem listings_place {index : Nat} (inside : index < scene.meshes.size)
    (many : mentions index ≠ 1) : after.listings (place index) = scene.listings index := by
  have same : List.Forall₂ (fun before later => place index ∈ later.meshes ↔ index ∈ before.meshes)
      scene.nodes.toList after.nodes.toList :=
    merged.forall₂_relisted.imp fun before later ⟨node, relisted⟩ =>
      merged.place_mem_iff sound places relisted node inside many
  rw [Scene.listings, Scene.listings]
  generalize scene.nodes.toList = befores, after.nodes.toList = afters at same ⊢
  induction same with
  | nil => rfl
  | cons here _ ih => simp only [List.countP_cons, here, ih]

/-- Two meshes that only one node lists differ if meshes that agree went to one place. -/
theorem mergeKey_ne_of_listings
    (counted : ∀ index < scene.meshes.size, mentions index = scene.listings index)
    (relisted : Relisted scene placements before later) (node : before ∈ scene.nodes)
    (together : ∀ first ∈ before.meshes, ∀ second ∈ before.meshes, mentions first = 1 →
      mentions second = 1 → (scene.mesh first).mergeKey = (scene.mesh second).mergeKey →
      place first = place second)
    {first second : Nat} (one : first ∈ later.meshes) (other : second ∈ later.meshes)
    (different : first ≠ second) (single : after.listings first = 1)
    (alone : after.listings second = 1) :
    (after.mesh first).mergeKey ≠ (after.mesh second).mergeKey := by
  have present := sound.listed before node
  have mentioned {position : Nat} (listed : position ∈ later.meshes)
      (single : after.listings position = 1) :
      ∃ index ∈ before.meshes, place index = position ∧ mentions index = 1 := by
    obtain ⟨index, old, rfl⟩ := (mem_relisted_iff places relisted present position).mp listed
    refine ⟨index, old, rfl, ?_⟩
    by_contra many
    rw [merged.listings_place sound places (present index old) many,
      ← counted index (present index old)] at single
    exact many single
  obtain ⟨index, old, rfl, once⟩ := mentioned one single
  obtain ⟨again, listed, rfl, twice⟩ := mentioned other alone
  rw [merged.mergeKey_place places (present index old),
    merged.mergeKey_place places (present again listed)]
  exact fun same => different (together index old again listed once twice same)

end

end Merged

namespace Scene

/-- Merging the meshes of a scene keeps every face, and leaves alone what is shared and what nothing
lists. -/
theorem exists_conserved_mergeMeshes (sound : scene.Sound) :
    ∃ place, Conserved scene scene.mergeMeshes place := by
  obtain ⟨placements, merged, kept⟩ := scene.exists_merged
  obtain ⟨place, places⟩ := merged.exists_place
  have counted : ∀ index < scene.meshes.size,
      scene.mentions[index]?.getD 0 = scene.listings index := fun _ => sound.mentions_eq
  refine ⟨place, ⟨merged.forall₂_relisted.imp ?_, merged.placed_iff places, ?_, merged.materials,
    merged.clips⟩⟩
  · rintro before later ⟨node, relisted⟩
    have present := sound.listed before node
    have listed := Merged.mem_relisted_iff places relisted present
    constructor
    case same => exact relisted.same
    case distinct => exact relisted.distinct
    case within =>
      intro position member
      obtain ⟨index, placed⟩ := relisted.valid position member
      exact (merged.grouped.inside _ placed).2
    case listed => exact listed
    case draws => exact merged.drawn_relisted sound relisted node
    case separate =>
      intro index inside many
      rw [← counted index inside] at many
      exact merged.place_mem_iff sound places relisted node inside many
    case apart =>
      intro first one second other different single alone
      refine merged.mergeKey_ne_of_listings sound places counted relisted node ?_ one other
        different single alone
      intro index old again listed once twice same
      obtain ⟨position, found, joined⟩ := scene.together_placeNodes before node index old again
        listed (present index old) (present again listed) once twice same
      rw [((places _ _).mp (kept index position found)).2,
        ((places _ _).mp (kept again position joined)).2]
  · intro index inside many
    rw [← counted index inside] at many
    exact ⟨merged.unchanged_place places inside many,
      fun other within same => merged.eq_of_place_eq places inside within many same⟩

/-- A stall whose tack is merged. A lantern hangs in two places, and nothing lists the shovel. -/
def stable : Scene Single where
  meshes := #[
    { name := "saddle"
      positions := #[0, ⟨1, 0, 0⟩, ⟨0, 1, 0⟩]
      faces := [[0, 1, 2]]
      bones := [⟨"girth", 1, [⟨0, 1⟩]⟩] },
    { name := "lantern", positions := #[0, 0, 0], faces := [[2, 1, 0]] },
    { name := "shovel", positions := #[0, 0], faces := [[0, 1, 0]] },
    { name := "stirrup"
      positions := #[⟨0, 0, 1⟩, 0, 0]
      faces := [[2, 1, 0], [0, 1, 2]]
      bones := [⟨"strap", 1, [⟨2, 1⟩]⟩, ⟨"girth", 1, [⟨0, 1⟩]⟩] },
    { name := "blanket", positions := #[0, 0, 0], faces := [[0, 1, 2]] }]
  nodes := #[⟨"stable", 1, [1], [1]⟩, ⟨"stall", 1, [0, 1, 3, 4], []⟩]

theorem exists_conserved_stable : stable.Sound ∧
    stable.mergeMeshes.meshes.toList.map (fun mesh => (mesh.name, mesh.positions.size)) =
      [("lantern", 3), ("saddle", 6), ("blanket", 3), ("shovel", 2)] ∧
    ∃ place, Conserved stable stable.mergeMeshes place := by
  have sound : stable.Sound := by
    constructor
    case meshes =>
      have fits (mesh : SourceMesh Single) (member : mesh ∈ stable.meshes) : mesh.Fitted := by
        simp only [stable, List.mem_toArray, List.mem_cons, List.not_mem_nil, or_false] at member
        rcases member with rfl | rfl | rfl | rfl | rfl <;> constructor <;> simp [Fits]
      have cornered : ∀ mesh ∈ stable.meshes, mesh.Cornered := by
        simp [stable, SourceMesh.Cornered]
      have weighted : ∀ mesh ∈ stable.meshes, mesh.Weighted := by
        simp [stable, SourceMesh.Weighted]
      exact fun mesh member => ⟨fits mesh member, cornered mesh member, weighted mesh member⟩
    case listed => decide
    case once => decide
  exact ⟨sound, by decide +kernel, exists_conserved_mergeMeshes sound⟩

end Scene

end SceneBaker.Scene
