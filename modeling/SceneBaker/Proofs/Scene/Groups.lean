import SceneBaker.Proofs.Scene.Append

/-! # Groups of meshes

A placement is a mesh of a scene with the position of the group that it went into. One mesh is made
of each group, by appending its members in the order in which they were placed. The members agree in
their key, so that what holds of each of them holds of the mesh that is made of them.
-/

set_option linter.dupNamespace false

namespace SceneBaker.Scene

open Number Mesh

variable {α : Type} {scene : Scene α}

/-- The meshes that went to a position, in the order in which they were placed. -/
def membersAt (placements : List (Nat × Nat)) (position : Nat) : List Nat :=
  (placements.filter (·.2 = position)).map (·.1)

theorem membersAt_append_singleton (placements : List (Nat × Nat)) (index place position : Nat) :
    membersAt (placements ++ [(index, place)]) position =
      membersAt placements position ++ if place = position then [index] else [] := by
  rw [membersAt, List.filter_append, List.map_append, membersAt, List.filter_singleton]
  by_cases here : place = position <;> simp [here]

@[simp] theorem mem_membersAt {placements : List (Nat × Nat)} {position index : Nat} :
    index ∈ membersAt placements position ↔ (index, position) ∈ placements := by
  simp [membersAt]

namespace Scene

/-- A mesh of the scene; an empty one where there is none. -/
def mesh (scene : Scene α) (index : Nat) : SourceMesh α := scene.meshes[index]?.getD {}

theorem mesh_eq {index : Nat} {mesh : SourceMesh α} (found : scene.meshes[index]? = some mesh) :
    scene.mesh index = mesh := by
  rw [Scene.mesh, found, Option.getD_some]

theorem mesh_mem {index : Nat} (inside : index < scene.meshes.size) :
    scene.mesh index ∈ scene.meshes := by
  rw [mesh_eq (Array.getElem?_eq_getElem inside)]
  exact Array.getElem_mem inside

theorem exists_mesh_eq {mesh : SourceMesh α} (member : mesh ∈ scene.meshes) :
    ∃ index < scene.meshes.size, scene.mesh index = mesh := by
  obtain ⟨index, inside, rfl⟩ := Array.mem_iff_getElem.mp member
  exact ⟨index, inside, mesh_eq (Array.getElem?_eq_getElem inside)⟩

/-- The meshes of a group in one. -/
def joined (scene : Scene α) : List Nat → SourceMesh α
  | [] => {}
  | first :: others => (others.map scene.mesh).foldl .append (scene.mesh first)

/-- The number of vertices of some meshes. -/
def vertexCount (scene : Scene α) (group : List Nat) : Nat :=
  (group.map fun index => (scene.mesh index).positions.size).sum

theorem joined_append_singleton {group : List Nat} (filled : group ≠ []) (index : Nat) :
    scene.joined (group ++ [index]) = (scene.joined group).append (scene.mesh index) := by
  obtain ⟨first, others, rfl⟩ := List.exists_cons_of_ne_nil filled
  simp [joined]

theorem size_joined (scene : Scene α) (group : List Nat) :
    (scene.joined group).positions.size = scene.vertexCount group := by
  induction group using List.reverseRecOn with
  | nil => rfl
  | append_singleton front index ih =>
    by_cases first : front = []
    · subst first
      exact (Nat.add_zero _).symm
    · rw [joined_append_singleton first, SourceMesh.positions_append, Array.size_append, ih]
      simp [vertexCount]

end Scene

/-! ## Groups -/

/-- Meshes that were made from groups. -/
structure Grouped (scene : Scene α) (mentions : Nat → Nat) (meshes : Array (SourceMesh α))
    (placements : List (Nat × Nat)) : Prop where
  made : ∀ position < meshes.size, membersAt placements position ≠ [] ∧
    meshes[position]? = some (scene.joined (membersAt placements position))
  inside : ∀ entry ∈ placements, entry.1 < scene.meshes.size ∧ entry.2 < meshes.size
  distinct : (placements.map (·.1)).Nodup
  alike : ∀ entry ∈ placements, ∀ other ∈ placements, entry.2 = other.2 →
    (scene.mesh entry.1).mergeKey = (scene.mesh other.1).mergeKey ∧
      (entry.1 ≠ other.1 → mentions entry.1 = 1)

namespace Grouped

variable {mentions : Nat → Nat} {meshes : Array (SourceMesh α)} {placements : List (Nat × Nat)}
  {index : Nat}

/-- A mesh goes to one position only. -/
theorem position_unique (grouped : Grouped scene mentions meshes placements) {first second : Nat}
    (one : (index, first) ∈ placements) (other : (index, second) ∈ placements) : first = second :=
  (Prod.mk.inj (List.inj_on_of_nodup_map grouped.distinct one other rfl)).2

private theorem distinct_snoc (grouped : Grouped scene mentions meshes placements)
    (fresh : index ∉ placements.map (·.1)) (position : Nat) :
    ((placements ++ [(index, position)]).map (·.1)).Nodup := by
  rw [List.map_append]
  refine List.nodup_append.mpr ⟨grouped.distinct, List.nodup_singleton _, ?_⟩
  intro old listed new last same
  obtain rfl : new = index := List.mem_singleton.mp last
  exact fresh (same ▸ listed)

/-- A mesh that stays alone makes a group of its own. -/
theorem push (grouped : Grouped scene mentions meshes placements)
    (present : index < scene.meshes.size) (fresh : index ∉ placements.map (·.1)) :
    Grouped scene mentions (meshes.push (scene.mesh index))
      (placements ++ [(index, meshes.size)]) := by
  have others : ∀ entry ∈ placements, entry.2 ≠ meshes.size :=
    fun entry member => Nat.ne_of_lt (grouped.inside entry member).2
  constructor
  case made =>
    intro position within
    rw [membersAt_append_singleton, Array.getElem?_push]
    by_cases last : position = meshes.size
    · have none : membersAt placements position = [] := by
        rw [List.eq_nil_iff_forall_not_mem]
        intro member among
        exact others _ (mem_membersAt.mp among) last
      rw [if_pos last, if_pos last.symm, none]
      exact ⟨List.cons_ne_nil _ _, rfl⟩
    · have earlier : position < meshes.size := by
        rw [Array.size_push] at within
        omega
      rw [if_neg last, if_neg (Ne.symm last), List.append_nil]
      exact grouped.made position earlier
  case inside =>
    intro entry member
    rw [Array.size_push]
    rcases List.mem_append.mp member with old | new
    · obtain ⟨within, below⟩ := grouped.inside entry old
      exact ⟨within, Nat.lt_succ_of_lt below⟩
    · obtain rfl := List.mem_singleton.mp new
      exact ⟨present, Nat.lt_succ_self _⟩
  case distinct => exact grouped.distinct_snoc fresh _
  case alike =>
    intro entry member other among same
    rcases List.mem_append.mp member with old | new <;>
      rcases List.mem_append.mp among with old' | new'
    · exact grouped.alike entry old other old' same
    · obtain rfl := List.mem_singleton.mp new'
      exact absurd same (others entry old)
    · obtain rfl := List.mem_singleton.mp new
      exact absurd same.symm (others other old')
    · obtain rfl := List.mem_singleton.mp new
      obtain rfl := List.mem_singleton.mp new'
      exact ⟨rfl, fun different => absurd rfl different⟩

/-- A mesh may join a group whose members agree with it and that nothing else mentions, as nothing
else mentions it. -/
theorem join (grouped : Grouped scene mentions meshes placements) {position : Nat}
    (present : index < scene.meshes.size) (fresh : index ∉ placements.map (·.1))
    (open' : position < meshes.size) (single : mentions index = 1)
    (agree : ∀ entry ∈ placements, entry.2 = position → mentions entry.1 = 1 ∧
      (scene.mesh entry.1).mergeKey = (scene.mesh index).mergeKey) :
    Grouped scene mentions (meshes.modify position (·.append (scene.mesh index)))
      (placements ++ [(index, position)]) := by
  constructor
  case made =>
    intro other within
    rw [Array.size_modify] at within
    obtain ⟨filled, found⟩ := grouped.made other within
    rw [membersAt_append_singleton, Array.getElem?_modify, found]
    by_cases here : position = other
    · rw [if_pos here, if_pos here, Option.map_some, Scene.joined_append_singleton filled]
      exact ⟨List.append_ne_nil_of_left_ne_nil filled _, rfl⟩
    · rw [if_neg here, if_neg here, List.append_nil]
      exact ⟨filled, rfl⟩
  case inside =>
    intro entry member
    rw [Array.size_modify]
    rcases List.mem_append.mp member with old | new
    · exact grouped.inside entry old
    · obtain rfl := List.mem_singleton.mp new
      exact ⟨present, open'⟩
  case distinct => exact grouped.distinct_snoc fresh _
  case alike =>
    intro entry member other among same
    rcases List.mem_append.mp member with old | new <;>
      rcases List.mem_append.mp among with old' | new'
    · exact grouped.alike entry old other old' same
    · obtain rfl := List.mem_singleton.mp new'
      obtain ⟨once, key⟩ := agree entry old same
      exact ⟨key, fun _ => once⟩
    · obtain rfl := List.mem_singleton.mp new
      obtain ⟨-, key⟩ := agree other old' same.symm
      exact ⟨key.symm, fun _ => single⟩
    · obtain rfl := List.mem_singleton.mp new
      obtain rfl := List.mem_singleton.mp new'
      exact ⟨rfl, fun different => absurd rfl different⟩

/-- Meshes that are left over follow one by one. -/
theorem extend (grouped : Grouped scene mentions meshes placements) {rest : List Nat}
    (present : ∀ index ∈ rest, index < scene.meshes.size)
    (fresh : (placements.map (·.1) ++ rest).Nodup) :
    Grouped scene mentions (meshes ++ (rest.map scene.mesh).toArray)
      (placements ++ rest.zipIdx meshes.size) := by
  induction rest generalizing meshes placements with
  | nil => simpa using grouped
  | cons index rest ih =>
    obtain ⟨here, others⟩ := List.forall_mem_cons.mp present
    have new : index ∉ placements.map (·.1) := by
      intro listed
      exact (List.nodup_append.mp fresh).2.2 index listed index List.mem_cons_self rfl
    have next := ih (grouped.push here new) others (by simpa using fresh)
    rw [Array.size_push] at next
    simpa [List.zipIdx_cons] using next

end Grouped

/-! ## What groups hand on -/

/-- The members of a group have one key. -/
def Agree (scene : Scene α) (group : List Nat) : Prop :=
  ∀ first ∈ group, ∀ other ∈ group, (scene.mesh first).mergeKey = (scene.mesh other).mergeKey

theorem Agree.front {front : List Nat} {index : Nat} (agree : Agree scene (front ++ [index])) :
    Agree scene front := fun first member other among =>
  agree first (List.mem_append_left _ member) other (List.mem_append_left _ among)

namespace Scene

/-- A joined mesh has the key of the meshes that it was joined from. -/
theorem mergeKey_joined {group : List Nat} (agree : Agree scene group) :
    ∀ index ∈ group, (scene.joined group).mergeKey = (scene.mesh index).mergeKey := by
  induction group using List.reverseRecOn with
  | nil => simp
  | append_singleton front index ih =>
    intro other member
    by_cases first : front = []
    · subst first
      obtain rfl := List.mem_singleton.mp member
      simp [joined]
    · obtain ⟨old, among⟩ := List.exists_mem_of_ne_nil front first
      have key := ih agree.front old among
      rw [joined_append_singleton first, SourceMesh.mergeKey_append (key.trans (agree _
        (List.mem_append_left _ among) _ (by simp))), key]
      exact agree _ (List.mem_append_left _ among) _ member

/-- A group is made member by member. -/
theorem joined_induction {P : List Nat → SourceMesh α → Prop} {group : List Nat}
    (filled : group ≠ []) (agree : Agree scene group)
    (single : ∀ index, P [index] (scene.mesh index))
    (step : ∀ front index, front ≠ [] →
      (scene.joined front).mergeKey = (scene.mesh index).mergeKey →
      P front (scene.joined front) →
      P (front ++ [index]) ((scene.joined front).append (scene.mesh index))) :
    P group (scene.joined group) := by
  induction group using List.reverseRecOn with
  | nil => exact absurd rfl filled
  | append_singleton front index ih =>
    by_cases first : front = []
    · subst first
      exact single index
    · obtain ⟨other, member⟩ := List.exists_mem_of_ne_nil front first
      have key := (mergeKey_joined agree.front other member).trans
        (agree other (List.mem_append_left _ member) index (by simp))
      rw [joined_append_singleton first]
      exact step front index first key (ih first agree.front)

variable {group : List Nat}

theorem faced_joined (filled : group ≠ []) (agree : Agree scene group) :
    (scene.joined group).Faced ↔ ∀ index ∈ group, (scene.mesh index).Faced := by
  refine joined_induction (P := fun group mesh =>
    mesh.Faced ↔ ∀ index ∈ group, (scene.mesh index).Faced) filled agree (by simp) ?_
  intro front index _ key made
  rw [SourceMesh.faced_append (congrArg MergeKey.primitive key), made]
  simp [or_imp, forall_and]

theorem cornered_joined (filled : group ≠ []) (agree : Agree scene group)
    (each : ∀ index ∈ group, (scene.mesh index).Cornered) : (scene.joined group).Cornered := by
  refine joined_induction (P := fun group mesh =>
    (∀ index ∈ group, (scene.mesh index).Cornered) → mesh.Cornered) filled agree (by simp) ?_ each
  intro front index _ _ made each
  exact (made fun other member => each other (List.mem_append_left _ member)).append
    (each index (by simp))

theorem weighted_joined (filled : group ≠ []) (agree : Agree scene group)
    (each : ∀ index ∈ group, (scene.mesh index).Weighted) : (scene.joined group).Weighted := by
  refine joined_induction (P := fun group mesh =>
    (∀ index ∈ group, (scene.mesh index).Weighted) → mesh.Weighted) filled agree (by simp) ?_ each
  intro front index _ _ made each
  exact (made fun other member => each other (List.mem_append_left _ member)).append
    (each index (by simp))

theorem mem_names_joined (filled : group ≠ []) (agree : Agree scene group) (name : String) :
    name ∈ (scene.joined group).bones.map (·.name) ↔
      ∃ index ∈ group, name ∈ (scene.mesh index).bones.map (·.name) := by
  refine joined_induction (P := fun group mesh => name ∈ mesh.bones.map (·.name) ↔
    ∃ index ∈ group, name ∈ (scene.mesh index).bones.map (·.name)) filled agree (by simp) ?_
  intro front index _ _ made
  rw [SourceMesh.mem_names_append, made]
  simp [or_and_right, exists_or]

end Scene

namespace Grouped

variable {mentions : Nat → Nat} {meshes : Array (SourceMesh α)} {placements : List (Nat × Nat)}

theorem nodup_membersAt (grouped : Grouped scene mentions meshes placements) (position : Nat) :
    (membersAt placements position).Nodup :=
  grouped.distinct.sublist (List.filter_sublist.map _)

/-- No mesh is in two groups. -/
theorem nodup_flatMap_membersAt (grouped : Grouped scene mentions meshes placements)
    {positions : List Nat} (distinct : positions.Nodup) :
    (positions.flatMap (membersAt placements)).Nodup := by
  rw [List.nodup_flatMap]
  refine ⟨fun position _ => grouped.nodup_membersAt position,
    distinct.imp fun {first second} different index one other => different ?_⟩
  exact grouped.position_unique (mem_membersAt.mp one) (mem_membersAt.mp other)

theorem agree_membersAt (grouped : Grouped scene mentions meshes placements) (position : Nat) :
    Agree scene (membersAt placements position) := fun _ one _ other =>
  (grouped.alike _ (mem_membersAt.mp one) _ (mem_membersAt.mp other) rfl).1

/-- A mesh that is not mentioned exactly once is a group of its own. -/
theorem membersAt_eq_singleton (grouped : Grouped scene mentions meshes placements)
    {index position : Nat} (member : (index, position) ∈ placements) (many : mentions index ≠ 1) :
    membersAt placements position = [index] := by
  refine List.perm_singleton.mp ((List.perm_ext_iff_of_nodup (grouped.nodup_membersAt position)
    (List.nodup_singleton _)).mpr fun other => ?_)
  rw [mem_membersAt, List.mem_singleton]
  constructor
  · intro among
    by_contra different
    exact many ((grouped.alike _ member _ among rfl).2 (Ne.symm different))
  · rintro rfl
    exact member

/-- A mesh that was made of a group. -/
theorem exists_group (grouped : Grouped scene mentions meshes placements)
    {mesh : SourceMesh α} (member : mesh ∈ meshes) : ∃ group, mesh = scene.joined group ∧
      group ≠ [] ∧ Agree scene group ∧ ∀ index ∈ group, index < scene.meshes.size := by
  obtain ⟨position, below, rfl⟩ := Array.mem_iff_getElem.mp member
  obtain ⟨filled, found⟩ := grouped.made position below
  rw [Array.getElem?_eq_getElem below] at found
  exact ⟨_, Option.some.inj found, filled, grouped.agree_membersAt position,
    fun index listed => (grouped.inside _ (mem_membersAt.mp listed)).1⟩

/-- The group that a mesh went into. -/
theorem exists_of_placed (grouped : Grouped scene mentions meshes placements) {index : Nat}
    (placed : index ∈ placements.map (·.1)) : ∃ group, index ∈ group ∧
      Agree scene group ∧ scene.joined group ∈ meshes := by
  obtain ⟨⟨_, position⟩, member, rfl⟩ := List.mem_map.mp placed
  obtain ⟨-, found⟩ := grouped.made position (grouped.inside _ member).2
  exact ⟨_, mem_membersAt.mpr member, grouped.agree_membersAt position,
    Array.mem_of_getElem? found⟩

end Grouped

end SceneBaker.Scene
