import SceneBaker.Proofs.Scene.Groups

/-! # Merged meshes

Merging puts every mesh of a scene into one group. If the members of a group are several, only the
node that lists the group mentions them; so each node lists the groups of the meshes that it
mentioned, and nothing else.
-/

set_option linter.dupNamespace false

namespace SceneBaker.Scene

open Number Mesh

variable {α : Type} {scene : Scene α}

/-! ## Nodes under way -/

namespace Merge

/-- A merge that has placed the meshes `done`, each where its placement says. -/
structure Tracks (scene : Scene α) (mentions : Nat → Nat) (done : List Nat) (merge : Merge α)
    (placements : List (Nat × Nat)) : Prop
    extends Grouped scene mentions merge.meshes placements where
  size : merge.placed.size = scene.meshes.size
  placed : ∀ index position, merge.placed[index]?.join = some position ↔
    (index, position) ∈ placements
  seen : ∀ index, index ∈ placements.map (·.1) ↔ index ∈ done ∧ index < scene.meshes.size

/-- A node that has placed the meshes `here` lists their positions. Its groups were started at
`start` or later and hold nothing that is mentioned twice. -/
structure Lists (scene : Scene α) (mentions : Nat → Nat) (start : Nat) (here : List Nat)
    (placements : List (Nat × Nat)) (node : OfNode) : Prop where
  distinct : node.listed.Nodup
  valid : ∀ position ∈ node.listed, ∃ index, (index, position) ∈ placements
  members : ∀ index, (∃ position ∈ node.listed, (index, position) ∈ placements) ↔
    index ∈ here ∧ index < scene.meshes.size
  opened : ∀ group ∈ node.groups, start ≤ group.2 ∧ group.2 ∈ node.listed ∧
    ∀ entry ∈ placements, entry.2 = group.2 →
      mentions entry.1 = 1 ∧ (scene.mesh entry.1).mergeKey = group.1

variable {mentions : Nat → Nat} {start : Nat} {done here : List Nat} {merge : Merge α}
  {placements : List (Nat × Nat)} {node : OfNode} {index : Nat}

/-- What one more placement does to a merge and to the node that asked for it. -/
structure Advances (scene : Scene α) (mentions : Nat → Nat) (start : Nat) (done here : List Nat)
    (placements : List (Nat × Nat)) (result : Merge α × OfNode) : Prop where
  tracks : Tracks scene mentions done result.1 placements
  lists : Lists scene mentions start here placements result.2
  later : start ≤ result.1.meshes.size

namespace Lists

/-- A placement at a position that a node does not list does not matter to it. -/
theorem extend (lists : Lists scene mentions start here placements node) {position : Nat}
    (unlisted : position ∉ node.listed) :
    Lists scene mentions start here (placements ++ [(index, position)]) node := by
  constructor
  case distinct => exact lists.distinct
  case valid =>
    intro place listed
    obtain ⟨other, among⟩ := lists.valid place listed
    exact ⟨other, List.mem_append_left _ among⟩
  case members =>
    intro other
    rw [← lists.members other]
    refine exists_congr fun place => and_congr_right fun listed => ?_
    rw [List.mem_append, List.mem_singleton, Prod.mk.injEq]
    refine or_iff_left ?_
    rintro ⟨-, rfl⟩
    exact unlisted listed
  case opened =>
    intro group member
    obtain ⟨late, listed, closed⟩ := lists.opened group member
    refine ⟨late, listed, fun entry placed same => ?_⟩
    rcases List.mem_append.mp placed with old | new
    · exact closed entry old same
    · obtain rfl := List.mem_singleton.mp new
      have unlisted : group.2 ∉ node.listed := same ▸ unlisted
      exact absurd listed unlisted

/-- A node may list a mesh that stands alone. -/
theorem list (lists : Lists scene mentions start here placements node) {position : Nat}
    (unlisted : position ∉ node.listed)
    (alone : ∀ other, (other, position) ∈ placements ↔ other = index)
    (present : index < scene.meshes.size) :
    Lists scene mentions start (here ++ [index]) placements
      { node with listed := node.listed ++ [position] } := by
  constructor
  case distinct =>
    refine List.nodup_append.mpr ⟨lists.distinct, List.nodup_singleton _, ?_⟩
    intro first listed second last same
    obtain rfl := List.mem_singleton.mp last
    exact unlisted (same ▸ listed)
  case valid =>
    intro place listed
    rcases List.mem_append.mp listed with old | new
    · exact lists.valid place old
    · obtain rfl := List.mem_singleton.mp new
      exact ⟨index, (alone index).mpr rfl⟩
  case members =>
    intro other
    simp only [List.mem_append, List.mem_singleton, or_and_right, exists_or, lists.members other,
      exists_eq_left, alone]
    refine or_congr_right (iff_self_and.mpr ?_)
    rintro rfl
    exact present
  case opened =>
    intro group member
    obtain ⟨late, listed, closed⟩ := lists.opened group member
    exact ⟨late, List.mem_append_left _ listed, closed⟩

/-- A node may start a group at a position that it lists. -/
theorem start_group (lists : Lists scene mentions start here placements node) {key : MergeKey}
    {position : Nat} (late : start ≤ position) (listed : position ∈ node.listed)
    (closed : ∀ entry ∈ placements, entry.2 = position →
      mentions entry.1 = 1 ∧ (scene.mesh entry.1).mergeKey = key) :
    Lists scene mentions start here placements
      { node with groups := node.groups ++ [(key, position)] } := by
  refine ⟨lists.distinct, lists.valid, lists.members, fun group member => ?_⟩
  rcases List.mem_append.mp member with old | new
  · exact lists.opened group old
  · obtain rfl := List.mem_singleton.mp new
    exact ⟨late, listed, closed⟩

end Lists

/-- A mesh that was placed before stands alone if it is mentioned more than once. -/
private theorem advances_of_placed (tracks : Tracks scene mentions done merge placements)
    (lists : Lists scene mentions start here placements node) (later : start ≤ merge.meshes.size)
    (again : index ∈ done → index < scene.meshes.size → mentions index ≠ 1) {position : Nat}
    (found : (index, position) ∈ placements) :
    Advances scene mentions start (done ++ [index]) (here ++ [index]) placements
      (merge, if node.listed.contains position then node
        else { node with listed := node.listed ++ [position] }) := by
  obtain ⟨old, present⟩ := (tracks.seen index).mp (List.mem_map_of_mem found)
  have alone (other : Nat) : (other, position) ∈ placements ↔ other = index := by
    refine ⟨fun among => ?_, fun same => same ▸ found⟩
    by_contra different
    exact again old present ((tracks.alike _ found _ among rfl).2 (Ne.symm different))
  refine ⟨⟨tracks.toGrouped, tracks.size, tracks.placed, fun other => ?_⟩, ?_, later⟩
  · rw [tracks.seen, List.mem_append, List.mem_singleton]
    constructor
    · exact fun ⟨placed, inside⟩ => ⟨.inl placed, inside⟩
    · rintro ⟨placed | rfl, inside⟩
      exacts [⟨placed, inside⟩, ⟨old, inside⟩]
  · split
    case isTrue listed =>
      have listed := List.contains_iff_mem.mp listed
      refine ⟨lists.distinct, lists.valid, fun other => ?_, lists.opened⟩
      rw [lists.members, List.mem_append, List.mem_singleton]
      constructor
      · exact fun ⟨placed, inside⟩ => ⟨.inl placed, inside⟩
      · rintro ⟨placed | rfl, inside⟩
        exacts [⟨placed, inside⟩, (lists.members _).mp ⟨position, listed, found⟩]
    case isFalse unlisted =>
      exact lists.list (fun listed => unlisted (List.contains_iff_mem.mpr listed)) alone present

private theorem tracks_snoc (tracks : Tracks scene mentions done merge placements)
    (present : index < scene.meshes.size) {meshes : Array (SourceMesh α)} {position : Nat}
    (grouped : Grouped scene mentions meshes (placements ++ [(index, position)])) :
    Tracks scene mentions (done ++ [index])
      { meshes, placed := merge.placed.setIfInBounds index (some position) }
      (placements ++ [(index, position)]) := by
  have fresh : index ∉ placements.map (·.1) := by
    have distinct := grouped.distinct
    rw [List.map_append] at distinct
    intro listed
    exact (List.nodup_append.mp distinct).2.2 index listed index (by simp) rfl
  refine ⟨grouped, ?_, fun other place => ?_, fun other => ?_⟩
  · rw [Array.size_setIfInBounds, tracks.size]
  · rw [Array.getElem?_setIfInBounds, List.mem_append, List.mem_singleton, Prod.mk.injEq]
    by_cases same : index = other
    · subst same
      have unplaced : (index, place) ∉ placements :=
        fun placed => fresh (List.mem_map_of_mem placed)
      simp [tracks.size, present, unplaced, eq_comm]
    · rw [if_neg same, tracks.placed]
      simp [Ne.symm same]
  · rw [List.map_append, List.mem_append, tracks.seen, List.mem_append]
    simp only [List.map_cons, List.map_nil, List.mem_singleton]
    constructor
    · rintro (⟨placed, inside⟩ | rfl)
      exacts [⟨.inl placed, inside⟩, ⟨.inr rfl, present⟩]
    · rintro ⟨placed | rfl, inside⟩
      exacts [.inl ⟨placed, inside⟩, .inr rfl]

/-- A mesh that only this node mentions joins a group of the node. -/
private theorem advances_of_join (tracks : Tracks scene mentions done merge placements)
    (lists : Lists scene mentions start here placements node) (later : start ≤ merge.meshes.size)
    (present : index < scene.meshes.size) (fresh : index ∉ placements.map (·.1))
    (single : mentions index = 1) {position : Nat}
    (member : ((scene.mesh index).mergeKey, position) ∈ node.groups) :
    Advances scene mentions start (done ++ [index]) (here ++ [index])
      (placements ++ [(index, position)])
      ({ meshes := merge.meshes.modify position (·.append (scene.mesh index))
         placed := merge.placed.setIfInBounds index (some position) }, node) := by
  obtain ⟨late, listed, closed⟩ := lists.opened _ member
  obtain ⟨first, found⟩ := lists.valid position listed
  have below := (tracks.inside _ found).2
  refine ⟨tracks_snoc tracks present (tracks.join present fresh below single closed), ?_, ?_⟩
  · constructor
    case distinct => exact lists.distinct
    case valid =>
      intro place listed
      obtain ⟨other, among⟩ := lists.valid place listed
      exact ⟨other, List.mem_append_left _ among⟩
    case members =>
      intro other
      simp only [List.mem_append, List.mem_singleton, Prod.mk.injEq, and_or_left, exists_or,
        lists.members other, or_and_right]
      constructor
      · rintro (placed | ⟨_, -, rfl, -⟩)
        exacts [.inl placed, .inr ⟨rfl, present⟩]
      · rintro (placed | ⟨rfl, -⟩)
        exacts [.inl placed, .inr ⟨position, listed, rfl, rfl⟩]
    case opened =>
      intro group among
      obtain ⟨late, listed, others⟩ := lists.opened group among
      refine ⟨late, listed, fun entry placed same => ?_⟩
      rcases List.mem_append.mp placed with old | new
      · exact others entry old same
      · -- The group has a member already, and that agrees with the new one.
        obtain rfl := List.mem_singleton.mp new
        obtain ⟨-, key⟩ := others _ found same
        exact ⟨single, (closed _ found rfl).2.symm.trans key⟩
  · rw [Array.size_modify]
    exact later

/-- Any other mesh makes a group of its own, which the node lists last and may start as a group. -/
private theorem advances_of_push (tracks : Tracks scene mentions done merge placements)
    (lists : Lists scene mentions start here placements node) (later : start ≤ merge.meshes.size)
    (present : index < scene.meshes.size) (fresh : index ∉ placements.map (·.1)) :
    Advances scene mentions start (done ++ [index]) (here ++ [index])
      (placements ++ [(index, merge.meshes.size)])
      ({ meshes := merge.meshes.push (scene.mesh index)
         placed := merge.placed.setIfInBounds index (some merge.meshes.size) },
        { groups :=
            if (mentions index == 1) = true then
              node.groups ++ [((scene.mesh index).mergeKey, merge.meshes.size)]
            else node.groups
          listed := node.listed ++ [merge.meshes.size] }) := by
  have below : ∀ entry ∈ placements, entry.2 ≠ merge.meshes.size :=
    fun entry member => Nat.ne_of_lt (tracks.inside entry member).2
  have unlisted : merge.meshes.size ∉ node.listed := by
    intro listed
    obtain ⟨other, among⟩ := lists.valid _ listed
    exact below _ among rfl
  have alone (other : Nat) :
      (other, merge.meshes.size) ∈ placements ++ [(index, merge.meshes.size)] ↔ other = index := by
    rw [List.mem_append, List.mem_singleton, Prod.mk.injEq, and_iff_left rfl]
    exact or_iff_right fun old => below _ old rfl
  have listing := (lists.extend unlisted).list unlisted alone present
  refine ⟨tracks_snoc tracks present (tracks.push present fresh), ?_, ?_⟩
  · split
    case isFalse => exact listing
    case isTrue single =>
      refine listing.start_group later (by simp) fun entry placed same => ?_
      obtain ⟨other, place⟩ := entry
      obtain rfl : place = merge.meshes.size := same
      obtain rfl := (alone other).mp placed
      exact ⟨by simpa using single, rfl⟩
  · rw [Array.size_push]
    exact Nat.le_succ_of_le later

/-- Placing one mesh. -/
theorem advances_place (tracks : Tracks scene mentions done merge placements)
    (lists : Lists scene mentions start here placements node) (later : start ≤ merge.meshes.size)
    (again : index ∈ done → index < scene.meshes.size → mentions index ≠ 1) :
    ∃ new, (∀ entry ∈ new, start ≤ entry.2) ∧
      Advances scene mentions start (done ++ [index]) (here ++ [index]) (placements ++ new)
        (merge.place scene mentions node index) := by
  rw [place]
  cases found : merge.placed[index]?.join with
  | some position =>
    refine ⟨[], by simp, ?_⟩
    rw [List.append_nil]
    exact advances_of_placed tracks lists later again ((tracks.placed index position).mp found)
  | none =>
    have fresh : index ∉ placements.map (·.1) := by
      rintro listed
      obtain ⟨⟨_, position⟩, among, rfl⟩ := List.mem_map.mp listed
      rw [(tracks.placed _ position).mpr among] at found
      cases found
    cases present : scene.meshes[index]? with
    | none =>
      have outside : ¬index < scene.meshes.size :=
        Nat.not_lt.mpr (Array.getElem?_eq_none_iff.mp present)
      have ignored (earlier : List Nat) (other : Nat) :
          other ∈ earlier ++ [index] ∧ other < scene.meshes.size ↔
            other ∈ earlier ∧ other < scene.meshes.size := by
        rw [List.mem_append, List.mem_singleton]
        constructor
        · rintro ⟨placed | rfl, inside⟩
          exacts [⟨placed, inside⟩, absurd inside outside]
        · exact fun ⟨placed, inside⟩ => ⟨.inl placed, inside⟩
      refine ⟨[], by simp, ?_⟩
      rw [List.append_nil]
      exact ⟨⟨tracks.toGrouped, tracks.size, tracks.placed, fun other => by
        rw [tracks.seen, ignored]⟩, ⟨lists.distinct, lists.valid, fun other => by
        rw [lists.members, ignored], lists.opened⟩, later⟩
    | some mesh =>
      have inside := (Array.getElem?_eq_some_iff.mp present).1
      obtain rfl := Scene.mesh_eq present
      dsimp only
      split
      case h_1 position joins =>
        obtain ⟨single, lookup⟩ := Option.ite_none_right_eq_some.mp joins
        have member : ((scene.mesh index).mergeKey, position) ∈ node.groups := by
          obtain ⟨before, after, split, -⟩ := List.lookup_eq_some_iff.mp lookup
          rw [split]
          exact List.mem_append_right _ List.mem_cons_self
        refine ⟨[(index, position)], by simpa using (lists.opened _ member).1, ?_⟩
        exact advances_of_join tracks lists later inside fresh (by simpa using single) member
      case h_2 => exact ⟨_, by simpa using later, advances_of_push tracks lists later inside fresh⟩

/-- Placing the meshes of a node, none of which is mentioned more often than it is counted. -/
theorem advances_foldl (todo : List Nat) (tracks : Tracks scene mentions done merge placements)
    (lists : Lists scene mentions start here placements node) (later : start ≤ merge.meshes.size)
    (counted : ∀ index < scene.meshes.size, (done ++ todo).count index ≤ mentions index) :
    ∃ new, (∀ entry ∈ new, start ≤ entry.2) ∧
      Advances scene mentions start (done ++ todo) (here ++ todo) (placements ++ new)
        (todo.foldl (fun state index => state.1.place scene mentions state.2 index)
          (merge, node)) := by
  induction todo generalizing done here merge placements node with
  | nil =>
    refine ⟨[], by simp, ?_⟩
    simp only [List.append_nil, List.foldl_nil]
    exact ⟨tracks, lists, later⟩
  | cons index todo ih =>
    have again : index ∈ done → index < scene.meshes.size → mentions index ≠ 1 := by
      intro placed inside once
      have count := counted index inside
      rw [List.count_append, List.count_cons_self] at count
      have before := List.count_pos_iff.mpr placed
      omega
    obtain ⟨first, early, advanced⟩ := advances_place tracks lists later again
    have rest : ∀ other < scene.meshes.size,
        (done ++ [index] ++ todo).count other ≤ mentions other := by
      simpa using counted
    obtain ⟨second, late, reached⟩ := ih advanced.tracks advanced.lists advanced.later rest
    refine ⟨first ++ second, List.forall_mem_append.mpr ⟨early, late⟩, ?_⟩
    rw [List.append_assoc, List.append_assoc, List.append_assoc] at reached
    exact reached

end Merge

/-! ## Merged scenes -/

/-- A node that lists the groups of the meshes that it mentioned. -/
structure Relisted (scene : Scene α) (placements : List (Nat × Nat)) (before after : SourceNode α) :
    Prop where
  same : after = { before with meshes := after.meshes }
  distinct : after.meshes.Nodup
  valid : ∀ position ∈ after.meshes, ∃ index, (index, position) ∈ placements
  members : ∀ index, (∃ position ∈ after.meshes, (index, position) ∈ placements) ↔
    index ∈ before.meshes ∧ index < scene.meshes.size

/-- Placements behind those of a node do not matter to it. -/
theorem Relisted.append {placements new : List (Nat × Nat)} {before after : SourceNode α}
    (relisted : Relisted scene placements before after)
    (apart : ∀ entry ∈ new, entry.2 ∉ after.meshes) :
    Relisted scene (placements ++ new) before after := by
  refine ⟨relisted.same, relisted.distinct, fun position listed => ?_, fun index => ?_⟩
  · obtain ⟨index, placed⟩ := relisted.valid position listed
    exact ⟨index, List.mem_append_left _ placed⟩
  · rw [← relisted.members index]
    constructor
    · rintro ⟨position, listed, placed⟩
      rcases List.mem_append.mp placed with old | late
      · exact ⟨position, listed, old⟩
      · exact absurd listed (apart _ late)
    · rintro ⟨position, listed, placed⟩
      exact ⟨position, listed, List.mem_append_left _ placed⟩

/-- A scene after merging: every mesh went into one of the groups that the new meshes were made of,
and the nodes list these groups. -/
structure Merged (scene after : Scene α) (mentions : Nat → Nat) (placements : List (Nat × Nat)) :
    Prop where
  grouped : Grouped scene mentions after.meshes placements
  complete : ∀ index < scene.meshes.size, index ∈ placements.map (·.1)
  nodes : List.Forall₂ (Relisted scene placements) scene.nodes.toList after.nodes.toList
  materials : after.materials = scene.materials
  clips : after.clips = scene.clips

namespace Merge

variable {mentions : Nat → Nat} {done : List Nat} {merge : Merge α}
  {placements : List (Nat × Nat)}

/-- The groups that nodes list stay as they are while later nodes are placed. -/
private theorem relisted_append {befores afters : List (SourceNode α)} {new : List (Nat × Nat)}
    (tracks : Tracks scene mentions done merge placements)
    (relisted : List.Forall₂ (Relisted scene placements) befores afters)
    (late : ∀ entry ∈ new, merge.meshes.size ≤ entry.2) :
    List.Forall₂ (Relisted scene (placements ++ new)) befores afters := by
  refine relisted.imp fun before after old => old.append fun entry member listed => ?_
  obtain ⟨index, placed⟩ := old.valid _ listed
  exact absurd (tracks.inside _ placed).2 (Nat.not_lt.mpr (late entry member))

/-- Place the meshes of a node and add the node with what it lists then. -/
def placeNode (scene : Scene α) (mentions : Nat → Nat) (state : Merge α × Array (SourceNode α))
    (node : SourceNode α) : Merge α × Array (SourceNode α) :=
  let placed := state.1.placeAll scene mentions node.meshes
  (placed.1, state.2.push { node with meshes := placed.2 })

/-- Placing the meshes of all nodes. -/
theorem tracks_foldl (todo : List (SourceNode α)) {befores : List (SourceNode α)}
    {afters : Array (SourceNode α)} (tracks : Tracks scene mentions done merge placements)
    (relisted : List.Forall₂ (Relisted scene placements) befores afters.toList)
    (counted : ∀ index < scene.meshes.size,
      (done ++ todo.flatMap (·.meshes)).count index ≤ mentions index) :
    ∃ new final made, todo.foldl (placeNode scene mentions) (merge, afters) = (final, made) ∧
      Tracks scene mentions (done ++ todo.flatMap (·.meshes)) final (placements ++ new) ∧
      List.Forall₂ (Relisted scene (placements ++ new)) (befores ++ todo) made.toList := by
  induction todo generalizing done merge placements befores afters with
  | nil => exact ⟨[], merge, afters, rfl, by simpa using tracks, by simpa using relisted⟩
  | cons node todo ih =>
    have blank : Lists scene mentions merge.meshes.size [] placements {} :=
      ⟨List.nodup_nil, by simp, by simp, by simp⟩
    have own : ∀ index < scene.meshes.size, (done ++ node.meshes).count index ≤ mentions index := by
      intro index inside
      have all := counted index inside
      simp only [List.flatMap_cons, List.count_append] at all ⊢
      omega
    obtain ⟨first, late, placed⟩ := advances_foldl node.meshes tracks blank le_rfl own
    have listed : Relisted scene (placements ++ first) node
        { node with meshes := (merge.placeAll scene mentions node.meshes).2 } :=
      ⟨rfl, placed.lists.distinct, placed.lists.valid, placed.lists.members⟩
    have next : List.Forall₂ (Relisted scene (placements ++ first)) (befores ++ [node])
        (afters.push { node with
          meshes := (merge.placeAll scene mentions node.meshes).2 }).toList := by
      rw [Array.toList_push]
      exact List.rel_append (relisted_append tracks relisted late) (.cons listed .nil)
    obtain ⟨second, final, made, success, tracked, others⟩ :=
      ih placed.tracks next (by simpa using counted)
    refine ⟨first ++ second, final, made, success, ?_, ?_⟩
    · simpa using tracked
    · simpa using others

end Merge

namespace Scene

/-- Every mention of a mesh is counted. -/
theorem mentions_eq {index : Nat} (inside : index < scene.meshes.size) :
    scene.mentions[index]?.getD 0 = (scene.nodes.toList.flatMap (·.meshes)).count index := by
  have folded (listed : List Nat) (counts : Array Nat) (inside : index < counts.size) :
      (listed.foldl (fun counts index => counts.modify index (· + 1)) counts)[index]?.getD 0 =
        counts[index]?.getD 0 + listed.count index := by
    induction listed generalizing counts with
    | nil => simp
    | cons other listed ih =>
      rw [List.foldl_cons, ih _ (by rwa [Array.size_modify]), Array.getElem?_modify,
        List.count_cons]
      by_cases same : other = index
      · simp [same, inside]
        omega
      · simp [same]
  rw [mentions, folded _ _ (by simpa using inside)]
  simp [inside]

/-- The nodes placed one after another. -/
def placeNodes (scene : Scene α) : Merge α × Array (SourceNode α) :=
  scene.nodes.toList.foldl (Merge.placeNode scene (scene.mentions[·]?.getD 0))
    ({ placed := Array.replicate scene.meshes.size none }, #[])

/-- Merging is placing the nodes, with the meshes left over behind the rest. -/
theorem mergeMeshes_eq (scene : Scene α) : scene.mergeMeshes =
    { scene with
      meshes := scene.placeNodes.1.meshes ++ (scene.meshes.toList.zipIdx.filterMap fun entry =>
        if (scene.placeNodes.1.placed[entry.2]?.join).isSome then none else some entry.1).toArray
      nodes := scene.placeNodes.2 } := by
  rw [mergeMeshes, ← Array.foldl_toList]
  rfl

/-- The meshes that were not placed, in order. -/
private theorem unplaced_eq (scene : Scene α) (placed : Nat → Bool) :
    (scene.meshes.toList.zipIdx.filterMap fun entry =>
      if placed entry.2 then none else some entry.1) =
      ((List.range scene.meshes.size).filter fun index => !placed index).map scene.mesh := by
  have numbered : scene.meshes.toList.zipIdx =
      (List.range scene.meshes.size).map fun index => (scene.mesh index, index) := by
    refine List.ext_getElem (by simp) fun position inside _ => ?_
    have present : position < scene.meshes.size := by simpa using inside
    simp [mesh, present]
  rw [numbered, List.filterMap_map]
  generalize List.range scene.meshes.size = indices
  induction indices with
  | nil => rfl
  | cons index indices ih =>
    rw [List.filterMap_cons, ih]
    cases gone : placed index <;> simp [gone]

/-- Merging the meshes of a scene puts those that nodes list where they were placed. -/
theorem exists_merged (scene : Scene α) : ∃ placements,
    Merged scene scene.mergeMeshes (scene.mentions[·]?.getD 0) placements ∧
      ∀ index position, scene.placeNodes.1.placed[index]?.join = some position →
        (index, position) ∈ placements := by
  have start : Merge.Tracks scene (scene.mentions[·]?.getD 0) []
      { placed := Array.replicate scene.meshes.size none } [] := by
    refine ⟨⟨?_, by simp, by simp, by simp⟩, by simp, fun index position => ?_, by simp⟩
    · intro position below
      exact absurd below (Nat.not_lt_zero _)
    · by_cases inside : index < scene.meshes.size <;> simp [inside]
  have nodeless : List.Forall₂ (Relisted scene []) [] (#[] : Array (SourceNode α)).toList := .nil
  obtain ⟨placements, merge, nodes, placed, tracks, relisted⟩ := Merge.tracks_foldl
    scene.nodes.toList start nodeless fun index inside => by simp [mentions_eq inside]
  have unplaced (index : Nat) : (!(merge.placed[index]?.join).isSome) = true ↔
      index ∉ placements.map (·.1) := by
    rw [Bool.not_eq_true', ← Bool.not_eq_true, Option.isSome_iff_exists]
    simp [tracks.placed]
  -- The meshes that no node mentions follow, each in a group of its own.
  let rest := (List.range scene.meshes.size).filter fun index => !(merge.placed[index]?.join).isSome
  have present : ∀ index ∈ rest, index < scene.meshes.size :=
    fun index member => List.mem_range.mp (List.mem_of_mem_filter member)
  have distinct : (placements.map (·.1) ++ rest).Nodup := by
    refine List.nodup_append.mpr ⟨tracks.distinct, List.nodup_range.filter _, ?_⟩
    rintro index listed other member rfl
    exact (unplaced index).mp (List.mem_filter.mp member).2 listed
  have result : scene.mergeMeshes =
      { scene with meshes := merge.meshes ++ (rest.map scene.mesh).toArray, nodes := nodes } := by
    rw [mergeMeshes_eq, placeNodes, placed, ← unplaced_eq]
  refine ⟨placements ++ rest.zipIdx merge.meshes.size, ?_, fun index position found => ?_⟩
  case refine_2 =>
    rw [placeNodes, placed] at found
    exact List.mem_append_left _ ((tracks.placed index position).mp found)
  rw [result]
  constructor
  case grouped => exact tracks.extend present distinct
  case complete =>
    intro index inside
    by_cases listed : index ∈ placements.map (·.1)
    · rw [List.map_append]
      exact List.mem_append_left _ listed
    · rw [List.map_append, List.zipIdx_map_fst]
      refine List.mem_append_right _ (List.mem_filter.mpr ⟨List.mem_range.mpr inside, ?_⟩)
      exact (unplaced index).mpr listed
  case nodes =>
    refine Merge.relisted_append tracks relisted fun entry member => ?_
    exact List.le_snd_of_mem_zipIdx member
  case materials => rfl
  case clips => rfl

theorem merged_mergeMeshes (scene : Scene α) : ∃ placements,
    Merged scene scene.mergeMeshes (scene.mentions[·]?.getD 0) placements := by
  obtain ⟨placements, merged, -⟩ := scene.exists_merged
  exact ⟨placements, merged⟩

end Scene

namespace Merged

variable {after : Scene α} {mentions : Nat → Nat} {placements : List (Nat × Nat)}

/-- No bone name comes or goes. -/
theorem mem_names (merged : Merged scene after mentions placements) (name : String) :
    (∃ mesh ∈ after.meshes, name ∈ mesh.bones.map (·.name)) ↔
      ∃ mesh ∈ scene.meshes, name ∈ mesh.bones.map (·.name) := by
  constructor
  · rintro ⟨mesh, member, named⟩
    obtain ⟨group, rfl, filled, agree, inside⟩ := merged.grouped.exists_group member
    obtain ⟨index, listed, named⟩ := (Scene.mem_names_joined filled agree name).mp named
    exact ⟨_, Scene.mesh_mem (inside index listed), named⟩
  · rintro ⟨mesh, member, named⟩
    obtain ⟨index, inside, rfl⟩ := Scene.exists_mesh_eq member
    obtain ⟨group, listed, agree, made⟩ :=
      merged.grouped.exists_of_placed (merged.complete index inside)
    exact ⟨_, made, (Scene.mem_names_joined (List.ne_nil_of_mem listed) agree name).mpr
      ⟨index, listed, named⟩⟩

/-- No face comes or goes. -/
theorem faced_iff (merged : Merged scene after mentions placements) :
    (∀ mesh ∈ after.meshes, mesh.Faced) ↔ ∀ mesh ∈ scene.meshes, mesh.Faced := by
  constructor
  · intro faced mesh member
    obtain ⟨index, inside, rfl⟩ := Scene.exists_mesh_eq member
    obtain ⟨group, listed, agree, made⟩ :=
      merged.grouped.exists_of_placed (merged.complete index inside)
    exact (Scene.faced_joined (List.ne_nil_of_mem listed) agree).mp (faced _ made) index listed
  · intro faced mesh member
    obtain ⟨group, rfl, filled, agree, inside⟩ := merged.grouped.exists_group member
    exact (Scene.faced_joined filled agree).mpr fun index listed =>
      faced _ (Scene.mesh_mem (inside index listed))

theorem buildable {settings : Settings} (merged : Merged scene after mentions placements)
    (holds : ∀ mesh ∈ scene.meshes, mesh.Buildable settings) :
    ∀ mesh ∈ after.meshes, mesh.Buildable settings := by
  intro mesh member
  obtain ⟨group, rfl, filled, agree, inside⟩ := merged.grouped.exists_group member
  have each (index : Nat) (listed : index ∈ group) := holds _ (Scene.mesh_mem (inside index listed))
  exact ⟨(Scene.faced_joined filled agree).mpr fun index listed => (each index listed).faced,
    Scene.cornered_joined filled agree fun index listed => (each index listed).cornered,
    fun enabled => Scene.weighted_joined filled agree fun index listed =>
      (each index listed).weighted enabled⟩

/-- There are no more groups than meshes. -/
theorem size_le (merged : Merged scene after mentions placements) :
    after.meshes.size ≤ scene.meshes.size := by
  have sources : (placements.map (·.1)).length ≤ scene.meshes.size := by
    rw [← List.length_range (n := scene.meshes.size)]
    refine (merged.grouped.distinct.subperm fun index member => ?_).length_le
    obtain ⟨entry, placed, rfl⟩ := List.mem_map.mp member
    exact List.mem_range.mpr (merged.grouped.inside entry placed).1
  have places : (List.range after.meshes.size).length ≤ (placements.map (·.2)).length := by
    refine (List.nodup_range.subperm fun position member => ?_).length_le
    obtain ⟨filled, -⟩ := merged.grouped.made position (List.mem_range.mp member)
    obtain ⟨index, placed⟩ := List.exists_mem_of_ne_nil _ filled
    exact List.mem_map_of_mem (mem_membersAt.mp placed)
  rw [List.length_map] at sources
  rw [List.length_range, List.length_map] at places
  exact places.trans sources

variable {before later : SourceNode α}

/-- The members of the groups that a node lists are the meshes that it mentioned. -/
theorem perm_members (merged : Merged scene after mentions placements)
    (relisted : Relisted scene placements before later) (once : before.meshes.Nodup)
    (present : ∀ index ∈ before.meshes, index < scene.meshes.size) :
    (later.meshes.flatMap (membersAt placements)).Perm before.meshes := by
  have distinct := merged.grouped.nodup_flatMap_membersAt relisted.distinct
  refine (List.perm_ext_iff_of_nodup distinct once).mpr fun index => ?_
  simp only [List.mem_flatMap, mem_membersAt, relisted.members]
  exact and_iff_left_of_imp (present index)

/-- Positions hold a node and the same node with its meshes merged. -/
theorem exists_relisted (merged : Merged scene after mentions placements) {position : Nat}
    (inside : position < scene.nodes.size) : ∃ first second, scene.nodes[position]? = some first ∧
      after.nodes[position]? = some second ∧ Relisted scene placements first second := by
  have length := merged.nodes.length_eq
  have present : position < scene.nodes.toList.length := by simpa using inside
  have relisted := List.Forall₂.get merged.nodes present (length ▸ present)
  refine ⟨_, _, ?_, ?_, relisted⟩
  · rw [← Array.getElem?_toList]
    exact List.getElem?_eq_getElem present
  · rw [← Array.getElem?_toList]
    exact List.getElem?_eq_getElem (length ▸ present)

end Merged

end SceneBaker.Scene
