import SceneBaker.Proofs.Scene.Merge

/-! # One group of each kind

A node merges what it can: those of its meshes that it alone mentions and that have one key go to
one position. The keys of its groups differ, and a mesh that could have joined a group did.
-/

set_option linter.dupNamespace false

namespace SceneBaker.Scene

open Number Mesh

variable {α : Type} {scene : Scene α}

namespace Merge

variable {mentions : Nat → Nat} {done here : List Nat} {merge : Merge α} {node : OfNode}
  {index : Nat}

/-- What placing a mesh does to the positions of meshes and to the groups of a node: nothing if it
was placed before or is not there, and else it goes to the group of its key or to a new one. -/
theorem place_cases (scene : Scene α) (mentions : Nat → Nat) (merge : Merge α) (node : OfNode)
    (index : Nat) : ∃ after next, merge.place scene mentions node index = (after, next) ∧
      (after.placed = merge.placed ∧ next.groups = node.groups ∧
        ((merge.placed[index]?.join).isSome ∨ scene.meshes.size ≤ index) ∨
      merge.placed[index]?.join = none ∧ index < scene.meshes.size ∧ ∃ position,
        after.placed = merge.placed.setIfInBounds index (some position) ∧
        (mentions index = 1 → ((scene.mesh index).mergeKey, position) ∈ next.groups) ∧
        (next.groups = node.groups ∨ (scene.mesh index).mergeKey ∉ node.groups.map (·.1) ∧
          next.groups = node.groups ++ [((scene.mesh index).mergeKey, position)])) := by
  rw [place]
  cases found : merge.placed[index]?.join with
  | some position =>
    refine ⟨_, _, rfl, .inl ⟨rfl, ?_, .inl rfl⟩⟩
    split <;> rfl
  | none =>
    cases present : scene.meshes[index]? with
    | none => exact ⟨_, _, rfl, .inl ⟨rfl, rfl, .inr (Array.getElem?_eq_none_iff.mp present)⟩⟩
    | some mesh =>
      have inside := (Array.getElem?_eq_some_iff.mp present).1
      obtain rfl := Scene.mesh_eq present
      dsimp only
      split
      case h_1 position joins =>
        obtain ⟨-, lookup⟩ := Option.ite_none_right_eq_some.mp joins
        obtain ⟨before, after, split, -⟩ := List.lookup_eq_some_iff.mp lookup
        refine ⟨_, _, rfl, .inr ⟨rfl, inside, position, rfl, fun _ => ?_, .inl rfl⟩⟩
        rw [split]
        exact List.mem_append_right _ List.mem_cons_self
      case h_2 alone =>
        refine ⟨_, _, rfl, .inr ⟨rfl, inside, merge.meshes.size, rfl, fun single => ?_, ?_⟩⟩
        · simp [single]
        · by_cases single : mentions index = 1
          · refine .inr ⟨?_, by simp [single]⟩
            rw [if_pos (by simpa using single), List.lookup_eq_none_iff] at alone
            intro listed
            obtain ⟨group, member, same⟩ := List.mem_map.mp listed
            simpa [same] using alone group member
          · exact .inl (by simp [single])

/-- The meshes of a merge that have a position are among those that were placed. -/
structure Seen (scene : Scene α) (done : List Nat) (merge : Merge α) : Prop where
  size : merge.placed.size = scene.meshes.size
  done : ∀ index, (merge.placed[index]?.join).isSome = true → index ∈ done

/-- The groups of a node have different keys, and each mesh that only the node mentions went to the
group of its key. -/
structure Sorts (scene : Scene α) (mentions : Nat → Nat) (here : List Nat) (merge : Merge α)
    (node : OfNode) : Prop where
  distinct : (node.groups.map (·.1)).Nodup
  covered : ∀ index ∈ here, index < scene.meshes.size → mentions index = 1 → ∃ position,
    merge.placed[index]?.join = some position ∧
      ((scene.mesh index).mergeKey, position) ∈ node.groups

/-- Positions that were found stay. -/
def Extends (merge after : Merge α) : Prop :=
  ∀ index position : Nat, merge.placed[index]?.join = some position →
    after.placed[index]?.join = some position

theorem Extends.trans {merge middle after : Merge α} (first : merge.Extends middle)
    (second : middle.Extends after) : merge.Extends after :=
  fun index position found => second index position (first index position found)

section

variable {after : Merge α} {next : OfNode} {position : Nat}

/-- A mesh that is not placed anew changes nothing. -/
private theorem Sorts.idle (sorts : Sorts scene mentions here merge node)
    (placed : after.placed = merge.placed) (groups : next.groups = node.groups)
    (ignored : index < scene.meshes.size → mentions index ≠ 1) :
    Sorts scene mentions (here ++ [index]) after next := by
  refine ⟨groups ▸ sorts.distinct, fun other member inside single => ?_⟩
  rw [placed, groups]
  rcases List.mem_append.mp member with before | last
  · exact sorts.covered other before inside single
  · obtain rfl := List.mem_singleton.mp last
    exact absurd single (ignored inside)

/-- A mesh that is placed anew goes to a group of its key. -/
private theorem Sorts.enter (sorts : Sorts scene mentions here merge node)
    (extended : merge.Extends after) (set : after.placed[index]?.join = some position)
    (joins : mentions index = 1 → ((scene.mesh index).mergeKey, position) ∈ next.groups)
    (groups : next.groups = node.groups ∨ (scene.mesh index).mergeKey ∉ node.groups.map (·.1) ∧
      next.groups = node.groups ++ [((scene.mesh index).mergeKey, position)]) :
    Sorts scene mentions (here ++ [index]) after next := by
  have more : ∀ group ∈ node.groups, group ∈ next.groups := by
    rcases groups with same | ⟨-, added⟩
    · exact fun group member => same ▸ member
    · exact fun group member => added ▸ List.mem_append_left _ member
  constructor
  case distinct =>
    rcases groups with same | ⟨new, added⟩
    · exact same ▸ sorts.distinct
    · rw [added, List.map_append]
      refine List.nodup_append.mpr ⟨sorts.distinct, List.nodup_singleton _, ?_⟩
      rintro key listed _ last rfl
      obtain rfl := List.mem_singleton.mp last
      exact new listed
  case covered =>
    intro other member inside single
    rcases List.mem_append.mp member with before | last
    · obtain ⟨place, found, group⟩ := sorts.covered other before inside single
      exact ⟨place, extended other place found, more _ group⟩
    · obtain rfl := List.mem_singleton.mp last
      exact ⟨position, set, joins single⟩

end

/-- Placing one mesh. -/
theorem sorts_place (seen : Seen scene done merge) (sorts : Sorts scene mentions here merge node)
    (again : index ∈ done → index < scene.meshes.size → mentions index ≠ 1) :
    ∃ after next, merge.place scene mentions node index = (after, next) ∧
      Seen scene (done ++ [index]) after ∧ Sorts scene mentions (here ++ [index]) after next ∧
      merge.Extends after := by
  obtain ⟨after, next, result, ⟨placed, groups, old⟩ | ⟨fresh, inside, position, placed, entered⟩⟩ :=
    place_cases scene mentions merge node index
  · have ignored (inside : index < scene.meshes.size) : mentions index ≠ 1 := by
      rcases old with found | outside
      · exact again (seen.done index found) inside
      · exact absurd inside (Nat.not_lt.mpr outside)
    refine ⟨after, next, result, ⟨placed ▸ seen.size, fun other found => ?_⟩,
      sorts.idle placed groups ignored, fun other place found => placed ▸ found⟩
    rw [placed] at found
    exact List.mem_append_left _ (seen.done other found)
  · have kept (other : Nat) (different : index ≠ other) :
        after.placed[other]? = merge.placed[other]? := by
      rw [placed, Array.getElem?_setIfInBounds_ne different]
    have set : after.placed[index]?.join = some position := by
      rw [placed, Array.getElem?_setIfInBounds_self_of_lt (by rwa [seen.size])]
      rfl
    have extended : merge.Extends after := by
      intro other place found
      have different : index ≠ other := by
        rintro rfl
        rw [fresh] at found
        cases found
      rwa [kept other different]
    refine ⟨after, next, result, ⟨?_, fun other found => ?_⟩,
      sorts.enter extended set entered.1 entered.2, extended⟩
    · rw [placed, Array.size_setIfInBounds, seen.size]
    · by_cases same : index = other
      · exact List.mem_append_right _ (List.mem_singleton.mpr same.symm)
      · rw [kept other same] at found
        exact List.mem_append_left _ (seen.done other found)

/-- Placing the meshes of a node, none of which is mentioned more often than it is counted. -/
theorem sorts_foldl (todo : List Nat) (seen : Seen scene done merge)
    (sorts : Sorts scene mentions here merge node)
    (counted : ∀ index < scene.meshes.size, (done ++ todo).count index ≤ mentions index) :
    ∃ after next, todo.foldl (fun state index => state.1.place scene mentions state.2 index)
        (merge, node) = (after, next) ∧
      Seen scene (done ++ todo) after ∧ Sorts scene mentions (here ++ todo) after next ∧
      merge.Extends after := by
  induction todo generalizing done here merge node with
  | nil =>
    refine ⟨merge, node, rfl, ?_, ?_, fun _ _ found => found⟩
    · rwa [List.append_nil]
    · rwa [List.append_nil]
  | cons index todo ih =>
    have again : index ∈ done → index < scene.meshes.size → mentions index ≠ 1 := by
      intro placed inside once
      have count := counted index inside
      rw [List.count_append, List.count_cons_self] at count
      have before := List.count_pos_iff.mpr placed
      omega
    obtain ⟨middle, between, result, one, own, first⟩ := sorts_place seen sorts again
    obtain ⟨after, next, results, all, sorted, second⟩ := ih one own (by simpa using counted)
    refine ⟨after, next, ?_, ?_, ?_, first.trans second⟩
    · rw [List.foldl_cons, result, results]
    · simpa using all
    · simpa using sorted

/-- Meshes of one key that only one node mentions go to one position. -/
def Together (scene : Scene α) (mentions : Nat → Nat) (merge : Merge α)
    (node : SourceNode α) : Prop :=
  ∀ first ∈ node.meshes, ∀ second ∈ node.meshes, first < scene.meshes.size →
    second < scene.meshes.size → mentions first = 1 → mentions second = 1 →
    (scene.mesh first).mergeKey = (scene.mesh second).mergeKey →
    ∃ position, merge.placed[first]?.join = some position ∧
      merge.placed[second]?.join = some position

theorem Sorts.together {node : SourceNode α} {after : Merge α} {next : OfNode}
    (sorts : Sorts scene mentions node.meshes after next) : Together scene mentions after node := by
  intro first one second other inside within single alone same
  obtain ⟨position, found, group⟩ := sorts.covered first one inside single
  obtain ⟨place, again, joined⟩ := sorts.covered second other within alone
  rw [← same] at joined
  have key := List.inj_on_of_nodup_map sorts.distinct group joined rfl
  obtain rfl := (Prod.mk.inj key).2
  exact ⟨position, found, again⟩

/-- Placing the meshes of all nodes. -/
theorem together_foldl (todo : List (SourceNode α)) (seen : Seen scene done merge)
    (afters : Array (SourceNode α)) (counted : ∀ index < scene.meshes.size,
      (done ++ todo.flatMap (·.meshes)).count index ≤ mentions index) :
    ∃ final made, todo.foldl (placeNode scene mentions) (merge, afters) = (final, made) ∧
      merge.Extends final ∧ ∀ node ∈ todo, Together scene mentions final node := by
  induction todo generalizing done merge afters with
  | nil => exact ⟨merge, afters, rfl, fun _ _ found => found, by simp⟩
  | cons node todo ih =>
    have blank : Sorts scene mentions [] merge {} := ⟨List.nodup_nil, by simp⟩
    have own : ∀ index < scene.meshes.size, (done ++ node.meshes).count index ≤ mentions index := by
      intro index inside
      have all := counted index inside
      simp only [List.flatMap_cons, List.count_append] at all ⊢
      omega
    obtain ⟨middle, next, result, one, sorts, first⟩ := sorts_foldl node.meshes seen blank own
    obtain ⟨final, made, results, second, others⟩ :=
      ih one (afters.push { node with meshes := next.listed }) (by simpa using counted)
    have step : placeNode scene mentions (merge, afters) node =
        (middle, afters.push { node with meshes := next.listed }) := by
      simp only [placeNode, placeAll, result]
    refine ⟨final, made, ?_, first.trans second, List.forall_mem_cons.mpr ⟨?_, others⟩⟩
    · rw [List.foldl_cons, step, results]
    · intro one listed other among inside within single alone same
      obtain ⟨position, found, again⟩ :=
        sorts.together one listed other among inside within single alone same
      exact ⟨position, second one position found, second other position again⟩

end Merge

/-- Merging puts meshes of one node and one key together if only the node mentions them. -/
theorem Scene.together_placeNodes (scene : Scene α) :
    ∀ node ∈ scene.nodes, Merge.Together scene (scene.mentions[·]?.getD 0) scene.placeNodes.1 node := by
  have seen : Merge.Seen scene [] { placed := Array.replicate scene.meshes.size none } := by
    refine ⟨Array.size_replicate .., fun index found => ?_⟩
    by_cases inside : index < scene.meshes.size <;> simp [inside] at found
  obtain ⟨final, made, result, -, together⟩ := Merge.together_foldl scene.nodes.toList seen #[]
    fun index inside => (mentions_eq inside).ge
  intro node member
  rw [placeNodes, result]
  exact together node (Array.mem_toList_iff.mpr member)

end SceneBaker.Scene
