import SceneBaker.Proofs.Scene.Prune
import SceneBaker.Proofs.Scene.World

/-! # Branches that stay

Pruning leaves the root and the branches that end in something useful: a node with a mesh, or one
that a bone or a channel names. The nodes that are left keep their order and what they hold, their
children follow them to their new positions, and so their world transforms stay. Pruning again
changes nothing.
-/

set_option linter.dupNamespace false

namespace SceneBaker

/-! ## Marked branches -/

namespace Forest.Marks

variable {α β : Type} {kept needed : α → Bool} {stays wanted : β → Bool} {move : α → β}
  {forest : Forest α}

/-- If what was needed still is, then all that stayed in a pruned forest stays when it is pruned
again. -/
theorem of_restrict (marks : forest.Marks kept needed)
    (again : ((forest.restrict kept).map move).Marks stays wanted)
    (still : ∀ entry, kept entry = true → needed entry = true → wanted (move entry) = true) :
    ∀ entry ∈ forest.preorder, kept entry = true → stays (move entry) = true := by
  induction forest with
  | nil => simp [preorder]
  | cons root below rest below_ih rest_ih =>
    obtain ⟨here, down, after⟩ := marks
    rw [restrict] at again
    simp only [preorder, List.mem_cons, List.mem_append]
    split at again
    case isTrue stayed =>
      obtain ⟨first, lower, later⟩ := again
      have under := below_ih down lower
      rintro entry (rfl | member | member) marked
      · rcases here.mp marked with wants | ⟨child, listed, staying⟩
        · exact first.mpr (.inl (still _ stayed wants))
        · refine first.mpr (.inr ⟨move child, ?_, ?_⟩)
          · rw [roots_map]
            exact List.mem_map_of_mem (mem_roots_restrict.mpr ⟨listed, staying⟩)
          · exact under child (mem_preorder_of_mem_roots listed) staying
      · exact under entry member marked
      · exact rest_ih after later entry member marked
    case isFalse gone =>
      rintro entry (rfl | member | member) marked
      · exact absurd marked gone
      · refine absurd marked (down.all_of_roots (fun child listed staying => ?_) entry member)
        exact gone (here.mpr (.inr ⟨child, listed, staying⟩))
      · exact rest_ih after again entry member marked

end Forest.Marks

namespace Links.Unfolds

variable {links : Links} {children : List Nat} {forest : Forest Nat} {kept needed : Nat → Bool}

/-- What is above something that stays, stays. -/
theorem kept_of_above (unfolds : links.Unfolds children forest)
    (marks : forest.Marks kept needed) {parent child : Nat} (member : parent ∈ forest.preorder)
    (above : links.Above parent child) (within : child < links.size) (stays : kept child = true) :
    kept parent = true := by
  induction unfolds with
  | nil => cases member
  | outside _ _ ih => exact ih marks member
  | inside present down _ down_ih after_ih =>
    obtain ⟨here, lower, later⟩ := marks
    simp only [Forest.preorder, List.mem_cons, List.mem_append] at member
    rcases member with rfl | member | member
    · have listed := above_iff.mp above
      rw [childrenAt_eq present] at listed
      exact here.mpr (.inr ⟨child, down.mem_roots_iff.mpr ⟨listed, within⟩, stays⟩)
    · exact down_ih lower member
    · exact after_ih later member

/-- From what stays, something needed is reached. -/
theorem exists_needed (unfolds : links.Unfolds children forest)
    (marks : forest.Marks kept needed) : ∀ position ∈ forest.preorder, kept position = true →
      ∃ below ∈ forest.preorder, Relation.ReflTransGen links.Above position below ∧
        needed below = true := by
  induction unfolds with
  | nil => simp [Forest.preorder]
  | outside _ _ ih => exact ih marks
  | @inside position children _ below rest present down _ down_ih after_ih =>
    obtain ⟨here, lower, later⟩ := marks
    simp only [Forest.preorder, List.mem_cons, List.mem_append]
    rintro entry (rfl | member | member) stays
    · rcases here.mp stays with wants | ⟨child, root, staying⟩
      · exact ⟨entry, .inl rfl, .refl, wants⟩
      · obtain ⟨target, found, reached, wants⟩ :=
          down_ih lower child (Forest.mem_preorder_of_mem_roots root) staying
        have listed := (down.mem_roots_iff.mp root).1
        exact ⟨target, .inr (.inl found), .head ⟨children, present, listed⟩ reached, wants⟩
    · obtain ⟨target, found, reached, wants⟩ := down_ih lower entry member stays
      exact ⟨target, .inr (.inl found), reached, wants⟩
    · obtain ⟨target, found, reached, wants⟩ := after_ih later entry member stays
      exact ⟨target, .inr (.inr found), reached, wants⟩

end Links.Unfolds

namespace Scene.Scene

open SceneBaker.Geometry

variable {α : Type} {scene : Scene α} {forest : Forest Nat}

/-! ## Useful nodes -/

/-- A node that lists a mesh, or that a bone or a channel names. -/
def Useful (scene : Scene α) (node : SourceNode α) : Prop :=
  node.meshes ≠ [] ∨ (∃ mesh ∈ scene.meshes, ∃ bone ∈ mesh.bones, bone.name = node.name) ∨
    ∃ clip ∈ scene.clips, ∃ channel ∈ clip.channels, channel.node = node.name

/-- The root, or a node that it reaches and from which something useful is reached. -/
def Wanted (scene : Scene α) (position : Nat) : Prop :=
  position = 0 ∨ Relation.ReflTransGen scene.links.Above 0 position ∧
    ∃ below node, Relation.ReflTransGen scene.links.Above position below ∧
      scene.nodes[below]? = some node ∧ scene.Useful node

theorem needs_iff {position : Nat} {node : SourceNode α}
    (found : scene.nodes[position]? = some node) :
    scene.needs position = true ↔ position = 0 ∨ scene.Useful node := by
  rw [needs, found]
  simp [Useful, protectedNames, or_assoc]

section

variable (unfolds : scene.links.Unfolds [0] forest) (distinct : forest.preorder.Nodup)

include unfolds distinct

/-- Only what is reached stays. -/
theorem mem_preorder_of_stays {position : Nat} (stays : scene.stays position = true) :
    position ∈ forest.preorder := by
  by_contra outside
  rw [← preorder_eq unfolds distinct] at outside
  rw [Scene.stays, keptNodes_eq, getElem?_foldr_settle outside] at stays
  by_cases within : position < scene.nodes.size <;> simp [within] at stays

theorem stays_of_reached {position below : Nat}
    (reached : Relation.ReflTransGen scene.links.Above 0 position)
    (path : Relation.ReflTransGen scene.links.Above position below)
    (stays : scene.stays below = true) : scene.stays position = true := by
  induction path using Relation.ReflTransGen.head_induction_on with
  | refl => exact stays
  | @head parent child above _ ih =>
    have staying := ih (reached.tail above)
    have upper := Links.lt_size_of_mem_childrenAt (Links.above_iff.mp above)
    have lower : child < scene.links.size := by
      rw [links, Array.size_map]
      exact lt_size_of_stays staying
    exact unfolds.kept_of_above (marks_stays unfolds distinct)
      (unfolds.mem_preorder_of_reached List.mem_cons_self reached upper) above lower staying

/-- The root stays, and what is on the way from it to something useful. -/
theorem stays_iff (filled : 0 < scene.nodes.size) {position : Nat} :
    scene.stays position = true ↔ scene.Wanted position := by
  have marks := marks_stays unfolds distinct
  constructor
  · intro stays
    have member := mem_preorder_of_stays unfolds distinct stays
    obtain ⟨root, listed, reached⟩ := unfolds.exists_reached position member
    obtain rfl := List.mem_singleton.mp listed
    obtain ⟨below, met, path, wants⟩ := unfolds.exists_needed marks position member stays
    have within := unfolds.lt_size below met
    rw [links, Array.size_map] at within
    have found := Array.getElem?_eq_getElem within
    rcases (needs_iff found).mp wants with rfl | useful
    · -- The root is below nothing but itself.
      rcases path.cases_head with same | ⟨child, above, back⟩
      · exact .inl same
      · have ends := unfolds.acc_of_mem (List.mem_singleton_self 0)
        exact absurd (Relation.TransGen.head'_iff.mpr ⟨child, above, back⟩ |>.trans_right reached)
          (Links.not_transGen_of_acc ends)
    · exact .inr ⟨reached, below, _, path, found, useful⟩
  · rintro (rfl | ⟨reached, below, node, path, found, useful⟩)
    · exact stays_root unfolds distinct filled
    · have member := unfolds.mem_preorder_of_reached List.mem_cons_self (reached.trans path)
        (lt_size_links found)
      exact stays_of_reached unfolds distinct reached path
        (marks.of_needed member ((needs_iff found).mpr (.inr useful)))

end

/-! ## What is left -/

/-- Positions of the nodes that stay, in order. -/
def staying (scene : Scene α) : List Nat := (List.range scene.nodes.size).filter scene.stays

theorem rank_zero (scene : Scene α) : scene.rank 0 = 0 := Nat.count_zero _

theorem mem_staying {position : Nat} :
    position ∈ scene.staying ↔ scene.stays position = true := by
  rw [staying, List.mem_filter, List.mem_range]
  exact and_iff_right_of_imp lt_size_of_stays

theorem map_rank_staying (scene : Scene α) :
    scene.staying.map scene.rank = List.range scene.pruneNodes.nodes.size := by
  rw [staying, map_rank_range, size_pruneNodes]

/-- A node that stays is found at its rank. -/
theorem getElem?_staying {place position : Nat} :
    scene.staying[place]? = some position ↔
      scene.stays position = true ∧ scene.rank position = place := by
  have ranked {place position : Nat} (found : scene.staying[place]? = some position) :
      scene.rank position = place := by
    have same := congrArg (·[place]?) scene.map_rank_staying
    simp only [List.getElem?_map, found, Option.map_some] at same
    obtain ⟨_, again⟩ := List.getElem?_eq_some_iff.mp same.symm
    simpa using again.symm
  constructor
  · intro found
    exact ⟨mem_staying.mp (List.mem_of_getElem? found), ranked found⟩
  · rintro ⟨stays, rfl⟩
    obtain ⟨place, found⟩ := List.getElem?_of_mem (mem_staying.mpr stays)
    rwa [ranked found]

theorem idxOf?_staying (position : Nat) : scene.staying.idxOf? position =
    if scene.stays position then some (scene.rank position) else none := by
  split
  case isTrue stays =>
    obtain ⟨inside, same⟩ := List.getElem?_eq_some_iff.mp (getElem?_staying.mpr ⟨stays, rfl⟩)
    refine List.idxOf?_eq_some_iff.mpr ⟨inside, same, fun earlier before again => ?_⟩
    have found := List.getElem?_eq_some_iff.mpr ⟨before.trans inside, again⟩
    exact before.ne (getElem?_staying.mp found).2.symm
  case isFalse gone => exact List.idxOf?_eq_none_iff.mpr (mt mem_staying.mp gone)

theorem exists_rank_eq {place : Nat} (within : place < scene.pruneNodes.nodes.size) :
    ∃ position, scene.stays position = true ∧ scene.rank position = place := by
  have member := List.mem_range.mpr within
  rw [← map_rank_staying] at member
  obtain ⟨position, stays, ranked⟩ := List.mem_map.mp member
  exact ⟨position, mem_staying.mp stays, ranked⟩

theorem above_pruneNodes {parent child : Nat} (above : scene.links.Above parent child)
    (upper : scene.stays parent = true) (lower : scene.stays child = true) :
    scene.pruneNodes.links.Above (scene.rank parent) (scene.rank child) := by
  obtain ⟨children, present, listed⟩ := above
  rw [links_getElem?, Option.map_eq_some_iff] at present
  obtain ⟨node, found, rfl⟩ := present
  refine ⟨(scene.relink node).children, ?_, ?_⟩
  · rw [links_getElem?, pruneNodes_getElem? found upper]
    rfl
  · exact List.mem_filterMap.mpr ⟨child, listed, by rw [if_pos lower]⟩

/-! ## Pruning again -/

section

variable (unfolds : scene.links.Unfolds [0] forest) (distinct : forest.preorder.Nodup)

include unfolds distinct

/-- Every position of the pruned scene is reached. -/
theorem mem_prunedForest {place : Nat} (within : place < scene.pruneNodes.nodes.size) :
    place ∈ (scene.prunedForest forest).preorder := by
  obtain ⟨position, stays, rfl⟩ := exists_rank_eq within
  rw [preorder_prunedForest unfolds distinct]
  exact List.mem_map_of_mem
    (List.mem_filter.mpr ⟨mem_preorder_of_stays unfolds distinct stays, stays⟩)

/-- All that is left stays when it is pruned again. -/
theorem stays_pruneNodes {place : Nat} (within : place < scene.pruneNodes.nodes.size) :
    scene.pruneNodes.stays place = true := by
  have again := marks_stays (unfolds_pruneNodes unfolds distinct) (nodup_prunedForest unfolds distinct)
  obtain ⟨position, stays, rfl⟩ := exists_rank_eq within
  have marks := marks_stays unfolds distinct
  refine marks.of_restrict again (fun entry here wants => ?_) position
    (mem_preorder_of_stays unfolds distinct stays) stays
  have found := Array.getElem?_eq_getElem (lt_size_of_stays here)
  refine (needs_iff (pruneNodes_getElem? found here)).mpr ?_
  rcases (needs_iff found).mp wants with rfl | useful
  · exact .inl scene.rank_zero
  · exact .inr useful

end

/-- Pruning leaves a scene alone of which everything stays and whose children are all there. -/
theorem pruneNodes_eq_self (closed : scene.links.Closed)
    (stays : ∀ position < scene.nodes.size, scene.stays position = true) :
    scene.pruneNodes = scene := by
  have ranked (position : Nat) (within : position < scene.nodes.size) :
      scene.rank position = position :=
    Nat.count_of_forall fun earlier before => stays earlier (before.trans within)
  have relinked (node : SourceNode α) (member : node ∈ scene.nodes) : scene.relink node = node := by
    have children : Links.renumber scene.stays scene.rank node.children = node.children := by
      calc Links.renumber scene.stays scene.rank node.children
          = node.children.filterMap some := by
            refine List.filterMap_congr fun child listed => ?_
            have within := closed node.children (Array.mem_map_of_mem member) child listed
            rw [links, Array.size_map] at within
            rw [if_pos (stays child within), ranked child within]
        _ = node.children := List.filterMap_some
    rw [relink, children]
  have size : scene.pruneNodes.nodes.size = scene.nodes.size := by
    rw [size_pruneNodes]
    exact Nat.count_of_forall stays
  have nodes : scene.pruneNodes.nodes = scene.nodes := by
    refine Array.ext size fun position first second => ?_
    have found := pruneNodes_getElem? (Array.getElem?_eq_getElem second) (stays position second)
    rw [ranked position second, relinked _ (Array.getElem_mem second)] at found
    exact Option.some.inj ((Array.getElem?_eq_getElem first).symm.trans found)
  calc scene.pruneNodes = { scene with nodes := scene.pruneNodes.nodes } := rfl
    _ = scene := by rw [nodes]

/-! ## World transforms -/

section

variable [Add α] [Mul α]

/-- What stays keeps its world transform. -/
theorem World.pruneNodes (unfolds : scene.links.Unfolds [0] forest)
    (distinct : forest.preorder.Nodup) {position : Nat} {world : Mat4 α}
    (derived : scene.World position world) (stays : scene.stays position = true) :
    scene.pruneNodes.World (scene.rank position) world := by
  induction derived with
  | root found =>
    have again := pruneNodes_getElem? found stays
    rw [rank_zero] at again ⊢
    have derived := World.root again
    exact derived
  | child upper above found ih =>
    have staying := stays_of_reached unfolds distinct upper.reached (.single above) stays
    have lower := above_pruneNodes above staying stays
    have derived := (ih staying).child lower (pruneNodes_getElem? found stays)
    exact derived

variable [Zero α] [One α]

theorem worldTransforms_pruneNodes (forms : scene.links.Forms forest) {position : Nat}
    (stays : scene.stays position = true) :
    scene.pruneNodes.worldTransforms[scene.rank position]? = scene.worldTransforms[position]? := by
  have unfolds := forms.unfolds
  have distinct := forms.distinct
  have again : scene.pruneNodes.links.Forms (scene.prunedForest forest) := by
    refine ⟨unfolds_pruneNodes unfolds distinct, nodup_prunedForest unfolds distinct,
      fun parent child above _ => mem_prunedForest unfolds distinct ?_⟩
    have within := Links.lt_size_of_mem_childrenAt (Links.above_iff.mp above)
    rwa [links, Array.size_map] at within
  obtain ⟨root, listed, reached⟩ :=
    unfolds.exists_reached position (mem_preorder_of_stays unfolds distinct stays)
  obtain rfl := List.mem_singleton.mp listed
  obtain ⟨world, derived⟩ := exists_world reached (lt_size_of_stays stays)
  rw [derived.getElem?_eq forms, (derived.pruneNodes unfolds distinct stays).getElem?_eq again]

end

/-! ## Pruned scenes -/

/-- A scene after pruning: the nodes that are wanted are left, in their order and as they were, with
those of their children that are left, at the new positions. -/
structure Pruned (scene after : Scene α) (left : List Nat) : Prop where
  ordered : left.Pairwise (· < ·)
  wanted : ∀ position, position ∈ left ↔ scene.Wanted position
  size : after.nodes.size = left.length
  nodes : ∀ (place position : Nat) (node : SourceNode α), left[place]? = some position →
    scene.nodes[position]? = some node → after.nodes[place]? =
      some { node with children := node.children.filterMap (left.idxOf? ·) }
  meshes : after.meshes = scene.meshes
  materials : after.materials = scene.materials
  clips : after.clips = scene.clips

/-- Let the child lists of a scene form a tree. Pruning leaves what is wanted, with the same world
transforms, and pruning again changes nothing. -/
theorem exists_pruned_pruneNodes [Add α] [Mul α] [Zero α] [One α]
    (forms : scene.links.Forms forest) (filled : 0 < scene.nodes.size) :
    ∃ left, Pruned scene scene.pruneNodes left ∧
      (∀ place position : Nat, left[place]? = some position →
        scene.pruneNodes.worldTransforms[place]? = scene.worldTransforms[position]?) ∧
      scene.pruneNodes.pruneNodes = scene.pruneNodes := by
  have unfolds := forms.unfolds
  have distinct := forms.distinct
  refine ⟨scene.staying, ?_, fun place position found => ?_, ?_⟩
  · constructor
    case ordered => exact List.pairwise_lt_range.filter _
    case wanted => exact fun position => mem_staying.trans (stays_iff unfolds distinct filled)
    case size => rw [← List.length_map scene.rank, map_rank_staying, List.length_range]
    case nodes =>
      intro place position node found present
      obtain ⟨stays, rfl⟩ := getElem?_staying.mp found
      simp only [idxOf?_staying]
      exact pruneNodes_getElem? present stays
    case meshes => rfl
    case materials => rfl
    case clips => rfl
  · obtain ⟨stays, rfl⟩ := getElem?_staying.mp found
    exact worldTransforms_pruneNodes forms stays
  · exact pruneNodes_eq_self scene.closed_pruneNodes
      fun place within => stays_pruneNodes unfolds distinct within

/-- An apple tree: a limb whose twig moves, a bare limb and a sucker that a bone names. A fallen limb
and its fruit are not reached. -/
def orchard : Scene Number.Single where
  meshes := #[{ name := "apple", bones := [⟨"sucker", 1, []⟩] }]
  nodes := #[{ name := "trunk", transform := 1, children := [7, 4, 1] },
    { name := "limb", transform := 1, children := [3] },
    { name := "fallen", transform := 1, children := [5] },
    { name := "twig", transform := 1 },
    { name := "sucker", transform := 1 },
    { name := "fruit", transform := 1, meshes := [0] },
    { name := "spur", transform := 1 },
    { name := "bare", transform := 1, children := [6] }]
  clips := [⟨"sway", 1, 1, [{ node := "twig" }]⟩]

/-- What the trunk of the apple tree carries. -/
def orchardTree : Forest Nat :=
  .cons 0 (.cons 7 (.cons 6 .nil .nil) (.cons 4 .nil (.cons 1 (.cons 3 .nil .nil) .nil))) .nil

theorem exists_pruned_orchard : orchard.links.Forms orchardTree ∧ 0 < orchard.nodes.size ∧
    orchard.pruneNodes.nodes.toList.map (fun node => (node.name, node.children)) =
      [("trunk", [3, 1]), ("limb", [2]), ("twig", []), ("sucker", [])] ∧
    ∃ left, Pruned orchard orchard.pruneNodes left ∧
      (∀ place position : Nat, left[place]? = some position →
        orchard.pruneNodes.worldTransforms[place]? = orchard.worldTransforms[position]?) ∧
      orchard.pruneNodes.pruneNodes = orchard.pruneNodes := by
  have links : orchard.links = #[[7, 4, 1], [3], [5], [], [], [], [], [6]] := by decide +kernel
  have enclosed : ∀ parent < orchard.links.size, ∀ child ∈ orchard.links.childrenAt parent,
      child ∈ orchardTree.preorder → parent ∈ orchardTree.preorder := by
    rw [links]
    decide
  have forms : orchard.links.Forms orchardTree := by
    constructor
    case unfolds =>
      rw [links]
      exact .inside rfl (.inside rfl (.inside rfl .nil .nil)
        (.inside rfl .nil (.inside rfl (.inside rfl .nil .nil) .nil))) .nil
    case distinct => decide
    case enclosed =>
      intro parent child above
      have listed := Links.above_iff.mp above
      exact enclosed parent (Links.lt_size_of_mem_childrenAt listed) child listed
  have filled : 0 < orchard.nodes.size := by decide
  exact ⟨forms, filled, by decide +kernel, exists_pruned_pruneNodes forms filled⟩

end Scene.Scene

end SceneBaker
