import SceneBaker.Proofs.Build.NodeTree
import SceneBaker.Proofs.Hierarchy.Rooted
import SceneBaker.Proofs.Scene.World
import SceneBaker.Scene.Reduce
import Mathlib.Data.Nat.Count

/-! # Pruned scenes

Pruning decides children before their parents, so that in the end a node stays exactly when
something needs it or one of its children stays. The nodes that stay move together, and the scene
unfolds to the pruned forest with their new positions.
-/

set_option linter.dupNamespace false

namespace SceneBaker.Scene

open Number Build

variable {α : Type}

namespace Scene

/-! ## The nodes that stay -/

/-- The root, nodes with meshes and nodes with protected names are needed for their own sake. -/
def needs (scene : Scene α) (position : Nat) : Bool :=
  match scene.nodes[position]? with
  | none => false
  | some node =>
    position == 0 || !node.meshes.isEmpty || scene.protectedNames.contains node.name

/-- Decide one node after its children. -/
def settle (scene : Scene α) (position : Nat) (kept : Array Bool) : Array Bool :=
  match scene.nodes[position]? with
  | none => kept
  | some node =>
    kept.setIfInBounds position
      (position == 0 || node.children.any (kept[·]?.getD false) || !node.meshes.isEmpty
        || scene.protectedNames.contains node.name)

/-- Whether a node is left after pruning. -/
def stays (scene : Scene α) (position : Nat) : Bool := scene.keptNodes[position]?.getD false

variable {scene : Scene α} {children : List Nat} {forest : Forest Nat}

theorem keptNodes_eq (scene : Scene α) : scene.keptNodes =
    scene.preorder.foldr scene.settle (Array.replicate scene.nodes.size false) := by
  rw [keptNodes, List.foldl_reverse]
  rfl

@[simp] theorem size_settle (position : Nat) (kept : Array Bool) :
    (scene.settle position kept).size = kept.size := by
  rw [settle]
  split
  · rfl
  · exact Array.size_setIfInBounds ..

@[simp] theorem size_foldr_settle (positions : List Nat) (kept : Array Bool) :
    (positions.foldr scene.settle kept).size = kept.size := by
  induction positions with
  | nil => rfl
  | cons position positions ih => rw [List.foldr_cons, size_settle, ih]

theorem getElem?_settle {position other : Nat} (different : other ≠ position) (kept : Array Bool) :
    (scene.settle position kept)[other]? = kept[other]? := by
  rw [settle]
  split
  · rfl
  · exact Array.getElem?_setIfInBounds_ne different.symm

theorem getElem?_foldr_settle {positions : List Nat} {other : Nat} (outside : other ∉ positions)
    (kept : Array Bool) : (positions.foldr scene.settle kept)[other]? = kept[other]? := by
  induction positions with
  | nil => rfl
  | cons position positions ih =>
    obtain ⟨different, later⟩ := List.ne_and_not_mem_of_not_mem_cons outside
    rw [List.foldr_cons, getElem?_settle different, ih later]

theorem links_getElem? (scene : Scene α) (position : Nat) :
    scene.links[position]? = scene.nodes[position]?.map (·.children) := Array.getElem?_map ..

/-- Once its children are decided, a node is too. -/
private theorem settle_self {position : Nat} {below : Forest Nat}
    (present : scene.links[position]? = some children) (down : scene.links.Unfolds children below)
    {kept : Array Bool} (size : kept.size = scene.nodes.size) :
    (scene.settle position kept)[position]?.getD false = true ↔
      scene.needs position = true ∨ ∃ child ∈ below.roots, kept[child]?.getD false = true := by
  rw [links_getElem?, Option.map_eq_some_iff] at present
  obtain ⟨node, found, rfl⟩ := present
  have within : position < kept.size := by
    rw [size]
    exact (Array.getElem?_eq_some_iff.mp found).1
  have listed : node.children.any (kept[·]?.getD false) = true ↔
      ∃ child ∈ below.roots, kept[child]?.getD false = true := by
    rw [List.any_eq_true]
    refine exists_congr fun child => ?_
    rw [down.mem_roots_iff, and_assoc]
    refine and_congr_right fun _ => (and_iff_right_of_imp fun decided => ?_).symm
    rw [links, Array.size_map, ← size]
    by_contra outside
    rw [Array.getElem?_eq_none (Nat.not_lt.mp outside)] at decided
    cases decided
  rw [← listed, settle, found, needs, found]
  simp only [Array.getElem?_setIfInBounds_self_of_lt within, Option.getD_some, Bool.or_eq_true]
  tauto

/-- Deciding the nodes of a forest from its end leaves every one of them decided. -/
theorem marks_foldr_settle (unfolds : scene.links.Unfolds children forest)
    (distinct : forest.preorder.Nodup) {kept : Array Bool} (size : kept.size = scene.nodes.size) :
    forest.Marks ((forest.preorder.foldr scene.settle kept)[·]?.getD false) scene.needs := by
  induction unfolds generalizing kept with
  | nil => trivial
  | outside _ _ ih => exact ih distinct size
  | @inside position children siblings below rest present down _ down_ih after_ih =>
    obtain ⟨fresh, others⟩ := List.nodup_cons.mp distinct
    obtain ⟨first, second, apart⟩ := List.nodup_append.mp others
    have unvisited {entry : Nat} (member : entry ∈ below.preorder ++ rest.preorder) :
        entry ≠ position := by
      rintro rfl
      exact fresh member
    rw [Forest.preorder, List.foldr_cons, List.foldr_append]
    refine ⟨?_, ?_, ?_⟩
    · rw [settle_self present down (by simpa using size)]
      refine or_congr Iff.rfl (exists_congr fun child => and_congr_right fun member => ?_)
      have among := List.mem_append_left rest.preorder (Forest.mem_preorder_of_mem_roots member)
      simp only [getElem?_settle (unvisited among)]
    · have size : (rest.preorder.foldr scene.settle kept).size = scene.nodes.size := by
        rw [size_foldr_settle, size]
      refine (down_ih first size).congr fun entry member => ?_
      rw [getElem?_settle (unvisited (List.mem_append_left _ member))]
    · refine (after_ih second size).congr fun entry member => ?_
      rw [getElem?_settle (unvisited (List.mem_append_right _ member)), getElem?_foldr_settle]
      exact fun among => apart entry among entry member rfl

section

variable (unfolds : scene.links.Unfolds [0] forest) (distinct : forest.preorder.Nodup)

include unfolds distinct

/-- A node stays if something needs it or one of its children stays. -/
theorem marks_stays : forest.Marks scene.stays scene.needs := by
  have start : (Array.replicate scene.nodes.size false).size = scene.nodes.size :=
    Array.size_replicate
  have marks := marks_foldr_settle unfolds distinct start
  rwa [← preorder_eq unfolds distinct, ← keptNodes_eq] at marks

end

theorem lt_size_of_stays {position : Nat} (stays : scene.stays position = true) :
    position < scene.nodes.size := by
  by_contra outside
  have absent : scene.keptNodes[position]? = none := by
    rw [Array.getElem?_eq_none_iff, keptNodes_eq, size_foldr_settle, Array.size_replicate]
    exact Nat.not_lt.mp outside
  rw [Scene.stays, absent] at stays
  cases stays

/-! ## New positions -/

/-- Entries that stay, in order. -/
private theorem filterMap_zipIdx {β γ : Type} (stays : Nat → Bool) (f : β → γ) (entries : List β) :
    (entries.zipIdx.filterMap fun entry =>
        if stays entry.2 then some (f entry.1) else none).length =
        Nat.count (stays · = true) entries.length ∧
      ∀ position entry, entries[position]? = some entry → stays position = true →
        (entries.zipIdx.filterMap fun entry =>
          if stays entry.2 then some (f entry.1) else none)[Nat.count (stays · = true) position]? =
            some (f entry) := by
  induction entries using List.reverseRecOn with
  | nil => simp
  | append_singleton entries last ih =>
    obtain ⟨length, found⟩ := ih
    rw [List.zipIdx_append, List.filterMap_append]
    refine ⟨?_, fun position entry present here => ?_⟩
    · rw [List.length_append, length, List.length_append, List.length_singleton, Nat.count_succ]
      by_cases here : stays entries.length = true <;> simp [here]
    · rcases Nat.lt_or_ge position entries.length with early | late
      · rw [List.getElem?_append_left early] at present
        have before := found position entry present here
        rwa [List.getElem?_append_left (List.getElem?_eq_some_iff.mp before).1]
      · obtain rfl : position = entries.length := by
          have within := (List.getElem?_eq_some_iff.mp present).1
          rw [List.length_append, List.length_singleton] at within
          omega
        rw [List.getElem?_append_right length.le, length, Nat.sub_self]
        simp_all

/-- Number one more position. -/
def advance (state : Array (Option Nat) × Nat) (stays : Bool) : Array (Option Nat) × Nat :=
  if stays then (state.1.push (some state.2), state.2 + 1) else (state.1.push none, state.2)

theorem keptPositions_eq (kept : List Bool) : keptPositions kept = (kept.foldl advance (#[], 0)).1 :=
  rfl

private theorem foldl_advance (stays : Nat → Bool) (count : Nat) :
    (((List.range count).map stays).foldl advance (#[], 0)).1.size = count ∧
      (((List.range count).map stays).foldl advance (#[], 0)).2 = Nat.count (stays · = true) count ∧
      ∀ position < count, (((List.range count).map stays).foldl advance (#[], 0)).1[position]?.join =
        if stays position then some (Nat.count (stays · = true) position) else none := by
  induction count with
  | zero => simp
  | succ count ih =>
    obtain ⟨size, next, found⟩ := ih
    rw [List.range_succ, List.map_append, List.foldl_append, List.map_singleton, List.foldl_cons,
      List.foldl_nil, Nat.count_succ]
    generalize ((List.range count).map stays).foldl advance (#[], 0) = state at size next found ⊢
    subst size
    have pushed (entry : Option Nat) (last : entry =
        if stays state.1.size then some (Nat.count (stays · = true) state.1.size) else none) :
        ∀ position < state.1.size + 1, (state.1.push entry)[position]?.join =
          if stays position then some (Nat.count (stays · = true) position) else none := by
      intro position within
      rw [Array.getElem?_push]
      split
      case isTrue here =>
        rw [here, ← last]
        rfl
      case isFalse before => exact found position (by omega)
    rw [advance]
    split
    case isTrue here => exact ⟨Array.size_push _, by simp [next], pushed _ (by simp [here, next])⟩
    case isFalse gone => exact ⟨Array.size_push _, by simp [next], pushed _ (by simp [gone])⟩

/-- The number of nodes before a position that stay. -/
def rank (scene : Scene α) (position : Nat) : Nat := Nat.count (scene.stays · = true) position

/-- The ranks of the nodes that stay are the first numbers. -/
theorem map_rank_range (scene : Scene α) (count : Nat) :
    ((List.range count).filter scene.stays).map scene.rank =
      List.range (Nat.count (scene.stays · = true) count) := by
  induction count with
  | zero => rfl
  | succ count ih =>
    rw [List.range_succ, List.filter_append, List.map_append, ih, Nat.count_succ]
    by_cases here : scene.stays count = true
    · rw [if_pos here, List.range_succ, List.filter_cons_of_pos here]
      rfl
    · rw [if_neg here, List.filter_cons_of_neg here]
      exact List.append_nil _

/-- A node that stays goes to its rank. -/
theorem keptPositions_getElem? (scene : Scene α) (position : Nat) :
    (keptPositions scene.keptNodes.toList)[position]?.join =
      if scene.stays position then some (scene.rank position) else none := by
  have size : scene.keptNodes.size = scene.nodes.size := by
    rw [keptNodes_eq, size_foldr_settle, Array.size_replicate]
  have listed : scene.keptNodes.toList = (List.range scene.nodes.size).map scene.stays := by
    refine List.ext_getElem (by simpa using size) fun position first _ => ?_
    have within : position < scene.keptNodes.size := by simpa using first
    simp [stays, within]
  rw [keptPositions_eq, listed]
  obtain ⟨numbered, -, found⟩ := foldl_advance scene.stays scene.nodes.size
  rcases Nat.lt_or_ge position scene.nodes.size with within | outside
  · exact found position within
  · rw [Array.getElem?_eq_none (numbered.le.trans outside), if_neg]
    · rfl
    · exact fun here => Nat.not_lt.mpr outside (lt_size_of_stays here)

/-- A node with its children at their new positions. -/
def relink (scene : Scene α) (node : SourceNode α) : SourceNode α :=
  { node with children := Links.renumber scene.stays scene.rank node.children }

theorem nodes_pruneNodes (scene : Scene α) : scene.pruneNodes.nodes =
    (scene.nodes.toList.zipIdx.filterMap fun entry =>
      if scene.stays entry.2 then some (scene.relink entry.1) else none).toArray := by
  rw [pruneNodes, retain]
  simp only [keptPositions_getElem?]
  rfl

/-- The nodes that stay are those of the pruned scene. -/
theorem pruneNodes_getElem? {position : Nat} {node : SourceNode α}
    (found : scene.nodes[position]? = some node) (here : scene.stays position = true) :
    scene.pruneNodes.nodes[scene.rank position]? = some (scene.relink node) := by
  rw [nodes_pruneNodes, List.getElem?_toArray]
  exact (filterMap_zipIdx scene.stays scene.relink scene.nodes.toList).2 position node
    (by simpa using found) here

/-- As many nodes are left as stay. -/
theorem size_pruneNodes (scene : Scene α) :
    scene.pruneNodes.nodes.size = Nat.count (scene.stays · = true) scene.nodes.size := by
  rw [nodes_pruneNodes, List.size_toArray,
    (filterMap_zipIdx scene.stays scene.relink scene.nodes.toList).1, Array.length_toList]

theorem rank_lt {position : Nat} (stays : scene.stays position = true) :
    scene.rank position < scene.pruneNodes.nodes.size := by
  rw [size_pruneNodes]
  exact Nat.count_strict_mono stays (lt_size_of_stays stays)

/-- Pruned scenes have no other nodes than those of the scene, with other children. -/
theorem exists_of_mem_pruneNodes {node : SourceNode α} (member : node ∈ scene.pruneNodes.nodes) :
    ∃ source ∈ scene.nodes, node = scene.relink source := by
  rw [nodes_pruneNodes, List.mem_toArray] at member
  obtain ⟨entry, among, kept⟩ := List.mem_filterMap.mp member
  obtain ⟨-, same⟩ := Option.ite_none_right_eq_some.mp kept
  exact ⟨entry.1, Array.mem_toList_iff.mp (List.fst_mem_of_mem_zipIdx among),
    (Option.some.inj same).symm⟩

/-- All children of the nodes that are left are left. -/
theorem closed_pruneNodes (scene : Scene α) : scene.pruneNodes.links.Closed := by
  intro children among child member
  obtain ⟨node, found, rfl⟩ := Array.mem_map.mp among
  obtain ⟨source, -, rfl⟩ := exists_of_mem_pruneNodes found
  obtain ⟨old, -, moved⟩ := List.mem_filterMap.mp member
  obtain ⟨stays, same⟩ := Option.ite_none_right_eq_some.mp moved
  obtain rfl := Option.some.inj same
  rw [links, Array.size_map]
  exact rank_lt stays

/-! ## The pruned scene -/

/-- Where the nodes of a scene's forest are after pruning. -/
def prunedForest (scene : Scene α) (forest : Forest Nat) : Forest Nat :=
  (forest.restrict scene.stays).map scene.rank

section

variable (unfolds : scene.links.Unfolds [0] forest) (distinct : forest.preorder.Nodup)

include unfolds distinct

theorem stays_root (rooted : 0 < scene.nodes.size) : scene.stays 0 = true := by
  obtain ⟨below, rfl⟩ := unfolds.exists_root (by rwa [links, Array.size_map])
  refine (marks_stays unfolds distinct).of_needed List.mem_cons_self ?_
  rw [needs, Array.getElem?_eq_getElem rooted]
  rfl

theorem unfolds_pruneNodes : scene.pruneNodes.links.Unfolds [0] (scene.prunedForest forest) := by
  by_cases rooted : 0 < scene.nodes.size
  · have within (position : Nat) (here : scene.stays position = true) :
        position < scene.links.size := by
      rw [links, Array.size_map]
      exact lt_size_of_stays here
    have relinked (position : Nat) (here : scene.stays position = true) (children : List Nat)
        (present : scene.links[position]? = some children) :
        scene.pruneNodes.links[scene.rank position]? =
          some (Links.renumber scene.stays scene.rank children) := by
      rw [links_getElem?, Option.map_eq_some_iff] at present
      obtain ⟨node, found, rfl⟩ := present
      rw [links_getElem?, pruneNodes_getElem? found here]
      rfl
    have pruned := unfolds.restrict within relinked
    rw [Links.renumber_of_stays (stays_root unfolds distinct rooted), rank, Nat.count_zero] at pruned
    exact pruned
  · have empty : scene.nodes = #[] := Array.eq_empty_of_size_eq_zero (by omega)
    have absent : scene.pruneNodes.links[0]? = none := by
      rw [links_getElem?, nodes_pruneNodes, empty]
      rfl
    cases unfolds with
    | outside _ after =>
      cases after
      exact .outside absent .nil
    | inside present _ _ =>
      rw [links_getElem?, empty] at present
      cases present

theorem preorder_prunedForest : (scene.prunedForest forest).preorder =
    (forest.preorder.filter scene.stays).map scene.rank := by
  rw [prunedForest, Forest.preorder_map, (marks_stays unfolds distinct).preorder_restrict]

theorem nodup_prunedForest : (scene.prunedForest forest).preorder.Nodup := by
  rw [preorder_prunedForest unfolds distinct]
  refine (distinct.filter _).map_on fun first one second other same => ?_
  exact Nat.count_injective (List.mem_filter.mp one).2 (List.mem_filter.mp other).2 same

end

end Scene

/-! ## Nodes by name -/

section

variable {scene : Scene Single} {forest : Forest Nat}
  (unfolds : scene.links.Unfolds [0] forest) (distinct : forest.preorder.Nodup)

include unfolds distinct

/-- The walk over the pruned scene meets the nodes that stay, in the same order. -/
theorem reached_pruneNodes : reached scene.pruneNodes (scene.prunedForest forest) =
    ((forest.preorder.filter scene.stays).filterMap (scene.nodes[·]?)).map scene.relink := by
  rw [reached, Scene.preorder_prunedForest unfolds distinct, List.filterMap_map, List.map_filterMap]
  refine List.filterMap_congr fun position member => ?_
  obtain ⟨among, here⟩ := List.mem_filter.mp member
  have found := Array.getElem?_eq_getElem (lt_size_of_unfolds unfolds among)
  rw [Function.comp_apply, found, Scene.pruneNodes_getElem? found here]
  rfl

/-- All nodes of a protected name are left. -/
theorem countP_reached_pruneNodes {name : String} (needed : name ∈ scene.protectedNames) :
    (reached scene.pruneNodes (scene.prunedForest forest)).countP (·.name = name) =
      (reached scene forest).countP (·.name = name) := by
  rw [reached_pruneNodes unfolds distinct, List.countP_map, reached, List.countP_filterMap,
    List.countP_filterMap, List.countP_filter]
  refine List.countP_congr fun position member => ?_
  cases found : scene.nodes[position]? with
  | none => simp
  | some node =>
    have here (named : node.name = name) : scene.stays position = true := by
      refine (Scene.marks_stays unfolds distinct).of_needed member ?_
      simp [Scene.needs, found, named, needed]
    rw [Bool.and_eq_true]
    exact and_iff_left_of_imp fun named => here (of_decide_eq_true named)

end

end SceneBaker.Scene
