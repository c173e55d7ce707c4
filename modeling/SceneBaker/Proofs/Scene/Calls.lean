import SceneBaker.Proofs.Scene.World

/-! # Scenes from calls

A scene is made by calls that add a node, each naming any position as the parent or none. The node is
stored before its parent is looked up, so that a call may name the position that its own node is about
to get. Otherwise a parent comes before its children, and no node has two.
-/

set_option linter.dupNamespace false

namespace SceneBaker.Scene.Scene

open SceneBaker.Geometry Number

variable {α : Type}

/-! ## One call -/

theorem size_addNode (scene : Scene α) (parent : Option Nat) (node : SourceNode α) :
    (scene.addNode parent node).nodes.size = scene.nodes.size + 1 := by
  cases parent <;> simp [addNode]

/-- A new node comes last in the list of the one that it names, itself included. -/
theorem childrenAt_addNode (scene : Scene α) (parent : Option Nat) (node : SourceNode α)
    (position : Nat) : (scene.addNode parent node).links.childrenAt position =
      (if position = scene.nodes.size then node.children else scene.links.childrenAt position) ++
        if parent = some position ∧ position ≤ scene.nodes.size then [scene.nodes.size] else [] := by
  have pushed : ((scene.nodes.push node)[position]?.map (·.children)).getD [] =
      if position = scene.nodes.size then node.children else scene.links.childrenAt position := by
    rw [Array.getElem?_push, Links.childrenAt, links, Array.getElem?_map]
    split <;> rfl
  cases parent with
  | none =>
    rw [← pushed, Links.childrenAt, links, Array.getElem?_map]
    simp [addNode]
  | some upper =>
    rw [← pushed, Links.childrenAt, links, Array.getElem?_map, addNode, Array.getElem?_modify]
    by_cases here : upper = position
    case neg => simp [here]
    subst here
    by_cases present : upper ≤ scene.nodes.size
    case neg =>
      have absent : (scene.nodes.push node)[upper]? = none := by
        refine Array.getElem?_eq_none ?_
        rw [Array.size_push]
        omega
      simp [absent, present]
    have found : upper < (scene.nodes.push node).size := by
      rw [Array.size_push]
      omega
    simp [Array.getElem?_eq_getElem found, present]

/-! ## Calls -/

/-- The scene that calls make of an empty one, each with a parent and a node. -/
def ofCalls (calls : List (Option Nat × SourceNode α)) : Scene α :=
  calls.foldl (fun scene call => scene.addNode call.1 call.2) {}

/-- The call that adds the node at `lower` names `upper`, and that is there once the node is. -/
def Names (calls : List (Option Nat × SourceNode α)) (upper lower : Nat) : Prop :=
  calls[lower]?.bind (·.1) = some upper ∧ upper ≤ lower

instance (calls : List (Option Nat × SourceNode α)) (upper lower : Nat) :
    Decidable (Names calls upper lower) := inferInstanceAs (Decidable (_ ∧ _))

variable {calls : List (Option Nat × SourceNode α)}

theorem ofCalls_append (call : Option Nat × SourceNode α) :
    ofCalls (calls ++ [call]) = (ofCalls calls).addNode call.1 call.2 := by
  rw [ofCalls, List.foldl_append]
  rfl

theorem size_ofCalls (calls : List (Option Nat × SourceNode α)) :
    (ofCalls calls).nodes.size = calls.length := by
  induction calls using List.reverseRecOn with
  | nil => rfl
  | append_singleton calls call ih => rw [ofCalls_append, size_addNode, ih, List.length_append]; rfl

theorem names_append_iff {call : Option Nat × SourceNode α} {upper lower : Nat}
    (before : lower < calls.length) :
    Names (calls ++ [call]) upper lower ↔ Names calls upper lower := by
  rw [Names, Names, List.getElem?_append_left before]

theorem names_length_iff {call : Option Nat × SourceNode α} {upper : Nat} :
    Names (calls ++ [call]) upper calls.length ↔ call.1 = some upper ∧ upper ≤ calls.length := by
  rw [Names, List.getElem?_concat_length, Option.bind_some]

theorem names_unique {first second lower : Nat} (one : Names calls first lower)
    (other : Names calls second lower) : first = second :=
  Option.some.inj (one.1.symm.trans other.1)

/-- The nodes that name a position, after one more call. -/
theorem filter_names_append (call : Option Nat × SourceNode α) (position : Nat) :
    ((List.range (calls ++ [call]).length).filter fun lower =>
        Names (calls ++ [call]) position lower) =
      ((List.range calls.length).filter fun lower => Names calls position lower) ++
        if call.1 = some position ∧ position ≤ calls.length then [calls.length] else [] := by
  have former : ((List.range calls.length).filter fun lower =>
      Names (calls ++ [call]) position lower) =
      (List.range calls.length).filter fun lower => Names calls position lower := by
    refine List.filter_congr fun lower member => ?_
    simp only [names_append_iff (List.mem_range.mp member)]
  have named : ([calls.length].filter fun lower => Names (calls ++ [call]) position lower) =
      if call.1 = some position ∧ position ≤ calls.length then [calls.length] else [] := by
    rw [List.filter_singleton]
    simp only [names_length_iff]
    split <;> simp [*]
  rw [List.length_append, List.length_singleton, List.range_succ, List.filter_append, former, named]

/-- Nothing names a position that comes after it. -/
theorem filter_names_eq_nil {position : Nat} (outside : calls.length ≤ position) :
    ((List.range calls.length).filter fun lower => Names calls position lower) = [] := by
  refine List.filter_eq_nil_iff.mpr fun lower member => ?_
  have before := List.mem_range.mp member
  rw [decide_eq_true_eq]
  exact fun names => absurd names.2 (by omega)

/-- Whatever lists the nodes come with, the calls add to each the nodes that name it, in the order of
the calls. -/
theorem childrenAt_ofCalls (calls : List (Option Nat × SourceNode α)) (position : Nat) :
    (ofCalls calls).links.childrenAt position =
      ((calls[position]?.map (·.2.children)).getD []) ++
        (List.range calls.length).filter fun lower => Names calls position lower := by
  induction calls using List.reverseRecOn with
  | nil => simp [ofCalls, links, Links.childrenAt]
  | append_singleton calls call ih =>
    rw [ofCalls_append, childrenAt_addNode, size_ofCalls, ih, filter_names_append,
      ← List.append_assoc]
    congr 1
    by_cases last : position = calls.length
    · rw [if_pos last, filter_names_eq_nil last.ge, last, List.getElem?_concat_length,
        List.append_nil]
      rfl
    · have beside : (calls ++ [call])[position]? = calls[position]? := by
        rcases Nat.lt_or_gt_of_ne last with before | after
        · exact List.getElem?_append_left before
        · rw [List.getElem?_eq_none (by simp; omega), List.getElem?_eq_none after.le]
      rw [if_neg last, beside]

/-! ## Hierarchies from calls -/

/-- The nodes come without children. -/
def Childless (calls : List (Option Nat × SourceNode α)) : Prop :=
  ∀ call ∈ calls, call.2.children = []

section Childless

variable (childless : Childless calls)

include childless

theorem childrenAt_of_childless (position : Nat) : (ofCalls calls).links.childrenAt position =
    (List.range calls.length).filter fun lower => Names calls position lower := by
  rw [childrenAt_ofCalls]
  cases found : calls[position]? with
  | none => rfl
  | some call =>
    rw [Option.map_some, Option.getD_some, childless call (List.mem_of_getElem? found),
      List.nil_append]

theorem above_iff_names {upper lower : Nat} :
    (ofCalls calls).links.Above upper lower ↔ Names calls upper lower := by
  rw [Links.above_iff, childrenAt_of_childless childless, List.mem_filter, List.mem_range,
    decide_eq_true_eq, and_iff_right_iff_imp]
  intro names
  by_contra outside
  rw [Names, List.getElem?_eq_none (Nat.not_lt.mp outside)] at names
  cases names.1

theorem count_childrenAt_of_above {upper lower : Nat}
    (above : (ofCalls calls).links.Above upper lower) (other : Nat) :
    ((ofCalls calls).links.childrenAt other).count lower = if other = upper then 1 else 0 := by
  have names := (above_iff_names childless).mp above
  have distinct : ((ofCalls calls).links.childrenAt other).Nodup := by
    rw [childrenAt_of_childless childless]
    exact List.nodup_range.filter _
  rw [distinct.count]
  refine if_congr ?_ rfl rfl
  rw [← Links.above_iff, above_iff_names childless]
  refine ⟨fun again => names_unique again names, ?_⟩
  rintro rfl
  exact names

/-- What is below a node was added after it, or is the node itself. -/
theorem le_of_reached {upper lower : Nat}
    (reached : Relation.ReflTransGen (ofCalls calls).links.Above upper lower) : upper ≤ lower := by
  induction reached with
  | refl => exact Nat.le_refl _
  | tail _ above ih => exact ih.trans ((above_iff_names childless).mp above).2

/-- Only a node whose call names the node itself is above itself. -/
theorem transGen_above_iff {position : Nat} :
    Relation.TransGen (ofCalls calls).links.Above position position ↔
      Names calls position position := by
  constructor
  · intro cycle
    obtain ⟨parent, reached, above⟩ := Relation.TransGen.tail'_iff.mp cycle
    have names := (above_iff_names childless).mp above
    obtain rfl := Nat.le_antisymm names.2 (le_of_reached childless reached)
    exact names
  · exact fun names => .single ((above_iff_names childless).mpr names)

/-- A node that is its own child has no other parent, so that it is not reached from another one. -/
theorem not_names_of_reached {top position : Nat} (free : ¬Names calls top top)
    (reached : Relation.ReflTransGen (ofCalls calls).links.Above top position) :
    ¬Names calls position position := by
  induction reached with
  | refl => exact free
  | tail _ above ih =>
    intro names
    obtain rfl := names_unique ((above_iff_names childless).mp above) names
    exact ih names

theorem descends_iff_not_names {top : Nat} :
    (ofCalls calls).links.Descends top ↔ ¬Names calls top top := by
  constructor
  · exact fun descends names =>
      descends top .refl ((transGen_above_iff childless).mpr names)
  · exact fun free position reached cycle =>
      not_names_of_reached childless free reached ((transGen_above_iff childless).mp cycle)

theorem parents_ofCalls {lower : Nat} {call : Option Nat × SourceNode α}
    (found : calls[lower]? = some call) :
    (ofCalls calls).parents[lower]? = some (call.1.filter (· ≤ lower)) := by
  have within : lower < (ofCalls calls).links.size := by
    rw [links, Array.size_map, size_ofCalls]
    exact (List.getElem?_eq_some_iff.mp found).1
  have names {upper : Nat} : (ofCalls calls).links.Above upper lower ↔
      call.1.filter (· ≤ lower) = some upper := by
    rw [above_iff_names childless, Names, found, Option.bind_some, Option.filter_eq_some_iff,
      decide_eq_true_eq]
  cases parent : call.1.filter (· ≤ lower) with
  | none =>
    refine Links.parents_eq_none within fun upper above => ?_
    rw [names, parent] at above
    cases above
  | some upper =>
    refine Option.join_eq_some_iff.mp (Links.parents_eq_some (names.mpr parent) within ?_)
    intro other again
    exact Option.some.inj ((names.mp again).symm.trans parent)

/-- What the root reaches is a tree, unless the first call names position 0. -/
theorem exists_forms (free : ¬Names calls 0 0) :
    ∃ forest, (ofCalls calls).links.Forms forest := by
  obtain ⟨forest, unfolds⟩ := ((descends_iff_not_names childless).mpr free).exists_unfolds
  refine ⟨forest, unfolds.forms (fun parent above => ?_)
    fun parent child above => count_childrenAt_of_above childless above⟩
  have names := (above_iff_names childless).mp above
  obtain rfl := Nat.le_zero.mp names.2
  exact free names

end Childless

/-- Calls make a hierarchy in which no node has two parents. The parent of a node is the one that its
call names if that is there once the node is; a call that names the position of its own node makes that
node its own child. Nothing else is above itself, and a walk from the root ends unless the first call
names position 0. -/
structure Grafted (calls : List (Option Nat × SourceNode α)) (scene : Scene α) : Prop where
  size : scene.nodes.size = calls.length
  above : ∀ upper lower, scene.links.Above upper lower ↔ Names calls upper lower
  single : ∀ first second lower, scene.links.Above first lower → scene.links.Above second lower →
    first = second
  circular : ∀ position, Relation.TransGen scene.links.Above position position ↔
    Names calls position position
  parents : ∀ lower (call : Option Nat × SourceNode α), calls[lower]? = some call →
    scene.parents[lower]? = some (call.1.filter (· ≤ lower))
  walk : ∀ {β : Type} (value : Option β → Nat → β),
    (∃ visits, scene.links.walk? value 0 = some visits) ↔ ¬Names calls 0 0

/-- A walk lists every node that is reached, once, and enters the world transform of each. -/
structure Toured [Add α] [Mul α] [Zero α] [One α] (scene : Scene α) : Prop where
  distinct : scene.preorder.Nodup
  reached : ∀ position, position ∈ scene.preorder ↔
    Relation.ReflTransGen scene.links.Above 0 position ∧ position < scene.nodes.size
  size : scene.worldTransforms.size = scene.nodes.size
  world : ∀ position ∈ scene.preorder, ∃ world, scene.World position world ∧
    (∀ other, scene.World position other → other = world) ∧
    scene.worldTransforms[position]? = some world

theorem toured_of_forms [Add α] [Mul α] [Zero α] [One α] {scene : Scene α} {forest : Forest Nat}
    (forms : scene.links.Forms forest) : scene.Toured := by
  have preorder : scene.preorder = forest.preorder := preorder_eq forms.unfolds forms.distinct
  refine ⟨preorder ▸ forms.distinct, fun position => ?_, ?_, fun position member =>
    exists_world_unique forms (preorder ▸ member)⟩
  · rw [preorder]
    constructor
    · intro member
      obtain ⟨root, listed, reached⟩ := forms.unfolds.exists_reached position member
      have within := forms.unfolds.lt_size position member
      rw [links, Array.size_map] at within
      exact ⟨List.mem_singleton.mp listed ▸ reached, within⟩
    · rintro ⟨reached, within⟩
      rw [← Array.size_map (f := SourceNode.children)] at within
      exact forms.unfolds.mem_preorder_of_reached List.mem_cons_self reached within
  · rw [worldTransforms_eq, size_foldl_placeWorld, Array.size_replicate]

/-- However calls name parents, no node gets two, none but one that its own call names gets below
itself, and the walks list every node that is reached once unless the first call names position 0. -/
theorem grafted_ofCalls [Add α] [Mul α] [Zero α] [One α] (childless : Childless calls) :
    Grafted calls (ofCalls calls) ∧ (¬Names calls 0 0 → (ofCalls calls).Toured) := by
  have above (upper lower : Nat) : (ofCalls calls).links.Above upper lower ↔
      Names calls upper lower := above_iff_names childless
  constructor
  · exact {
      size := size_ofCalls calls
      above
      single := fun first second lower one other =>
        names_unique ((above first lower).mp one) ((above second lower).mp other)
      circular := fun position => transGen_above_iff childless
      parents := fun lower call found => parents_ofCalls childless found
      walk := fun value => Links.exists_walk?_iff.trans (descends_iff_not_names childless) }
  · intro free
    obtain ⟨forest, forms⟩ := exists_forms childless free
    exact toured_of_forms forms

/-- A vine: the cutting names a position that is not there yet, and the tendril that of its own. -/
def vine : List (Option Nat × SourceNode Single) :=
  [(none, { name := "trunk", transform := 1 }), (some 0, { name := "branch", transform := 1 }),
    (some 5, { name := "cutting", transform := 1 }), (some 1, { name := "grape", transform := 1 }),
    (some 4, { name := "tendril", transform := 1 })]

theorem grafted_vine : Childless vine ∧ ¬Names vine 0 0 ∧
    (ofCalls vine).parents = #[none, some 0, none, some 1, some 4] ∧
    (ofCalls vine).preorder = [0, 1, 3] ∧ Grafted vine (ofCalls vine) ∧ (ofCalls vine).Toured := by
  have childless : Childless vine := by
    rw [Childless]
    decide +kernel
  obtain ⟨grafted, toured⟩ := grafted_ofCalls childless
  have free : ¬Names vine 0 0 := by decide
  exact ⟨childless, free, by decide +kernel, by decide +kernel, grafted, toured free⟩

/-- A ring is its own parent, and so is the first node of a scene if its call names position 0: a walk
from it does not end. -/
theorem ring_circular :
    let ring : SourceNode Single := { name := "ring", transform := 1 }
    let hung := ofCalls [(none, ring), (some 1, ring)]
    let first := ofCalls [(some 0, ring)]
    Relation.TransGen hung.links.Above 1 1 ∧ hung.parents = #[none, some 1] ∧
      Relation.TransGen first.links.Above 0 0 ∧ first.links.walk? Links.depth 0 = none := by
  refine ⟨.single ?_, by decide +kernel, .single ?_, by decide +kernel⟩
  · exact ⟨[1], by decide +kernel, List.mem_singleton_self 1⟩
  · exact ⟨[0], by decide +kernel, List.mem_singleton_self 0⟩

end SceneBaker.Scene.Scene
