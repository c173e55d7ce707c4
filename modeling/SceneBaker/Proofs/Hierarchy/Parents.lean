import SceneBaker.Proofs.Hierarchy.Rooted

/-! # Parents in an arena

The parent of a position is the last one that lists it. Where the child lists form a tree, that is
the only one, and a walk meets it before its child.
-/

namespace SceneBaker.Links

variable {links : Links} {children : List Nat} {forest : Forest Nat}

/-! ## The last position that lists another one -/

/-- Enter a position as the parent of its children. -/
def adopt (links : Links) (parents : Array (Option Nat)) (position : Nat) : Array (Option Nat) :=
  (links.childrenAt position).foldl
    (fun parents child => parents.setIfInBounds child (some position)) parents

theorem parents_eq (links : Links) : links.parents =
    (List.range links.size).foldl links.adopt (Array.replicate links.size none) := rfl

private theorem foldl_setIfInBounds (listed : List Nat) (entry : Option Nat)
    (parents : Array (Option Nat)) :
    (listed.foldl (fun parents child => parents.setIfInBounds child entry) parents).size =
        parents.size ∧
      ∀ child < parents.size,
        (listed.foldl (fun parents child => parents.setIfInBounds child entry) parents)[child]? =
          if child ∈ listed then some entry else parents[child]? := by
  induction listed generalizing parents with
  | nil => exact ⟨rfl, fun child _ => by simp⟩
  | cons first listed ih =>
    obtain ⟨size, found⟩ := ih (parents.setIfInBounds first entry)
    rw [Array.size_setIfInBounds] at size found
    refine ⟨size, fun child within => ?_⟩
    rw [List.foldl_cons, found child within, Array.getElem?_setIfInBounds]
    by_cases later : child ∈ listed
    · simp [later]
    · by_cases here : first = child
      · simp [here, within]
      · simp [later, here, Ne.symm here]

theorem size_adopt (parents : Array (Option Nat)) (position : Nat) :
    (links.adopt parents position).size = parents.size :=
  (foldl_setIfInBounds _ _ parents).1

theorem getElem?_adopt {parents : Array (Option Nat)} {child : Nat} (within : child < parents.size)
    (position : Nat) : (links.adopt parents position)[child]? =
      if child ∈ links.childrenAt position then some (some position) else parents[child]? :=
  (foldl_setIfInBounds _ _ parents).2 child within

/-- The parent of a position is the last one that lists it. -/
theorem getElem?_parents {child : Nat} (within : child < links.size) : links.parents[child]? =
    some ((List.range links.size).filter fun parent => child ∈ links.childrenAt parent).getLast? := by
  have met (count : Nat) : ((List.range count).foldl links.adopt
        (Array.replicate links.size none)).size = links.size ∧
      ((List.range count).foldl links.adopt (Array.replicate links.size none))[child]? =
        some ((List.range count).filter fun parent => child ∈ links.childrenAt parent).getLast? := by
    induction count with
    | zero => simp [within]
    | succ count ih =>
      obtain ⟨size, found⟩ := ih
      rw [List.range_succ, List.foldl_append, List.foldl_cons, List.foldl_nil, size_adopt,
        getElem?_adopt (by rwa [size]), found, List.filter_append]
      refine ⟨size, ?_⟩
      by_cases listed : child ∈ links.childrenAt count <;> simp [listed]
  rw [parents_eq]
  exact (met links.size).2

theorem parents_eq_none {child : Nat} (within : child < links.size)
    (unlisted : ∀ parent, ¬links.Above parent child) : links.parents[child]? = some none := by
  have none : ((List.range links.size).filter fun parent => child ∈ links.childrenAt parent) = [] := by
    refine List.filter_eq_nil_iff.mpr fun parent _ listed => ?_
    exact unlisted parent (above_iff.mpr (of_decide_eq_true listed))
  rw [getElem?_parents within, none]
  rfl

theorem parents_eq_some {parent child : Nat} (above : links.Above parent child)
    (within : child < links.size) (only : ∀ other, links.Above other child → other = parent) :
    links.parents[child]?.join = some parent := by
  have listed := above_iff.mp above
  have filled : ((List.range links.size).filter fun other => child ∈ links.childrenAt other) ≠ [] := by
    refine List.ne_nil_of_mem (List.mem_filter.mpr ⟨?_, decide_eq_true listed⟩)
    exact List.mem_range.mpr (lt_size_of_mem_childrenAt listed)
  have last := List.mem_filter.mp (List.getLast_mem filled)
  rw [getElem?_parents within, List.getLast?_eq_getLast_of_ne_nil filled, Option.join_some]
  exact congrArg some (only _ (above_iff.mpr (of_decide_eq_true last.2)))

/-! ## Parents in a tree -/

namespace Unfolds

/-- A position is met as a root and as a child of what is met. -/
theorem count_preorder (unfolds : links.Unfolds children forest) {position : Nat}
    (within : position < links.size) : forest.preorder.count position =
      children.count position + (forest.preorder.flatMap links.childrenAt).count position := by
  induction unfolds with
  | nil => rfl
  | outside absent _ ih =>
    rw [ih, List.count_cons_of_ne]
    rintro rfl
    exact absurd within (Nat.not_lt.mpr (Array.getElem?_eq_none_iff.mp absent))
  | inside present _ _ down_ih after_ih =>
    rw [Forest.preorder, List.flatMap_cons, List.flatMap_append, childrenAt_eq present]
    simp only [List.count_cons, List.count_append, down_ih, after_ih]
    omega

/-- In a tree no two positions have a child in common. -/
theorem parent_unique (unfolds : links.Unfolds children forest) (distinct : forest.preorder.Nodup)
    {first second child : Nat} (one : first ∈ forest.preorder) (other : second ∈ forest.preorder)
    (within : child < links.size) (above : links.Above first child)
    (again : links.Above second child) : first = second := by
  by_contra different
  have both : forest.preorder.Perm (first :: second :: (forest.preorder.erase first).erase second) :=
    (List.perm_cons_erase one).trans (.cons _ (List.perm_cons_erase
      ((List.mem_erase_of_ne (Ne.symm different)).mpr other)))
  have met := unfolds.count_preorder within
  rw [(both.flatMap_right links.childrenAt).count_eq, List.flatMap_cons, List.flatMap_cons,
    List.count_append, List.count_append] at met
  have once := List.nodup_iff_count_le_one.mp distinct child
  have here := List.count_pos_iff.mpr (above_iff.mp above)
  have there := List.count_pos_iff.mpr (above_iff.mp again)
  omega

/-- In a tree nothing is above a root. -/
theorem not_above_of_mem (unfolds : links.Unfolds children forest)
    (distinct : forest.preorder.Nodup) {root parent : Nat} (listed : root ∈ children)
    (within : root < links.size) (member : parent ∈ forest.preorder) :
    ¬links.Above parent root := by
  intro above
  have met := unfolds.count_preorder within
  have once := List.nodup_iff_count_le_one.mp distinct root
  have here := List.count_pos_iff.mpr listed
  have below := List.count_pos_iff.mpr
    (List.mem_flatMap.mpr ⟨parent, member, above_iff.mp above⟩)
  omega

/-- What is met is reached from a root. -/
theorem exists_reached (unfolds : links.Unfolds children forest) :
    ∀ position ∈ forest.preorder,
      ∃ root ∈ children, Relation.ReflTransGen links.Above root position := by
  induction unfolds with
  | nil => simp [Forest.preorder]
  | outside _ _ ih =>
    intro position member
    obtain ⟨root, listed, reached⟩ := ih position member
    exact ⟨root, List.mem_cons_of_mem _ listed, reached⟩
  | @inside position children siblings below rest present _ _ down_ih after_ih =>
    intro entry member
    simp only [Forest.preorder, List.mem_cons, List.mem_append] at member
    rcases member with rfl | lower | later
    · exact ⟨entry, List.mem_cons_self, .refl⟩
    · obtain ⟨child, listed, reached⟩ := down_ih entry lower
      exact ⟨position, List.mem_cons_self, .head ⟨children, present, listed⟩ reached⟩
    · obtain ⟨root, listed, reached⟩ := after_ih entry later
      exact ⟨root, List.mem_cons_of_mem _ listed, reached⟩

/-- A walk meets a position before its children. -/
theorem exists_before (unfolds : links.Unfolds children forest) {parent child : Nat}
    (member : parent ∈ forest.preorder) (above : links.Above parent child)
    (within : child < links.size) :
    ∃ front back, forest.preorder = front ++ child :: back ∧ parent ∈ front := by
  induction unfolds with
  | nil => cases member
  | outside _ _ ih => exact ih member
  | @inside position children siblings below rest present down _ down_ih after_ih =>
    simp only [Forest.preorder, List.mem_cons, List.mem_append] at member ⊢
    rcases member with rfl | lower | later
    · have listed := above_iff.mp above
      rw [childrenAt_eq present] at listed
      have root := Forest.mem_preorder_of_mem_roots (down.mem_roots_iff.mpr ⟨listed, within⟩)
      obtain ⟨front, back, split⟩ := List.append_of_mem root
      exact ⟨parent :: front, back ++ rest.preorder, by simp [split], List.mem_cons_self⟩
    · obtain ⟨front, back, split, before⟩ := down_ih lower
      exact ⟨position :: front, back ++ rest.preorder, by simp [split],
        List.mem_cons_of_mem _ before⟩
    · obtain ⟨front, back, split, before⟩ := after_ih later
      exact ⟨position :: (below.preorder ++ front), back, by simp [split],
        List.mem_cons_of_mem _ (List.mem_append_right _ before)⟩

end Unfolds

/-- The child lists form one tree: they unfold from position 0 to a forest that meets no position
twice, and no other position lists one that it meets. Positions that are not met may list each
other. -/
structure Forms (links : Links) (forest : Forest Nat) : Prop where
  unfolds : links.Unfolds [0] forest
  distinct : forest.preorder.Nodup
  enclosed : ∀ parent child, links.Above parent child → child ∈ forest.preorder →
    parent ∈ forest.preorder

/-- Where every child is listed once, and the root is no child, a walk from the root meets nothing
twice. Positions that it does not meet may be above themselves. -/
theorem Unfolds.forms (unfolds : links.Unfolds [0] forest) (orphan : ∀ parent, ¬links.Above parent 0)
    (once : ∀ parent child, links.Above parent child →
      ∀ other, (links.childrenAt other).count child = if other = parent then 1 else 0) :
    links.Forms forest where
  unfolds := unfolds
  distinct := by
    have met (position : Nat) (reached : Relation.ReflTransGen links.Above 0 position)
        (within : position < links.size) : forest.preorder.count position ≤ 1 := by
      induction reached with
      | refl =>
        have unlisted : 0 ∉ forest.preorder.flatMap links.childrenAt := by
          intro among
          obtain ⟨parent, -, listed⟩ := List.mem_flatMap.mp among
          exact orphan parent (above_iff.mpr listed)
        rw [unfolds.count_preorder within, List.count_eq_zero.mpr unlisted, List.count_singleton_self]
      | @tail parent position _ above ih =>
        have lower : (0 == position) = false := beq_false_of_ne fun top => orphan parent (top ▸ above)
        rw [unfolds.count_preorder within, count_flatMap_childrenAt (once parent position above),
          List.count_singleton, lower]
        simpa using ih (lt_size_of_mem_childrenAt (above_iff.mp above))
    refine List.nodup_iff_count_le_one.mpr fun position => ?_
    by_cases member : position ∈ forest.preorder
    case neg => exact (List.count_eq_zero.mpr member).le.trans zero_le_one
    obtain ⟨root, listed, reached⟩ := unfolds.exists_reached position member
    exact met position (List.mem_singleton.mp listed ▸ reached) (unfolds.lt_size position member)
  enclosed := by
    intro parent child above member
    obtain ⟨root, listed, reached⟩ := unfolds.exists_reached child member
    obtain rfl := List.mem_singleton.mp listed
    rcases Relation.ReflTransGen.cases_tail reached with rfl | ⟨last, upper, again⟩
    · exact absurd above (orphan parent)
    · obtain rfl := (above_iff_eq_of_once again (once last child again) parent).mp above
      exact unfolds.mem_preorder_of_reached listed upper
        (lt_size_of_mem_childrenAt (above_iff.mp above))

namespace Forms

/-- In a tree the parent of a position is the one that lists it. -/
theorem parents_child (forms : links.Forms forest) {parent child : Nat}
    (member : parent ∈ forest.preorder) (above : links.Above parent child)
    (within : child < links.size) : links.parents[child]?.join = some parent := by
  have below := forms.unfolds.mem_preorder_of_above member above within
  exact parents_eq_some above within fun other again => forms.unfolds.parent_unique forms.distinct
    (forms.enclosed other child again below) member within again above

theorem parents_root (forms : links.Forms forest) (filled : 0 < links.size) :
    links.parents[0]?.join = none := by
  have root := forms.unfolds.mem_preorder_of_reached List.mem_cons_self .refl filled
  have unlisted (parent : Nat) (above : links.Above parent 0) : False :=
    forms.unfolds.not_above_of_mem forms.distinct List.mem_cons_self filled
      (forms.enclosed parent 0 above root) above
  rw [parents_eq_none filled unlisted, Option.join_some]

end Forms

end SceneBaker.Links
