import SceneBaker.Proofs.Hierarchy.Prune
import Mathlib.Data.Fintype.EquivFin
import Mathlib.Order.WellFounded
import Mathlib.Logic.Relation

/-! # Rooted hierarchies

An arena holds one tree rooted at position 0 if every other position is a child of exactly one, and
there are no cycles. That is the same as unfolding from the root to a forest that meets every
position of the arena once, the form in which walks are described.
-/

namespace SceneBaker.Links

variable {links : Links} {children : List Nat} {forest : Forest Nat}

/-- A position lists another one as its child. -/
def Above (links : Links) (parent child : Nat) : Prop :=
  ∃ children, links[parent]? = some children ∧ child ∈ children

/-- Position 0 is the root, every other position is in one child list and once there, and nothing is
above itself. -/
structure Rooted (links : Links) : Prop where
  filled : 0 < links.size
  listed : links.toList.flatten.Perm (List.range' 1 (links.size - 1))
  acyclic : ∀ position, ¬Relation.TransGen links.Above position position

/-- The children of a position, none outside the arena. -/
def childrenAt (links : Links) (position : Nat) : List Nat := links[position]?.getD []

theorem childrenAt_eq {position : Nat} (present : links[position]? = some children) :
    links.childrenAt position = children := by
  rw [childrenAt, present, Option.getD_some]

theorem lt_size_of_mem_childrenAt {position child : Nat}
    (member : child ∈ links.childrenAt position) : position < links.size := by
  by_contra outside
  rw [childrenAt, Array.getElem?_eq_none (Nat.not_lt.mp outside)] at member
  cases member

theorem above_iff {parent child : Nat} :
    links.Above parent child ↔ child ∈ links.childrenAt parent := by
  constructor
  · rintro ⟨children, present, member⟩
    rwa [childrenAt_eq present]
  · intro member
    have present := Array.getElem?_eq_getElem (lt_size_of_mem_childrenAt member)
    exact ⟨_, present, childrenAt_eq present ▸ member⟩

/-- Nothing is below a position outside the arena. -/
theorem acc_of_size_le {position : Nat} (outside : links.size ≤ position) :
    Acc (fun child parent => links.Above parent child) position := by
  refine .intro _ fun child above => ?_
  exact absurd (lt_size_of_mem_childrenAt (above_iff.mp above)) (Nat.not_lt.mpr outside)

theorem flatten_eq (links : Links) :
    links.toList.flatten = (List.range links.size).flatMap links.childrenAt := by
  rw [List.flatMap_def]
  congr 1
  refine List.ext_getElem (by simp) fun position first second => ?_
  have within : position < links.size := by simpa using first
  simp [childrenAt, within]

namespace Unfolds

/-- Everything in a forest is a root or a child of something in it. -/
theorem perm_preorder (unfolds : links.Unfolds children forest) (closed : links.Closed)
    (inside : ∀ child ∈ children, child < links.size) :
    forest.preorder.Perm (children ++ forest.preorder.flatMap links.childrenAt) := by
  induction unfolds with
  | nil => exact .nil
  | outside absent _ _ =>
    have here := inside _ List.mem_cons_self
    exact absurd here (Nat.not_lt.mpr (Array.getElem?_eq_none_iff.mp absent))
  | inside present _ _ down_ih after_ih =>
    have below := down_ih (closed _ (Array.mem_of_getElem? present))
    have rest := after_ih fun child member => inside child (List.mem_cons_of_mem _ member)
    rw [Forest.preorder, List.flatMap_cons, List.flatMap_append, childrenAt_eq present]
    refine List.perm_iff_count.mpr fun entry => ?_
    have first := below.count_eq entry
    have second := rest.count_eq entry
    simp only [List.count_append, List.cons_append, List.count_cons] at first second ⊢
    omega

/-- Going down from an entry of a forest ends. -/
theorem acc (unfolds : links.Unfolds children forest) :
    ∀ position ∈ forest.preorder, Acc (fun child parent => links.Above parent child) position := by
  induction unfolds with
  | nil => simp [Forest.preorder]
  | outside _ _ after_ih => exact after_ih
  | inside present down _ down_ih after_ih =>
    refine List.forall_mem_cons.mpr ⟨.intro _ fun child above => ?_,
      List.forall_mem_append.mpr ⟨down_ih, after_ih⟩⟩
    obtain ⟨children, same, member⟩ := above
    obtain rfl := Option.some.inj (present.symm.trans same)
    by_cases within : child < links.size
    · have root := down.mem_roots_iff.mpr ⟨member, within⟩
      exact down_ih child (Forest.mem_preorder_of_mem_roots root)
    · exact acc_of_size_le (Nat.not_lt.mp within)

/-- Going down from a root ends, be it in the arena or not. -/
theorem acc_of_mem (unfolds : links.Unfolds children forest) {child : Nat}
    (member : child ∈ children) : Acc (fun child parent => links.Above parent child) child := by
  by_cases within : child < links.size
  · have root := unfolds.mem_roots_iff.mpr ⟨member, within⟩
    exact unfolds.acc child (Forest.mem_preorder_of_mem_roots root)
  · exact acc_of_size_le (Nat.not_lt.mp within)

/-- What is below an entry of a forest is in the forest. -/
theorem mem_preorder_of_above (unfolds : links.Unfolds children forest) {parent child : Nat}
    (member : parent ∈ forest.preorder) (above : links.Above parent child)
    (within : child < links.size) : child ∈ forest.preorder := by
  induction unfolds with
  | nil => cases member
  | outside _ _ after_ih => exact after_ih member
  | @inside position children siblings below rest present down _ down_ih after_ih =>
    simp only [Forest.preorder, List.mem_cons, List.mem_append] at member ⊢
    rcases member with rfl | member | member
    · obtain ⟨listed, same, among⟩ := above
      obtain rfl := Option.some.inj (present.symm.trans same)
      have root := down.mem_roots_iff.mpr ⟨among, within⟩
      exact .inr (.inl (Forest.mem_preorder_of_mem_roots root))
    · exact .inr (.inl (down_ih member))
    · exact .inr (.inr (after_ih member))

theorem mem_preorder_of_reached (unfolds : links.Unfolds children forest) {root position : Nat}
    (member : root ∈ children) (reached : Relation.ReflTransGen links.Above root position)
    (within : position < links.size) : position ∈ forest.preorder := by
  induction reached with
  | refl => exact Forest.mem_preorder_of_mem_roots (unfolds.mem_roots_iff.mpr ⟨member, within⟩)
  | tail _ above ih =>
    have inside := lt_size_of_mem_childrenAt (above_iff.mp above)
    exact unfolds.mem_preorder_of_above (ih inside) above within

end Unfolds

/-- Positions that unfold one by one unfold side by side. -/
theorem exists_unfolds (each : ∀ child ∈ children, ∃ below, links.Unfolds [child] below) :
    ∃ forest, links.Unfolds children forest := by
  induction children with
  | nil => exact ⟨.nil, .nil⟩
  | cons child children ih =>
    obtain ⟨⟨first, here⟩, others⟩ := List.forall_mem_cons.mp each
    obtain ⟨rest, after⟩ := ih others
    exact ⟨first.append rest, here.append after⟩

/-- On finitely many positions, a relation without cycles is well-founded. -/
theorem wellFounded_of_acyclic (related : Nat → Nat → Prop) (count : Nat)
    (acyclic : ∀ position, ¬Relation.TransGen related position position) :
    WellFounded fun first second : Fin count => related first second := by
  let closure := Relation.TransGen fun first second : Fin count => related first second
  have transitive : IsTrans (Fin count) closure := ⟨fun _ _ _ => .trans⟩
  have irreflexive : Std.Irrefl closure :=
    ⟨fun position cycle => acyclic position (cycle.lift Fin.val fun _ _ edge => edge)⟩
  have wellFounded : WellFounded closure := Finite.wellFounded_of_trans_of_irrefl closure
  exact Subrelation.wf (fun edge => .single edge) wellFounded

/-! ## Descents -/

/-- Nothing at or below a position is below itself. -/
def Descends (links : Links) (top : Nat) : Prop :=
  ∀ position, Relation.ReflTransGen links.Above top position →
    ¬Relation.TransGen links.Above position position

/-- Going down from a position that is below itself does not end. -/
theorem not_transGen_of_acc {position : Nat}
    (ends : Acc (fun child parent => links.Above parent child) position) :
    ¬Relation.TransGen links.Above position position := by
  induction ends with
  | intro position _ ih =>
    intro cycle
    obtain ⟨child, above, back⟩ := Relation.TransGen.head'_iff.mp cycle
    exact ih child above (.tail' back above)

/-- What goes down from a position unfolds to a tree. -/
theorem Descends.exists_unfolds {top : Nat} (descends : links.Descends top) :
    ∃ forest, links.Unfolds [top] forest := by
  let below (child parent : Nat) : Prop :=
    Relation.ReflTransGen links.Above top parent ∧ links.Above parent child
  have acyclic (position : Nat) : ¬Relation.TransGen below position position := by
    intro cycle
    obtain ⟨_, -, reached, -⟩ := Relation.TransGen.tail'_iff.mp cycle
    have upward : Relation.TransGen (Function.swap links.Above) position position :=
      cycle.lift id fun _ _ edge => edge.2
    exact descends position reached (Relation.transGen_swap.mp upward)
  have absent (position : Nat) (outside : ¬position < links.size) :
      ∃ forest, links.Unfolds [position] forest :=
    ⟨.nil, .outside (Array.getElem?_eq_none (Nat.not_lt.mp outside)) .nil⟩
  have descending := wellFounded_of_acyclic below links.size acyclic
  have each (position : Fin links.size) (reached : Relation.ReflTransGen links.Above top position) :
      ∃ forest, links.Unfolds [position.val] forest := by
    induction position using descending.induction with
    | _ position ih =>
      have present := Array.getElem?_eq_getElem position.isLt
      obtain ⟨forest, down⟩ : ∃ forest, links.Unfolds links[position] forest := by
        refine Links.exists_unfolds fun child member => ?_
        have above : links.Above position child := ⟨_, present, member⟩
        by_cases within : child < links.size
        · exact ih ⟨child, within⟩ ⟨reached, above⟩ (reached.tail above)
        · exact absent child within
      exact ⟨_, .inside present down .nil⟩
  by_cases within : top < links.size
  · exact each ⟨top, within⟩ .refl
  · exact absent top within

theorem acc_of_reached {top position : Nat}
    (ends : Acc (fun child parent => links.Above parent child) top)
    (reached : Relation.ReflTransGen links.Above top position) :
    Acc (fun child parent => links.Above parent child) position := by
  induction reached with
  | refl => exact ends
  | tail _ above ih => exact ih.inv above

/-- What descends below all its children descends. -/
theorem descends_of_above {top : Nat}
    (below : ∀ child, links.Above top child → links.Descends child) : links.Descends top := by
  intro position reached cycle
  rcases reached.cases_head with rfl | ⟨child, above, onward⟩
  · obtain ⟨child, above, back⟩ := Relation.TransGen.head'_iff.mp cycle
    exact below child above top back cycle
  · exact below child above position onward cycle

/-- A position unfolds to a tree exactly if nothing at or below it is below itself. -/
theorem descends_iff {top : Nat} :
    links.Descends top ↔ ∃ forest, links.Unfolds [top] forest := by
  refine ⟨Descends.exists_unfolds, ?_⟩
  rintro ⟨forest, unfolds⟩ position reached
  exact not_transGen_of_acc (acc_of_reached (unfolds.acc_of_mem List.mem_cons_self) reached)

/-- A longest path down a forest: each entry is below all before it. -/
theorem Unfolds.exists_path (unfolds : links.Unfolds children forest) :
    ∃ path : List Nat, path.length = forest.height ∧ path.Pairwise (Relation.TransGen links.Above) ∧
      ∀ entry ∈ path, entry < links.size ∧
        ∃ root ∈ children, Relation.ReflTransGen links.Above root entry := by
  induction unfolds with
  | nil => exact ⟨[], rfl, .nil, nofun⟩
  | outside _ _ ih =>
    obtain ⟨path, length, ordered, placed⟩ := ih
    refine ⟨path, length, ordered, fun entry member => ?_⟩
    obtain ⟨within, root, listed, reached⟩ := placed entry member
    exact ⟨within, root, List.mem_cons_of_mem _ listed, reached⟩
  | @inside position children siblings below rest present _ _ down_ih after_ih =>
    obtain ⟨down, deep, ordered, under⟩ := down_ih
    obtain ⟨after, length, sorted, beside⟩ := after_ih
    rcases Nat.le_total rest.height (below.height + 1) with shallow | deeper
    · have lower : ∀ entry ∈ down, Relation.TransGen links.Above position entry := by
        intro entry member
        obtain ⟨-, root, listed, reached⟩ := under entry member
        exact .head' ⟨children, present, listed⟩ reached
      refine ⟨position :: down, ?_, List.pairwise_cons.mpr ⟨lower, ordered⟩,
        List.forall_mem_cons.mpr ⟨⟨(Array.getElem?_eq_some_iff.mp present).1, position,
          List.mem_cons_self, .refl⟩, fun entry member => ?_⟩⟩
      · rw [List.length_cons, deep, Forest.height, Nat.max_eq_left shallow]
      · exact ⟨(under entry member).1, position, List.mem_cons_self, (lower entry member).to_reflTransGen⟩
    · refine ⟨after, ?_, sorted, fun entry member => ?_⟩
      · rw [length, Forest.height, Nat.max_eq_right deeper]
      · obtain ⟨within, root, listed, reached⟩ := beside entry member
        exact ⟨within, root, List.mem_cons_of_mem _ listed, reached⟩

/-- No path is longer than the arena, since none comes back to an entry. -/
theorem Unfolds.height_le (unfolds : links.Unfolds children forest) :
    forest.height ≤ links.size := by
  obtain ⟨path, length, ordered, placed⟩ := unfolds.exists_path
  have distinct : path.Nodup := by
    refine ordered.imp_of_mem fun {first second} member _ edge same => ?_
    obtain ⟨-, root, listed, reached⟩ := placed first member
    have ends := acc_of_reached (unfolds.acc_of_mem listed) reached
    exact not_transGen_of_acc ends (same ▸ edge)
  rw [← length, ← List.length_range (n := links.size)]
  exact (distinct.subperm fun entry member => List.mem_range.mpr (placed entry member).1).length_le

/-- There is a walk exactly if its start descends. -/
theorem exists_walk?_iff {β : Type} {value : Option β → Nat → β} {root : Nat} :
    (∃ visits, links.walk? value root = some visits) ↔ links.Descends root := by
  rw [descends_iff]
  constructor
  · rintro ⟨visits, walked⟩
    obtain ⟨forest, unfolds, -⟩ := exists_unfolds_of_walk? walked
    exact ⟨forest, unfolds⟩
  · rintro ⟨forest, unfolds⟩
    exact ⟨_, by rw [walk?, unfolds.descend_eq unfolds.height_le]⟩

/-- A child that one position lists, and once, is met below some positions as often as that one is
among them. -/
theorem count_flatMap_childrenAt {parent child : Nat}
    (once : ∀ other, (links.childrenAt other).count child = if other = parent then 1 else 0)
    (positions : List Nat) :
    (positions.flatMap links.childrenAt).count child = positions.count parent := by
  induction positions with
  | nil => rfl
  | cons position positions ih =>
    rw [List.flatMap_cons, List.count_append, ih, once, List.count_cons]
    simp only [beq_iff_eq]
    omega

/-- A child that one position lists has that one as its only parent. -/
theorem above_iff_eq_of_once {parent child : Nat} (above : links.Above parent child)
    (once : ∀ other, (links.childrenAt other).count child = if other = parent then 1 else 0)
    (other : Nat) : links.Above other child ↔ other = parent := by
  refine ⟨fun again => ?_, fun same => same ▸ above⟩
  by_contra different
  have unlisted := once other
  rw [if_neg different] at unlisted
  exact List.count_eq_zero.mp unlisted (above_iff.mp again)

namespace Rooted

theorem closed (rooted : links.Rooted) : links.Closed := by
  intro children among child member
  have listed := rooted.listed.subset
    (List.mem_flatten.mpr ⟨children, Array.mem_toList_iff.mpr among, member⟩)
  have filled := rooted.filled
  rw [List.mem_range'_1] at listed
  omega

theorem mem_flatten (rooted : links.Rooted) {position : Nat} :
    position ∈ links.toList.flatten ↔ 0 < position ∧ position < links.size := by
  have filled := rooted.filled
  rw [rooted.listed.mem_iff, List.mem_range'_1]
  omega

theorem lt_size_of_above (rooted : links.Rooted) {parent child : Nat}
    (above : links.Above parent child) : 0 < child ∧ child < links.size := by
  obtain ⟨listed, present, member⟩ := above
  exact rooted.mem_flatten.mp (List.mem_flatten.mpr
    ⟨listed, Array.mem_toList_iff.mpr (Array.mem_of_getElem? present), member⟩)

/-- No position has two parents, and none is listed twice by its parent. -/
theorem count_childrenAt (rooted : links.Rooted) {parent child : Nat}
    (above : links.Above parent child) (other : Nat) :
    (links.childrenAt other).count child = if other = parent then 1 else 0 := by
  have distinct : links.toList.flatten.Nodup :=
    rooted.listed.nodup_iff.mpr List.nodup_range'
  obtain ⟨each, apart⟩ := List.nodup_flatten.mp distinct
  have member := above_iff.mp above
  have listed (position : Nat) (within : position < links.size) :
      links.childrenAt position = links.toList[position] := by
    rw [childrenAt_eq (Array.getElem?_eq_getElem within), Array.getElem_toList]
  have present := lt_size_of_mem_childrenAt member
  split
  case isTrue same =>
    subst same
    refine List.count_eq_one_of_mem ?_ member
    exact listed _ present ▸ each _ (List.getElem_mem _)
  case isFalse different =>
    refine List.count_eq_zero.mpr fun again => ?_
    have within := lt_size_of_mem_childrenAt again
    have disjoint := List.pairwise_iff_getElem.mp apart
    rw [listed _ present] at member
    rw [listed _ within] at again
    rcases Nat.lt_or_gt_of_ne different with before | after
    · exact disjoint _ _ (by simpa using within) (by simpa using present) before again member
    · exact disjoint _ _ (by simpa using present) (by simpa using within) after member again

theorem exists_above (rooted : links.Rooted) {position : Nat} (positive : 0 < position)
    (within : position < links.size) : ∃ parent, links.Above parent position := by
  have listed := rooted.mem_flatten.mpr ⟨positive, within⟩
  rw [flatten_eq] at listed
  obtain ⟨parent, -, member⟩ := List.mem_flatMap.mp listed
  exact ⟨parent, above_iff.mpr member⟩

theorem exists_unfolds (rooted : links.Rooted) : ∃ forest, links.Unfolds [0] forest :=
  Descends.exists_unfolds fun position _ => rooted.acyclic position

/-- The root is met once and every other position as often as its parent. -/
theorem count_preorder (rooted : links.Rooted) (unfolds : links.Unfolds [0] forest)
    {position : Nat} (within : position < links.size) : forest.preorder.count position = 1 := by
  have counted := unfolds.perm_preorder rooted.closed (by simpa using rooted.filled)
  have ascending := wellFounded_of_acyclic links.Above links.size rooted.acyclic
  suffices each : ∀ position : Fin links.size, forest.preorder.count position.val = 1 from
    each ⟨position, within⟩
  intro position
  induction position using ascending.induction with
  | _ position ih =>
    have met := counted.count_eq position.val
    rw [List.count_append] at met
    rcases Nat.eq_zero_or_pos position.val with root | positive
    · have unlisted : position.val ∉ forest.preorder.flatMap links.childrenAt := by
        intro listed
        obtain ⟨parent, -, member⟩ := List.mem_flatMap.mp listed
        have below := (rooted.lt_size_of_above (above_iff.mpr member)).1
        omega
      rw [met, List.count_eq_zero.mpr unlisted, root]
      rfl
    · obtain ⟨parent, above⟩ := rooted.exists_above positive position.isLt
      have inside := lt_size_of_mem_childrenAt (above_iff.mp above)
      rw [met, count_flatMap_childrenAt (rooted.count_childrenAt above),
        ih ⟨parent, inside⟩ above, List.count_singleton, if_neg (by simpa using positive.ne)]

end Rooted

/-- A rooted arena is one in which a walk from the root meets every position once. -/
theorem rooted_iff (filled : 0 < links.size) : links.Rooted ↔ links.Closed ∧
    ∃ forest, links.Unfolds [0] forest ∧ forest.preorder.Perm (List.range links.size) := by
  constructor
  · intro rooted
    obtain ⟨forest, unfolds⟩ := rooted.exists_unfolds
    refine ⟨rooted.closed, forest, unfolds, List.perm_iff_count.mpr fun position => ?_⟩
    by_cases within : position < links.size
    · rw [rooted.count_preorder unfolds within,
        List.count_eq_one_of_mem List.nodup_range (List.mem_range.mpr within)]
    · have unmet : position ∉ forest.preorder := fun met => within (unfolds.lt_size position met)
      have outside : position ∉ List.range links.size := by simpa using within
      rw [List.count_eq_zero.mpr unmet, List.count_eq_zero.mpr outside]
  · rintro ⟨closed, forest, unfolds, complete⟩
    refine ⟨filled, ?_, fun position cycle => ?_⟩
    · have counted := unfolds.perm_preorder closed (by simpa using filled)
      have range : List.range links.size = 0 :: List.range' 1 (links.size - 1) := by
        obtain ⟨less, size⟩ := Nat.exists_eq_succ_of_ne_zero filled.ne'
        rw [List.range_eq_range', size, List.range'_succ]
        rfl
      rw [flatten_eq]
      refine ((complete.flatMap_right links.childrenAt).symm.trans ?_)
      refine (List.perm_cons 0).mp (counted.symm.trans ?_)
      rwa [← range]
    · have descending : WellFounded fun child parent => links.Above parent child := by
        refine ⟨fun position => ?_⟩
        by_cases within : position < links.size
        · exact unfolds.acc position (complete.mem_iff.mpr (List.mem_range.mpr within))
        · exact acc_of_size_le (Nat.not_lt.mp within)
      exact descending.transGen.irrefl.irrefl position (Relation.transGen_swap.mpr cycle)

end SceneBaker.Links
