import SceneBaker.Proofs.Hierarchy.Parents
import Mathlib.Data.Set.Card

/-! # Ancestors

In a rooted arena every position but the root has one parent, and its ancestors are that parent and
the ancestors of that parent. A walk meets a position at the depth that is their number, before its
children, and its children in the order in which it lists them.
-/

namespace SceneBaker

theorem Forest.roots_sublist {α : Type} (forest : Forest α) :
    forest.roots.Sublist forest.preorder := by
  induction forest with
  | nil => exact .slnil
  | cons root below rest _ rest_ih => exact (rest_ih.trans (List.sublist_append_right ..)).cons_cons root

namespace Links

variable {links : Links} {children : List Nat} {forest : Forest Nat}

/-- A walk meets a position and then its children in their order. -/
theorem Unfolds.sublist_preorder (unfolds : links.Unfolds children forest) (closed : links.Closed)
    {position : Nat} {listed : List Nat} (member : position ∈ forest.preorder)
    (present : links[position]? = some listed) : (position :: listed).Sublist forest.preorder := by
  induction unfolds with
  | nil => cases member
  | outside _ _ ih => exact ih member
  | @inside root children siblings below rest here down _ down_ih after_ih =>
    simp only [Forest.preorder, List.mem_cons, List.mem_append] at member ⊢
    rcases member with rfl | lower | later
    · obtain rfl := Option.some.inj (here.symm.trans present)
      rw [← down.roots_eq (closed _ (Array.mem_of_getElem? here))]
      exact (below.roots_sublist.trans (List.sublist_append_left ..)).cons_cons position
    · exact ((down_ih lower).trans (List.sublist_append_left ..)).cons root
    · exact ((after_ih later).trans (List.sublist_append_right ..)).cons root

/-- The positions above a given one, at any distance. -/
def ancestors (links : Links) (position : Nat) : Set Nat :=
  {above | Relation.TransGen links.Above above position}

namespace Rooted

theorem not_above_root (rooted : links.Rooted) (parent : Nat) : ¬links.Above parent 0 :=
  fun above => (rooted.lt_size_of_above above).1.false

theorem above_iff_eq (rooted : links.Rooted) {parent child : Nat} (above : links.Above parent child)
    (other : Nat) : links.Above other child ↔ other = parent :=
  above_iff_eq_of_once above (rooted.count_childrenAt above) other

/-- The parent table holds nothing for the root. -/
theorem parents_root (rooted : links.Rooted) : links.parents[0]? = some none :=
  parents_eq_none rooted.filled rooted.not_above_root

/-- For any other position the parent table holds the one that lists it. -/
theorem parents_child (rooted : links.Rooted) {parent child : Nat}
    (above : links.Above parent child) : links.parents[child]? = some (some parent) :=
  Option.join_eq_some_iff.mp <| parents_eq_some above (rooted.lt_size_of_above above).2
    fun other => (rooted.above_iff_eq above other).mp

theorem ancestors_root (rooted : links.Rooted) : links.ancestors 0 = ∅ := by
  refine Set.eq_empty_of_forall_notMem fun top reached => ?_
  obtain ⟨parent, -, above⟩ := Relation.TransGen.tail'_iff.mp reached
  exact rooted.not_above_root parent above

theorem ancestors_child (rooted : links.Rooted) {parent child : Nat}
    (above : links.Above parent child) :
    links.ancestors child = insert parent (links.ancestors parent) := by
  ext top
  simp only [ancestors, Set.mem_ofPred_eq, Set.mem_insert_iff]
  constructor
  · intro reached
    obtain ⟨last, upper, again⟩ := Relation.TransGen.tail'_iff.mp reached
    obtain rfl := (rooted.above_iff_eq above last).mp again
    exact (Relation.reflTransGen_iff_eq_or_transGen.mp upper).imp_left Eq.symm
  · rintro (rfl | upper)
    · exact .single above
    · exact upper.tail above

/-- A walk meets every position at the depth that is the number of its ancestors. -/
theorem encard_ancestors (rooted : links.Rooted) (unfolds : links.Unfolds children forest)
    {depth : Nat} (top : ∀ child ∈ children, (links.ancestors child).encard = depth) :
    ∀ visit ∈ forest.outline depth, (links.ancestors visit.1).encard = visit.2 := by
  induction unfolds generalizing depth with
  | nil => simp [Forest.outline]
  | outside _ _ ih => exact ih fun child member => top child (List.mem_cons_of_mem _ member)
  | @inside position children siblings below rest present _ _ down_ih after_ih =>
    have here := top position List.mem_cons_self
    have outside : position ∉ links.ancestors position := rooted.acyclic position
    have lower (child : Nat) (member : child ∈ children) :
        (links.ancestors child).encard = (depth + 1 : Nat) := by
      rw [rooted.ancestors_child ⟨children, present, member⟩,
        Set.encard_insert_of_notMem outside, here]
      rfl
    refine List.forall_mem_cons.mpr ⟨here, List.forall_mem_append.mpr ⟨down_ih lower, ?_⟩⟩
    exact after_ih fun child member => top child (List.mem_cons_of_mem _ member)

end Rooted

end Links

end SceneBaker
