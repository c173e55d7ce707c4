import SceneBaker.Proofs.Hierarchy.Forest

/-! # Pruned forests

Pruning drops branches. If an entry stays exactly when it is needed or one of its children stays,
then no needed entry is lost, and what is left in preorder are the entries that stay. In an arena
the nodes that stay get new positions, and child lists that follow them unfold to the pruned forest.
-/

namespace SceneBaker

namespace Forest

variable {α : Type} {kept needed : α → Bool} {forest : Forest α}

/-- The forest without the branches of entries that do not stay. -/
def restrict (kept : α → Bool) : Forest α → Forest α
  | nil => nil
  | cons root below rest =>
    if kept root then cons root (below.restrict kept) (rest.restrict kept) else rest.restrict kept

/-- Entries stay if they are needed or one of their children stays. -/
def Marks (kept needed : α → Bool) : Forest α → Prop
  | nil => True
  | cons root below rest =>
    (kept root = true ↔ needed root = true ∨ ∃ child ∈ below.roots, kept child = true) ∧
      below.Marks kept needed ∧ rest.Marks kept needed

theorem mem_preorder_of_mem_roots {entry : α} (member : entry ∈ forest.roots) :
    entry ∈ forest.preorder := by
  induction forest with
  | nil => cases member
  | cons root below rest _ rest_ih =>
    rcases List.mem_cons.mp member with rfl | later
    · exact List.mem_cons_self
    · exact List.mem_cons_of_mem _ (List.mem_append_right _ (rest_ih later))

/-- The second forest is the first without some branches in which nothing is needed. -/
inductive Prunes (needed : α → Prop) : Forest α → Forest α → Prop
  | nil : Prunes needed nil nil
  | keep {root : α} {below rest kept others : Forest α} (down : Prunes needed below kept)
      (after : Prunes needed rest others) :
      Prunes needed (cons root below rest) (cons root kept others)
  | drop {root : α} {below rest others : Forest α}
      (idle : ∀ entry ∈ root :: below.preorder, ¬needed entry) (after : Prunes needed rest others) :
      Prunes needed (cons root below rest) others

namespace Marks

/-- Only the entries of the forest matter. -/
theorem congr {other : α → Bool} (marks : forest.Marks kept needed)
    (same : ∀ entry ∈ forest.preorder, other entry = kept entry) : forest.Marks other needed := by
  induction forest with
  | nil => trivial
  | cons root below rest below_ih rest_ih =>
    simp only [preorder, List.mem_cons, List.mem_append] at same
    obtain ⟨here, down, after⟩ := marks
    refine ⟨?_, below_ih down fun entry member => same entry (.inr (.inl member)),
      rest_ih after fun entry member => same entry (.inr (.inr member))⟩
    rw [same root (.inl rfl), here]
    refine or_congr Iff.rfl (exists_congr fun child => and_congr_right fun member => ?_)
    rw [same child (.inr (.inl (mem_preorder_of_mem_roots member)))]

theorem of_needed (marks : forest.Marks kept needed) {entry : α}
    (member : entry ∈ forest.preorder) (wanted : needed entry = true) : kept entry = true := by
  induction forest with
  | nil => cases member
  | cons root below rest below_ih rest_ih =>
    obtain ⟨here, down, after⟩ := marks
    simp only [preorder, List.mem_cons, List.mem_append] at member
    rcases member with rfl | member | member
    · exact here.mpr (.inl wanted)
    · exact below_ih down member
    · exact rest_ih after member

/-- If no root stays, nothing does. -/
theorem all_of_roots (marks : forest.Marks kept needed)
    (gone : ∀ root ∈ forest.roots, ¬kept root = true) :
    ∀ entry ∈ forest.preorder, ¬kept entry = true := by
  induction forest with
  | nil => simp [preorder]
  | cons root below rest below_ih rest_ih =>
    obtain ⟨here, down, after⟩ := marks
    obtain ⟨first, others⟩ := List.forall_mem_cons.mp gone
    have children : ∀ child ∈ below.roots, ¬kept child = true :=
      fun child member stays => first (here.mpr (.inr ⟨child, member, stays⟩))
    simp only [preorder, List.mem_cons, List.mem_append]
    rintro entry (rfl | member | member)
    · exact first
    · exact below_ih down children entry member
    · exact rest_ih after others entry member

/-- Pruning keeps the order of the entries that stay. -/
theorem preorder_restrict (marks : forest.Marks kept needed) :
    (forest.restrict kept).preorder = forest.preorder.filter kept := by
  induction forest with
  | nil => rfl
  | cons root below rest below_ih rest_ih =>
    obtain ⟨here, down, after⟩ := marks
    rw [restrict, preorder]
    split
    case isTrue stays =>
      rw [List.filter_cons_of_pos stays, List.filter_append, preorder, below_ih down, rest_ih after]
    case isFalse gone =>
      have branch : below.preorder.filter kept = [] := by
        rw [List.filter_eq_nil_iff]
        refine down.all_of_roots fun child member stays => ?_
        exact gone (here.mpr (.inr ⟨child, member, stays⟩))
      rw [List.filter_cons_of_neg gone, List.filter_append, branch, rest_ih after, List.nil_append]

/-- What is needed for its own sake is not pruned. -/
theorem prunes {β : Type} (marks : forest.Marks kept needed) (f : α → β) {wanted : β → Prop}
    (found : ∀ entry ∈ forest.preorder, wanted (f entry) → needed entry = true) :
    Prunes wanted (forest.map f) ((forest.restrict kept).map f) := by
  induction forest with
  | nil => exact .nil
  | cons root below rest below_ih rest_ih =>
    obtain ⟨here, down, after⟩ := marks
    simp only [preorder, List.mem_cons, List.mem_append] at found
    have first := below_ih down fun entry member => found entry (.inr (.inl member))
    have second := rest_ih after fun entry member => found entry (.inr (.inr member))
    rw [restrict]
    split
    case isTrue stays => exact .keep first second
    case isFalse gone =>
      refine .drop (fun value member wants => ?_) second
      rw [preorder_map, ← List.map_cons] at member
      obtain ⟨entry, among, rfl⟩ := List.mem_map.mp member
      refine gone ?_
      rcases List.mem_cons.mp among with rfl | deeper
      · exact here.mpr (.inl (found _ (.inl rfl) wants))
      · have stays := down.of_needed deeper (found entry (.inr (.inl deeper)) wants)
        refine absurd stays (down.all_of_roots (fun child member stays => ?_) entry deeper)
        exact gone (here.mpr (.inr ⟨child, member, stays⟩))

end Marks

theorem map_congr {β : Type} {f g : α → β} (same : ∀ entry ∈ forest.preorder, f entry = g entry) :
    forest.map f = forest.map g := by
  induction forest with
  | nil => rfl
  | cons root below rest below_ih rest_ih =>
    simp only [preorder, List.mem_cons, List.mem_append] at same
    rw [map, map, same root (.inl rfl),
      below_ih fun entry member => same entry (.inr (.inl member)),
      rest_ih fun entry member => same entry (.inr (.inr member))]

theorem roots_map {β : Type} (f : α → β) (forest : Forest α) :
    (forest.map f).roots = forest.roots.map f := by
  induction forest with
  | nil => rfl
  | cons root below rest _ rest_ih => rw [map, roots, roots, rest_ih, List.map_cons]

theorem roots_restrict (stay : ∀ root ∈ forest.roots, kept root = true) :
    (forest.restrict kept).roots = forest.roots := by
  induction forest with
  | nil => rfl
  | cons root below rest _ rest_ih =>
    obtain ⟨here, others⟩ := List.forall_mem_cons.mp stay
    rw [restrict, if_pos here, roots, roots, rest_ih others]

theorem mem_roots_restrict {entry : α} :
    entry ∈ (forest.restrict kept).roots ↔ entry ∈ forest.roots ∧ kept entry = true := by
  induction forest with
  | nil => simp [restrict, roots]
  | cons root below rest _ rest_ih =>
    rw [restrict, roots, List.mem_cons]
    split
    case isTrue stays =>
      rw [roots, List.mem_cons, rest_ih, or_and_right]
      exact or_congr (iff_self_and.mpr (by rintro rfl; exact stays)) Iff.rfl
    case isFalse gone =>
      rw [rest_ih, or_and_right]
      exact (or_iff_right (by rintro ⟨rfl, stays⟩; exact gone stays)).symm

theorem map_map {β γ : Type} (f : α → β) (g : β → γ) :
    (forest.map f).map g = forest.map (g ∘ f) := by
  induction forest with
  | nil => rfl
  | cons root below rest below_ih rest_ih => rw [map, map, map, below_ih, rest_ih]; rfl

end Forest

namespace Links

variable {links : Links} {children : List Nat} {forest : Forest Nat}

namespace Unfolds

/-- The roots of a forest are the positions of a child list that lie in the arena. -/
theorem mem_roots_iff (unfolds : links.Unfolds children forest) {position : Nat} :
    position ∈ forest.roots ↔ position ∈ children ∧ position < links.size := by
  induction unfolds with
  | nil => simp [Forest.roots]
  | outside absent _ ih =>
    rw [ih, List.mem_cons]
    constructor
    · rintro ⟨listed, within⟩
      exact ⟨.inr listed, within⟩
    · rintro ⟨rfl | listed, within⟩
      · exact absurd within (Nat.not_lt.mpr (Array.getElem?_eq_none_iff.mp absent))
      · exact ⟨listed, within⟩
  | inside present _ _ _ after_ih =>
    rw [Forest.roots, List.mem_cons, after_ih, List.mem_cons, or_and_right]
    refine or_congr (iff_self_and.mpr ?_) Iff.rfl
    rintro rfl
    exact (Array.getElem?_eq_some_iff.mp present).1

end Unfolds

/-- A child list with the new positions of the nodes that stay. -/
def renumber (kept : Nat → Bool) (rank : Nat → Nat) (children : List Nat) : List Nat :=
  children.filterMap fun child => if kept child then some (rank child) else none

theorem renumber_of_stays {kept : Nat → Bool} {rank : Nat → Nat} {position : Nat}
    {siblings : List Nat} (stays : kept position = true) :
    renumber kept rank (position :: siblings) = rank position :: renumber kept rank siblings := by
  simp [renumber, stays]

theorem renumber_of_gone {kept : Nat → Bool} {rank : Nat → Nat} {position : Nat}
    {siblings : List Nat} (gone : ¬kept position = true) :
    renumber kept rank (position :: siblings) = renumber kept rank siblings := by
  simp [renumber, gone]

/-- Child lists with new positions unfold to the pruned forest. -/
theorem Unfolds.restrict {after : Links} {kept : Nat → Bool} {rank : Nat → Nat}
    (unfolds : links.Unfolds children forest) (inside : ∀ position, kept position = true →
      position < links.size)
    (relinked : ∀ position, kept position = true → ∀ children, links[position]? = some children →
      after[rank position]? = some (renumber kept rank children)) :
    after.Unfolds (renumber kept rank children) ((forest.restrict kept).map rank) := by
  induction unfolds with
  | nil => exact .nil
  | @outside position siblings rest absent _ ih =>
    have gone : ¬kept position = true := fun stays =>
      Nat.not_lt.mpr (Array.getElem?_eq_none_iff.mp absent) (inside position stays)
    rw [renumber_of_gone gone]
    exact ih
  | @inside position children siblings below rest present _ _ down_ih after_ih =>
    rw [Forest.restrict]
    split
    case isTrue stays =>
      rw [renumber_of_stays stays]
      exact .inside (relinked position stays children present) down_ih after_ih
    case isFalse gone =>
      rw [renumber_of_gone gone]
      exact after_ih

end Links

end SceneBaker
