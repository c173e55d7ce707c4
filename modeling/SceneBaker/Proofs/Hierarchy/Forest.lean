import SceneBaker.Hierarchy
import SceneBaker.Proofs.Steps
import Mathlib.Data.List.Range
import Mathlib.Data.List.Perm.Subperm

/-! # Forests

A `Forest` is a list of ordered trees, and the hierarchies in an arena are unfolded into one:
`links.Unfolds children forest` says that `forest` is what lies below a list of children. A walk over
the arena is then a traversal of the forest. Child lists form a tree if they unfold from the root to
a forest that meets no position twice.
-/

namespace SceneBaker

/-- Ordered trees side by side: the first root, what is below it, and the trees after it. -/
inductive Forest (α : Type) where
  | nil
  | cons (root : α) (below rest : Forest α)

namespace Forest

variable {α β γ : Type}

def size : Forest α → Nat
  | nil => 0
  | cons _ below rest => 1 + below.size + rest.size

def roots : Forest α → List α
  | nil => []
  | cons root _ rest => root :: rest.roots

/-- All entries, parents before children. -/
def preorder : Forest α → List α
  | nil => []
  | cons root below rest => root :: (below.preorder ++ rest.preorder)

/-- All entries in preorder with their depths, the roots being at `depth`. -/
def outline (depth : Nat) : Forest α → List (α × Nat)
  | nil => []
  | cons root below rest => (root, depth) :: (below.outline (depth + 1) ++ rest.outline depth)

/-- Number of entries on the longest path. -/
def height : Forest α → Nat
  | nil => 0
  | cons _ below rest => max (below.height + 1) rest.height

def map (f : α → β) : Forest α → Forest β
  | nil => nil
  | cons root below rest => cons (f root) (below.map f) (rest.map f)

/-- Every entry with the value that it makes of its parent's. -/
def inherit (value : Option β → α → β) (inherited : Option β) : Forest α → Forest (α × β)
  | nil => nil
  | cons root below rest =>
    cons (root, value inherited root) (below.inherit value (some (value inherited root)))
      (rest.inherit value inherited)

/-- The trees of one forest and then those of another. -/
def append : Forest α → Forest α → Forest α
  | nil, after => after
  | cons root below rest, after => cons root below (rest.append after)

/-- The same trees with all siblings in the opposite order. -/
def mirror : Forest α → Forest α
  | nil => nil
  | cons root below rest => rest.mirror.append (cons root below.mirror nil)

/-- A new entry as the last child of each one that is `parent`. -/
def extend [DecidableEq α] (parent new : α) : Forest α → Forest α
  | nil => nil
  | cons root below rest =>
    cons root
      (if root = parent then (below.extend parent new).append (cons new nil nil)
        else below.extend parent new)
      (rest.extend parent new)

/-- The same shape with its entries numbered in preorder. -/
def number (start : Nat) : Forest α → Forest Nat
  | nil => nil
  | cons _ below rest =>
    cons start (below.number (start + 1)) (rest.number (start + 1 + below.size))

theorem length_preorder (forest : Forest α) : forest.preorder.length = forest.size := by
  induction forest with
  | nil => rfl
  | cons root below rest below_ih rest_ih =>
    simp only [preorder, size, List.length_cons, List.length_append, below_ih, rest_ih]
    omega

theorem height_le_size (forest : Forest α) : forest.height ≤ forest.size := by
  induction forest with
  | nil => exact Nat.le_refl 0
  | cons root below rest below_ih rest_ih => simp only [height, size]; omega

theorem length_roots_le (forest : Forest α) : forest.roots.length ≤ forest.size := by
  induction forest with
  | nil => exact Nat.le_refl 0
  | cons root below rest below_ih rest_ih => simp only [roots, size, List.length_cons]; omega

@[simp] theorem size_map (f : α → β) (forest : Forest α) : (forest.map f).size = forest.size := by
  induction forest with
  | nil => rfl
  | cons root below rest below_ih rest_ih => simp only [map, size, below_ih, rest_ih]

@[simp] theorem preorder_map (f : α → β) (forest : Forest α) :
    (forest.map f).preorder = forest.preorder.map f := by
  induction forest with
  | nil => rfl
  | cons root below rest below_ih rest_ih =>
    simp only [map, preorder, below_ih, rest_ih, List.map_cons, List.map_append]

theorem outline_map (f : α → β) (depth : Nat) (forest : Forest α) :
    (forest.map f).outline depth = (forest.outline depth).map fun entry => (f entry.1, entry.2) := by
  induction forest generalizing depth with
  | nil => rfl
  | cons root below rest below_ih rest_ih =>
    simp only [map, outline, below_ih, rest_ih, List.map_cons, List.map_append]

@[simp] theorem map_fst_outline (depth : Nat) (forest : Forest α) :
    (forest.outline depth).map (·.1) = forest.preorder := by
  induction forest generalizing depth with
  | nil => rfl
  | cons root below rest below_ih rest_ih =>
    simp only [outline, preorder, below_ih, rest_ih, List.map_cons, List.map_append]

theorem map_fst_inherit (value : Option β → α → β) (inherited : Option β) (forest : Forest α) :
    (forest.inherit value inherited).preorder.map (·.1) = forest.preorder := by
  induction forest generalizing inherited with
  | nil => rfl
  | cons root below rest below_ih rest_ih =>
    simp only [inherit, preorder, below_ih, rest_ih, List.map_cons, List.map_append]

/-- Handing down depths gives the outline. -/
theorem inherit_depth (inherited : Option Nat) (forest : Forest Nat) :
    (forest.inherit Links.depth inherited).preorder =
      forest.outline (Links.depth inherited 0) := by
  induction forest generalizing inherited with
  | nil => rfl
  | cons root below rest below_ih rest_ih =>
    simp only [inherit, preorder, outline, below_ih, rest_ih]
    cases inherited <;> rfl

@[simp] theorem preorder_number (start : Nat) (forest : Forest α) :
    (forest.number start).preorder = List.range' start forest.size := by
  induction forest generalizing start with
  | nil => rfl
  | cons root below rest below_ih rest_ih =>
    have step : 1 + below.size + rest.size = below.size + rest.size + 1 := by omega
    rw [number, preorder, below_ih, rest_ih, size, step, List.range'_succ, List.range'_append_1]

@[simp] theorem size_number (start : Nat) (forest : Forest α) :
    (forest.number start).size = forest.size := by
  rw [← length_preorder, preorder_number, List.length_range']

theorem length_roots_number (start : Nat) (forest : Forest α) :
    (forest.number start).roots.length = forest.roots.length := by
  induction forest generalizing start with
  | nil => rfl
  | cons root below rest below_ih rest_ih => simp only [number, roots, List.length_cons, rest_ih]

@[simp] theorem preorder_append (first second : Forest α) :
    (first.append second).preorder = first.preorder ++ second.preorder := by
  induction first with
  | nil => rfl
  | cons root below rest _ rest_ih =>
    simp only [append, preorder, rest_ih, List.cons_append, List.append_assoc]

@[simp] theorem append_nil (forest : Forest α) : forest.append nil = forest := by
  induction forest with
  | nil => rfl
  | cons root below rest _ rest_ih => rw [append, rest_ih]

theorem inherit_append (value : Option β → α → β) (inherited : Option β) (first second : Forest α) :
    (first.append second).inherit value inherited =
      (first.inherit value inherited).append (second.inherit value inherited) := by
  induction first with
  | nil => rfl
  | cons root below rest _ rest_ih => simp only [append, inherit, rest_ih]

/-- Turning siblings around changes the order of the entries and nothing that they inherit. -/
theorem preorder_inherit_mirror (value : Option β → α → β) (inherited : Option β)
    (forest : Forest α) :
    (forest.mirror.inherit value inherited).preorder.Perm
      (forest.inherit value inherited).preorder := by
  induction forest generalizing inherited with
  | nil => exact .nil
  | cons root below rest below_ih rest_ih =>
    simp only [mirror, inherit_append, preorder_append, inherit, preorder, List.append_nil]
    exact ((rest_ih inherited).append ((below_ih _).cons _)).trans List.perm_append_comm

/-- The new entry is met once for each parent it was given. -/
theorem count_extend [DecidableEq α] (parent new entry : α) (forest : Forest α) :
    (forest.extend parent new).preorder.count entry = forest.preorder.count entry +
      if new = entry then forest.preorder.count parent else 0 := by
  induction forest with
  | nil => simp [extend, preorder]
  | cons root below rest below_ih rest_ih =>
    obtain rfl | other := eq_or_ne new entry
    · by_cases here : root = parent <;>
        simp [extend, preorder, List.count_cons, here, below_ih, rest_ih] <;> omega
    · by_cases here : root = parent <;>
        simp [extend, preorder, List.count_cons, here, other, below_ih, rest_ih]

theorem number_map (f : α → β) (start : Nat) (forest : Forest α) :
    (forest.map f).number start = forest.number start := by
  induction forest generalizing start with
  | nil => rfl
  | cons root below rest below_ih rest_ih => simp only [map, number, size_map, below_ih, rest_ih]

/-- Depths in preorder, the roots being at `depth`. -/
def depths (depth : Nat) : Forest α → List Nat
  | nil => []
  | cons _ below rest => depth :: (below.depths (depth + 1) ++ rest.depths depth)

theorem map_snd_outline (depth : Nat) (forest : Forest α) :
    (forest.outline depth).map (·.2) = forest.depths depth := by
  induction forest generalizing depth with
  | nil => rfl
  | cons root below rest below_ih rest_ih =>
    simp only [outline, depths, List.map_cons, List.map_append, below_ih, rest_ih]

@[simp] theorem depths_map (f : α → β) (depth : Nat) (forest : Forest α) :
    (forest.map f).depths depth = forest.depths depth := by
  induction forest generalizing depth with
  | nil => rfl
  | cons root below rest below_ih rest_ih => simp only [map, depths, below_ih, rest_ih]

@[simp] theorem depths_number (start depth : Nat) (forest : Forest α) :
    (forest.number start).depths depth = forest.depths depth := by
  induction forest generalizing start depth with
  | nil => rfl
  | cons root below rest below_ih rest_ih => simp only [number, depths, below_ih, rest_ih]

theorem number_number (first second : Nat) (forest : Forest α) :
    (forest.number first).number second = forest.number second := by
  induction forest generalizing first second with
  | nil => rfl
  | cons root below rest below_ih rest_ih => simp only [number, size_number, below_ih, rest_ih]

/-- A forest is known by its shape and its entries in preorder. -/
theorem ext_preorder (start : Nat) {first second : Forest α}
    (shape : first.number start = second.number start)
    (entries : first.preorder = second.preorder) : first = second := by
  induction first generalizing start second with
  | nil =>
    cases second with
    | nil => rfl
    | cons root below rest => cases entries
  | cons root below rest below_ih rest_ih =>
    cases second with
    | nil => cases entries
    | cons root' below' rest' =>
      obtain ⟨-, down, after⟩ := Forest.cons.inj shape
      obtain ⟨rfl, others⟩ := List.cons.inj entries
      have size : below.size = below'.size := by
        rw [← size_number (start + 1) below, down, size_number]
      obtain ⟨first, second⟩ := List.append_inj others (by rw [length_preorder, length_preorder, size])
      rw [size] at after
      rw [below_ih _ down first, rest_ih _ after second]

/-- The same shape with other entries, given in preorder. -/
def relabel (default : β) (labels : List β) (forest : Forest α) : Forest β :=
  (forest.number 0).map fun position => labels[position]?.getD default

theorem preorder_relabel (default : β) {labels : List β} {forest : Forest α}
    (length : labels.length = forest.size) :
    (forest.relabel default labels).preorder = labels := by
  rw [relabel, preorder_map, preorder_number, ← length, ← List.range_eq_range']
  refine List.ext_getElem (by simp) fun position first second => ?_
  simp [second]

end Forest

namespace Links

variable {β : Type} {links : Links} {children : List Nat} {forest : Forest Nat}

section Descend

variable {gap : Gap} {value : Option β → Nat → β} {bound : Nat} {inherited : Option β}
  {visited : List (Nat × β)} {position : Nat}

theorem descend_present (present : links[position]? = some children) :
    links.descend gap value (bound + 1) inherited visited position =
      children.foldlM (links.descend gap value bound (some (value inherited position)))
        ((position, value inherited position) :: visited) := by
  simp only [descend, present]

theorem descend_skip (absent : links[position]? = none) :
    links.descend .skip value (bound + 1) inherited visited position = .ok visited := by
  simp only [descend, absent]

theorem descend_stop (absent : links[position]? = none) :
    links.descend .stop value (bound + 1) inherited visited position = .error visited := by
  simp only [descend, absent]

end Descend

/-- The trees that a list of children stands for. Positions outside the arena are passed over. -/
inductive Unfolds (links : Links) : List Nat → Forest Nat → Prop
  | nil : links.Unfolds [] .nil
  | outside {position : Nat} {siblings : List Nat} {rest : Forest Nat}
      (absent : links[position]? = none) (after : links.Unfolds siblings rest) :
      links.Unfolds (position :: siblings) rest
  | inside {position : Nat} {children siblings : List Nat} {below rest : Forest Nat}
      (present : links[position]? = some children) (down : links.Unfolds children below)
      (after : links.Unfolds siblings rest) :
      links.Unfolds (position :: siblings) (.cons position below rest)

namespace Unfolds

theorem lt_size (unfolds : links.Unfolds children forest) :
    ∀ position ∈ forest.preorder, position < links.size := by
  induction unfolds with
  | nil => simp [Forest.preorder]
  | outside _ _ ih => exact ih
  | inside present _ _ down_ih after_ih =>
    intro position member
    simp only [Forest.preorder, List.mem_cons, List.mem_append] at member
    rcases member with rfl | member | member
    · exact (Array.getElem?_eq_some_iff.mp present).1
    · exact down_ih position member
    · exact after_ih position member

/-- A root that is there has everything else below it. -/
theorem exists_root {root : Nat} (unfolds : links.Unfolds [root] forest)
    (present : root < links.size) :
    ∃ below, forest = .cons root below .nil := by
  cases unfolds with
  | outside absent _ =>
    rw [Array.getElem?_eq_none_iff] at absent
    omega
  | inside _ _ after =>
    cases after
    exact ⟨_, rfl⟩

theorem append {more : List Nat} {after : Forest Nat} (first : links.Unfolds children forest)
    (second : links.Unfolds more after) : links.Unfolds (children ++ more) (forest.append after) := by
  induction first with
  | nil => exact second
  | outside absent _ ih => exact .outside absent ih
  | inside present down _ _ ih => exact .inside present down ih

/-- Positions that all lie in the arena are the roots of what they unfold to. -/
theorem roots_eq (unfolds : links.Unfolds children forest)
    (closed : ∀ child ∈ children, child < links.size) : forest.roots = children := by
  induction unfolds with
  | nil => rfl
  | outside absent _ _ =>
    exact absurd (closed _ List.mem_cons_self) (Nat.not_lt.mpr (Array.getElem?_eq_none_iff.mp absent))
  | inside _ _ _ _ ih =>
    rw [Forest.roots, ih fun child member => closed child (List.mem_cons_of_mem _ member)]

/-- Child lists that are turned around unfold to the mirrored forest. -/
theorem mirror (unfolds : links.Unfolds children forest) :
    Unfolds (links.map List.reverse) children.reverse forest.mirror := by
  induction unfolds with
  | nil => exact .nil
  | outside absent _ ih =>
    rw [List.reverse_cons, ← Forest.append_nil (Forest.mirror _)]
    exact ih.append (.outside (by simp [absent]) .nil)
  | inside present _ _ down_ih after_ih =>
    rw [List.reverse_cons]
    exact after_ih.append (.inside (by simp [present]) down_ih .nil)

/-- A walk that may go deep enough visits the forest in preorder. -/
theorem foldlM_descend (unfolds : links.Unfolds children forest) (value : Option β → Nat → β)
    {bound : Nat} (deep : forest.height < bound) (inherited : Option β)
    (visited : List (Nat × β)) :
    children.foldlM (links.descend .skip value bound inherited) visited =
      .ok ((forest.inherit value inherited).preorder.reverse ++ visited) := by
  induction unfolds generalizing bound inherited visited with
  | nil => rfl
  | outside absent _ ih =>
    obtain ⟨bound, rfl⟩ : ∃ less, bound = less + 1 := ⟨bound - 1, by omega⟩
    rw [List.foldlM_cons, descend_skip absent]
    exact ih deep inherited visited
  | inside present _ _ down_ih after_ih =>
    simp only [Forest.height] at deep
    obtain ⟨bound, rfl⟩ : ∃ less, bound = less + 1 := ⟨bound - 1, by omega⟩
    rw [List.foldlM_cons, descend_present present, down_ih (by omega)]
    refine (after_ih (by omega) inherited _).trans ?_
    simp [Forest.inherit, Forest.preorder]

/-- From one start, such a walk has an end. -/
theorem descend_eq {root : Nat} (unfolds : links.Unfolds [root] forest)
    (deep : forest.height ≤ links.size) (value : Option β → Nat → β) :
    links.descend .skip value (links.size + 1) none [] root =
      .ok (forest.inherit value none).preorder.reverse := by
  have walk := unfolds.foldlM_descend value (Nat.lt_succ_of_le deep) none []
  simpa using walk

/-- A forest without repetition is no larger than the arena. -/
theorem size_le (unfolds : links.Unfolds children forest) (distinct : forest.preorder.Nodup) :
    forest.size ≤ links.size := by
  rw [← forest.length_preorder, ← List.length_range (n := links.size)]
  refine (distinct.subperm fun position member => ?_).length_le
  exact List.mem_range.mpr (unfolds.lt_size position member)

theorem height_le_of_nodup (unfolds : links.Unfolds children forest)
    (distinct : forest.preorder.Nodup) : forest.height ≤ links.size :=
  forest.height_le_size.trans (unfolds.size_le distinct)

theorem walk?_eq {root : Nat} (unfolds : links.Unfolds [root] forest)
    (distinct : forest.preorder.Nodup) (value : Option β → Nat → β) :
    links.walk? value root = some (forest.inherit value none).preorder := by
  rw [walk?, unfolds.descend_eq (unfolds.height_le_of_nodup distinct)]
  exact congrArg some (List.reverse_reverse _)

theorem walk_eq {root : Nat} (unfolds : links.Unfolds [root] forest)
    (distinct : forest.preorder.Nodup) (value : Option β → Nat → β) :
    links.walk .skip value root = (forest.inherit value none).preorder := by
  rw [walk, unfolds.descend_eq (unfolds.height_le_of_nodup distinct)]
  exact List.reverse_reverse _

theorem preorder_eq (unfolds : links.Unfolds [0] forest) (distinct : forest.preorder.Nodup) :
    links.preorder .skip = forest.outline 0 := by
  rw [preorder, unfolds.walk_eq distinct, Forest.inherit_depth]
  rfl

end Unfolds

/-! ## Walks back to forests -/

variable {value : Option β → Nat → β} {bound : Nat} {inherited : Option β}

/-- If walks visit what their starts unfold to, then so do walks one after another. -/
theorem exists_unfolds_of_foldlM {visited visits : List (Nat × β)}
    (each : ∀ {position visited visits},
      links.descend .skip value bound inherited visited position = .ok visits →
        ∃ forest, links.Unfolds [position] forest ∧
          visits = (forest.inherit value inherited).preorder.reverse ++ visited)
    (walked : children.foldlM (links.descend .skip value bound inherited) visited = .ok visits) :
    ∃ forest, links.Unfolds children forest ∧
      visits = (forest.inherit value inherited).preorder.reverse ++ visited := by
  induction children generalizing visited with
  | nil => exact ⟨.nil, .nil, (Except.ok.inj walked).symm⟩
  | cons child children ih =>
    rw [List.foldlM_cons] at walked
    obtain ⟨below, here, others⟩ := Steps.bind_eq_ok_iff.mp walked
    obtain ⟨first, down, rfl⟩ := each here
    obtain ⟨after, siblings, rfl⟩ := ih others
    exact ⟨first.append after, down.append siblings, by simp [Forest.inherit_append]⟩

/-- A walk visits what its start unfolds to. -/
theorem exists_unfolds_of_descend {position : Nat} {visited visits : List (Nat × β)}
    (walked : links.descend .skip value bound inherited visited position = .ok visits) :
    ∃ forest, links.Unfolds [position] forest ∧
      visits = (forest.inherit value inherited).preorder.reverse ++ visited := by
  induction bound generalizing inherited position visited visits with
  | zero => cases walked
  | succ bound ih =>
    cases present : links[position]? with
    | none =>
      rw [descend_skip present] at walked
      obtain rfl := Except.ok.inj walked
      exact ⟨.nil, .outside present .nil, rfl⟩
    | some children =>
      rw [descend_present present] at walked
      obtain ⟨below, unfolds, rfl⟩ := exists_unfolds_of_foldlM ih walked
      refine ⟨.cons position below .nil, .inside present unfolds .nil, ?_⟩
      simp [Forest.inherit, Forest.preorder]

theorem exists_unfolds_of_walk? {root : Nat} {visits : List (Nat × β)}
    (walked : links.walk? value root = some visits) :
    ∃ forest, links.Unfolds [root] forest ∧ visits = (forest.inherit value none).preorder := by
  rw [walk?] at walked
  cases found : links.descend .skip value (links.size + 1) none [] root with
  | error visited => rw [found] at walked; cases walked
  | ok visited =>
    rw [found] at walked
    obtain ⟨forest, unfolds, rfl⟩ := exists_unfolds_of_descend found
    exact ⟨forest, unfolds, by simpa using (Option.some.inj walked).symm⟩

/-! ## Gaps -/

/-- Every child is in the arena. -/
def Closed (links : Links) : Prop :=
  ∀ children ∈ links, ∀ child ∈ children, child < links.size

namespace Closed

/-- Where no child is missing, it does not matter what a walk does at one. -/
theorem descend_eq (closed : links.Closed) (gap : Gap) (visited : List (Nat × β)) {position : Nat}
    (within : position < links.size) :
    links.descend gap value bound inherited visited position =
      links.descend .skip value bound inherited visited position := by
  induction bound generalizing inherited visited position with
  | zero => rfl
  | succ bound ih =>
    have present := Array.getElem?_eq_getElem within
    rw [descend_present present, descend_present present]
    refine Steps.foldlM_congr (fun child member visited => ?_) _
    exact ih visited (closed _ (Array.getElem_mem within) child member)

theorem walk_eq (closed : links.Closed) (gap : Gap) (root : Nat) :
    links.walk gap value root = links.walk .skip value root := by
  by_cases within : root < links.size
  · rw [walk, walk, closed.descend_eq gap [] within]
  · have absent : links[root]? = none := Array.getElem?_eq_none (Nat.not_lt.mp within)
    cases gap with
    | skip => rfl
    | stop =>
      rw [walk, walk, descend_stop absent, descend_skip absent]

end Closed

-- No position 7 is there, and position 1 comes back to the root.
example : preorder #[[1, 7, 2], [], []] .skip = [(0, 0), (1, 1), (2, 1)] := by decide
example : preorder #[[1, 7, 2], [], []] .stop = [(0, 0), (1, 1)] := by decide
example : preorder #[[1, 2], [0], []] .skip = [(0, 0), (1, 1), (0, 2), (1, 3)] := by decide

end Links

end SceneBaker
