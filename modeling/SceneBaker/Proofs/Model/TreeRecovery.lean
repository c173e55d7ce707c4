import SceneBaker.Proofs.Binary.Acceptance
import SceneBaker.Proofs.Model.Arena

/-! # Recovery of node trees

A tree is written in preorder and is read back with its arena in preorder. Every tree that was read
stands in preorder already.
-/

namespace SceneBaker.Model

open Binary

namespace Node

/-- A node that a file can hold without loss. -/
structure Encodable (node : Node) : Prop where
  unbroken : Reader.Unbroken node.name
  storable : Storable node.index
  meshCount : node.meshes.length < 2 ^ 32

theorem Encodable.withChildren {node : Node} (encodable : node.Encodable) (children : List Nat) :
    (node.withChildren children).Encodable :=
  ⟨encodable.unbroken, encodable.storable, encodable.meshCount⟩

theorem recovers_decode {node : Node} (encodable : node.Encodable)
    (few : node.children.length < 2 ^ 32) :
    Node.decode.Recovers node.encode (node.bare, node.children.length) := by
  have meshes : (Reader.times (UInt32.ofNat node.meshes.length).toNat Reader.u32).Recovers
      (.each node.meshes Output.u32) node.meshes := by
    rw [UInt32.toNat_ofNat_of_lt' encodable.meshCount]
    exact (Reader.Recovers.times fun mesh _ => Reader.recovers_u32 mesh).congr (List.map_id _)
  unfold Node.encode
  simp only [Output.append_assoc]
  refine ((Reader.recovers_text encodable.unbroken).bind <|
    (Reader.recovers_index encodable.storable .node).bind <| (Reader.recovers_bool _).bind <|
    (Reader.recovers_dualQuat _).bind <| (Reader.recovers_count encodable.meshCount .nodeMesh).bind <|
    meshes.bind <| (Reader.recovers_count few .child).bind_pure _).congr ?_
  rw [UInt32.toNat_ofNat_of_lt' few]
  rfl

/-- Nodes that were read can be written again, and have no children yet. -/
theorem ensures_decode : Node.decode.Ensures fun read => read.1.bare = read.1 ∧ read.1.Encodable := by
  unfold Node.decode
  refine Reader.ensures_text.bind fun _ unbroken => (Reader.ensures_index .node).bind
    fun _ storable => .skip fun _ => .skip fun _ => .skip fun count =>
    ((Reader.Ensures.trivial Reader.u32).times count.toNat).bind fun meshes read =>
    .skip fun _ => .pure ⟨rfl, unbroken, storable, ?_⟩
  rw [read.1]
  exact count.toNat_lt

end Node

namespace NodeTree

theorem decodeRest_done (bound parent : Nat) (pending : List (Nat × Nat)) (tree : NodeTree) :
    decodeRest bound ((parent, 0) :: pending) tree = decodeRest bound pending tree := by
  rw [decodeRest.eq_def, decodeRest.eq_def bound pending]
  rfl

theorem decodeRest_succ (bound parent waiting : Nat) (pending : List (Nat × Nat))
    (tree : NodeTree) :
    decodeRest (bound + 1) ((parent, waiting + 1) :: pending) tree =
      Node.decode >>= fun read =>
        decodeRest bound ((tree.size, read.2) :: (parent, waiting) :: pending)
          (tree.attach parent read.1) := by
  rw [decodeRest.eq_def]
  rfl

@[simp] theorem decodeRest_nil (bound : Nat) (tree : NodeTree) :
    decodeRest bound [] tree = pure tree := by
  cases bound <;> rfl

/-- Reading the nodes of a forest grafts it below the node that waits for its roots. -/
theorem recovers_decodeRest {forest : Forest Node}
    (good : ∀ node ∈ forest.preorder, node.bare = node ∧ node.Encodable) {start : Nat}
    (few : ∀ node ∈ arena start forest, node.children.length < 2 ^ 32) {bound parent waiting : Nat}
    {pending : List (Nat × Nat)} {tree result : NodeTree} {more : Output}
    (tail : (decodeRest bound ((parent, waiting) :: pending) (tree.graft parent forest)).Recovers
      more result) :
    (decodeRest (forest.size + bound) ((parent, forest.roots.length + waiting) :: pending)
      tree).Recovers (.each (arena start forest) Node.encode ++ more) result := by
  induction forest generalizing start bound parent waiting pending tree more with
  | nil => simpa [arena, Forest.size, Forest.roots, graft] using tail
  | cons node below after below_ih after_ih =>
    simp only [Forest.preorder, List.mem_cons, List.mem_append, forall_eq_or_imp] at good
    obtain ⟨⟨bare, encodable⟩, others⟩ := good
    simp only [arena, List.forall_mem_cons, List.forall_mem_append] at few
    obtain ⟨own, lower, later⟩ := few
    have children : (below.number (start + 1)).roots.length = below.roots.length :=
      below.length_roots_number _
    have head : Node.decode.Recovers (node.withChildren (below.number (start + 1)).roots).encode _ :=
      Node.recovers_decode (encodable.withChildren _) own
    have next := after_ih (fun other member => others other (.inr member)) later tail
    rw [← decodeRest_done _ tree.size] at next
    have down := below_ih (fun other member => others other (.inl member)) lower next
    have bounds : (Forest.cons node below after).size + bound =
        below.size + (after.size + bound) + 1 := by
      simp only [Forest.size]
      omega
    have waits : (Forest.cons node below after).roots.length + waiting =
        after.roots.length + waiting + 1 := by
      simp only [Forest.roots, List.length_cons]
      omega
    rw [bounds, waits, decodeRest_succ, arena, Output.each_cons, Output.each_append,
      Output.append_assoc, Output.append_assoc]
    refine head.bind ?_
    rw [Node.bare_withChildren, bare]
    change (decodeRest _ ((_, (below.number (start + 1)).roots.length) :: _) _).Recovers _ _
    rw [children]
    exact down

/-- Every node takes a byte, so the bytes at hand are a bound on the nodes to come. -/
theorem size_le_length {forest : Forest Node} {start : Nat}
    (encodable : ∀ node ∈ forest.preorder, node.Encodable)
    (few : ∀ node ∈ arena start forest, node.children.length < 2 ^ 32) :
    forest.size ≤ (Output.each (arena start forest) Node.encode).bytes.length := by
  rw [← length_arena start]
  refine Output.length_le_each fun node member => ?_
  have listed := few node member
  obtain ⟨alone, among, part, first, rfl, -⟩ := exists_of_mem_arena member
  have read : Node.decode.Recovers (alone.withChildren (part.number first).roots).encode _ :=
    Node.recovers_decode ((encodable alone among).withChildren _) listed
  refine ⟨read.complete, fun empty => ?_⟩
  have nothing := read.reads []
  rw [empty] at nothing
  cases nothing

/-- A tree in preorder is read back. -/
theorem recovers_ofForest {root : Node} {below : Forest Node}
    (good : ∀ node ∈ (Forest.cons root below .nil).preorder, node.bare = node ∧ node.Encodable)
    (few : ∀ node ∈ arena 0 (.cons root below .nil), node.children.length < 2 ^ 32) :
    NodeTree.decode.Recovers (.each (arena 0 (.cons root below .nil)) Node.encode)
      (ofForest (.cons root below .nil)) := by
  have bare := fun node member => (good node member).1
  simp only [Forest.preorder, List.append_nil, List.mem_cons, forall_eq_or_imp] at good
  obtain ⟨⟨alone, encodable⟩, others⟩ := good
  rw [arena, arena, List.append_nil] at few ⊢
  obtain ⟨own, lower⟩ := List.forall_mem_cons.mp few
  have children : (below.number 1).roots.length = below.roots.length :=
    below.length_roots_number _
  have head : Node.decode.Recovers (root.withChildren (below.number 1).roots).encode _ :=
    Node.recovers_decode (encodable.withChildren _) own
  have tail (bound : Nat) : (decodeRest (below.size + bound) [(0, below.roots.length)]
      (ofRoot root)).Recovers (.each (arena 1 below) Node.encode)
      (ofForest (.cons root below .nil)) := by
    have done : (decodeRest bound [(0, 0)] ((ofRoot root).graft 0 below)).Recovers .empty
        (ofForest (.cons root below .nil)) := by
      rw [decodeRest_done, decodeRest_nil, graft_ofRoot bare]
      exact .pure _
    simpa using recovers_decodeRest others lower done
  rw [Output.each_cons]
  refine head.bind ⟨(tail 0).complete, fun rest => ?_⟩
  have long := size_le_length (fun node member => (others node member).2) lower
  obtain ⟨bound, eq⟩ := Nat.exists_eq_add_of_le
    (long.trans (List.length_append ▸ Nat.le_add_right _ rest.length))
  change decodeRest _ [(0, (below.number 1).roots.length)] _ _ = _
  rw [eq, children, Node.bare_withChildren, alone]
  exact (tail bound).reads rest

/-! ## Trees that were read -/

/-- The result grows out of the tree by one forest below each parent in turn. -/
def Sprouts (tree : NodeTree) (parents : List Nat) (result : NodeTree) : Prop :=
  ∃ forests : List (Nat × Forest Node), forests.map (·.1) = parents ∧
    result = forests.foldl (fun tree (parent, forest) => tree.graft parent forest) tree ∧
    ∀ entry ∈ forests, ∀ node ∈ entry.2.preorder, node.bare = node ∧ node.Encodable

namespace Sprouts

variable {tree result : NodeTree} {parent : Nat} {parents : List Nat}

theorem none (tree : NodeTree) : tree.Sprouts [] tree := ⟨[], rfl, rfl, by simp⟩

theorem done (later : tree.Sprouts parents result) : tree.Sprouts (parent :: parents) result := by
  obtain ⟨forests, order, eq, good⟩ := later
  refine ⟨(parent, .nil) :: forests, congrArg _ order, eq, ?_⟩
  simpa [Forest.preorder] using good

theorem child {node : Node} (good : node.bare = node ∧ node.Encodable)
    (later : (tree.attach parent node).Sprouts (tree.size :: parent :: parents) result) :
    tree.Sprouts (parent :: parents) result := by
  obtain ⟨forests, order, eq, others⟩ := later
  match forests, order with
  | (_, below) :: (_, after) :: rest, named =>
    simp only [List.map_cons, List.cons.injEq] at named
    obtain ⟨rfl, rfl, remaining⟩ := named
    refine ⟨(_, .cons node below after) :: rest, congrArg (_ :: ·) remaining, eq, ?_⟩
    simp only [List.mem_cons, forall_eq_or_imp] at others ⊢
    refine ⟨?_, others.2.2⟩
    simp only [Forest.preorder, List.mem_cons, List.mem_append]
    rintro other (rfl | member | member)
    · exact good
    · exact others.1 other member
    · exact others.2.1 other member

end Sprouts

/-- What is read below the pending nodes is one forest for each of them. -/
theorem ensures_decodeRest (bound : Nat) (pending : List (Nat × Nat)) (tree : NodeTree) :
    (decodeRest bound pending tree).Ensures fun result =>
      tree.Sprouts (pending.map (·.1)) result := by
  induction bound generalizing pending tree with
  | zero =>
    induction pending with
    | nil => exact decodeRest_nil 0 tree ▸ .pure (.none tree)
    | cons entry pending ih =>
      match entry with
      | (parent, 0) =>
        rw [decodeRest_done]
        exact ih.mono fun _ later => later.done
      | (parent, waiting + 1) => exact .fail _
  | succ bound bound_ih =>
    induction pending with
    | nil => exact decodeRest_nil (bound + 1) tree ▸ .pure (.none tree)
    | cons entry pending ih =>
      match entry with
      | (parent, 0) =>
        rw [decodeRest_done]
        exact ih.mono fun _ later => later.done
      | (parent, waiting + 1) =>
        rw [decodeRest_succ]
        refine Node.ensures_decode.bind fun read good => ?_
        exact (bound_ih _ _).mono fun _ later => later.child good

/-- Every tree that is read stands in preorder, and all of its nodes can be written. -/
theorem ensures_decode : NodeTree.decode.Ensures fun tree => ∃ root below,
    tree = ofForest (.cons root below .nil) ∧
      ∀ node ∈ (Forest.cons root below .nil).preorder, node.bare = node ∧ node.Encodable := by
  refine Node.ensures_decode.bind fun read good bytes tree rest success => ?_
  obtain ⟨forests, order, eq, others⟩ := ensures_decodeRest _ _ _ _ _ _ success
  match forests, order with
  | [(_, below)], order =>
    obtain rfl : _ = 0 := (List.cons.inj order).1
    have nodes : ∀ node ∈ (Forest.cons read.1 below .nil).preorder,
        node.bare = node ∧ node.Encodable := by
      simp only [Forest.preorder, List.append_nil, List.mem_cons, forall_eq_or_imp]
      exact ⟨good, others _ List.mem_cons_self⟩
    exact ⟨read.1, below, eq.trans (graft_ofRoot fun node member => (nodes node member).1), nodes⟩

/-! ## Trees in any order -/

variable {tree : NodeTree} {forest : Forest Nat}

/-- The nodes of a tree in preorder are the nodes of the arena that lists them in preorder, but for
the positions of their children. -/
private theorem each_encode_unfolds {children : List Nat} (unfolds : tree.links.Unfolds children forest)
    (closed : ∀ node ∈ tree.nodes, ∀ child ∈ node.children, child < tree.size) (start : Nat) :
    Output.each (forest.preorder.filterMap fun position => tree.get? position) Node.encode =
      .each (arena start (forest.map tree.label)) Node.encode := by
  induction unfolds generalizing start with
  | nil => rfl
  | outside _ _ ih => exact ih start
  | @inside position children _ below rest present down after down_ih after_ih =>
    obtain ⟨node, found, rfl⟩ := Option.map_eq_some_iff.mp (tree.links_getElem? _ ▸ present)
    have inside := closed node (Array.mem_of_getElem? found)
    have roots := down.roots_eq fun child member => by simpa using inside child member
    have own : (node.bare.withChildren ((below.map tree.label).number (start + 1)).roots).encode =
        node.encode := by
      have same : ((below.map tree.label).number (start + 1)).roots.length =
          node.children.length := by
        rw [Forest.number_map, Forest.length_roots_number, roots]
      exact Node.encode_withChildren same
    simp only [Forest.preorder, Forest.map, arena, List.filterMap_cons, found,
      List.filterMap_append, Output.each_cons, Output.each_append, label_eq found, own,
      down_ih (start + 1), after_ih (start + 1 + (below.map tree.label).size)]

/-- A tree is stored as its forest of nodes is. -/
theorem Spells.encode_eq (spells : tree.Spells forest) :
    tree.encode = .each (arena 0 (forest.map tree.label)) Node.encode := by
  rw [← each_encode_unfolds spells.unfolds spells.closed 0, ← spells.map_snd_preorder, Output.each, List.foldr_map]
  rfl

end NodeTree
end SceneBaker.Model
