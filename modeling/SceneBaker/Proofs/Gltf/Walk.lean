import SceneBaker.Proofs.Gltf.Hierarchy
import SceneBaker.Proofs.Hierarchy.Rooted

/-! # Whether the walk over a document ends

The walk takes the children that the document lists and marks no node as visited. It ends if nothing
that it goes down to is below itself, however many nodes share a child. Otherwise it can only end
at a node that cannot be read, if it meets one before it has gone around.
-/

namespace SceneBaker.Gltf

open Number Scene Build Steps

namespace Document

variable {document : Document} {position : Nat}

theorem getElem?_links (document : Document) (position : Nat) :
    document.links[position]? = document.children? position := by
  rw [links, children?, Array.getElem?_push, Array.size_map, Array.getElem?_map]

theorem mem_parentless_iff : position ∈ document.parentless ↔
    position < document.nodes.size ∧ ∀ node ∈ document.nodes, position ∉ node.children := by
  simp [parentless, Array.forall_mem_iff_forall_getElem]

end Document

namespace Loaded

variable {loaded : Loaded} {tour later : Tour} {position depth : Nat} {children : List Nat}
  {forest : Forest Nat} {rest visited : List (Nat × Nat)}

/-! ## Steps of the walk -/

/-- What one step of the walk does: it passes over a position that is not there, goes on to the
children of a node, or gives up at one that cannot be read. -/
inductive Advances (loaded : Loaded) : Tour → Tour → Prop
  | pass {position depth : Nat} {rest visited : List (Nat × Nat)}
      (absent : loaded.document.children? position = none) :
      loaded.Advances ⟨(position, depth) :: rest, visited⟩ ⟨rest, visited⟩
  | enter {position depth : Nat} {children : List Nat} {rest visited : List (Nat × Nat)}
      (present : loaded.document.children? position = some children)
      (readable : loaded.readable position = true) :
      loaded.Advances ⟨(position, depth) :: rest, visited⟩
        ⟨children.map (·, depth + 1) ++ rest, (position, depth) :: visited⟩
  | halt {position depth : Nat} {children : List Nat} {rest visited : List (Nat × Nat)}
      (present : loaded.document.children? position = some children)
      (unreadable : loaded.readable position = false) :
      loaded.Advances ⟨(position, depth) :: rest, visited⟩ ⟨[], (position, depth) :: visited⟩

theorem advance?_eq_none_iff : loaded.advance? tour = none ↔ tour.coming = [] := by
  obtain ⟨_ | ⟨⟨position, depth⟩, rest⟩, visited⟩ := tour
  · simp [advance?]
  · cases present : loaded.document.children? position <;> simp [advance?, present]

theorem advance?_eq_some_iff : loaded.advance? tour = some later ↔ loaded.Advances tour later := by
  constructor
  · intro advances
    obtain ⟨_ | ⟨⟨position, depth⟩, rest⟩, visited⟩ := tour
    · cases advances
    · cases present : loaded.document.children? position with
      | none =>
        simp only [advance?, present, Option.some.injEq] at advances
        exact advances ▸ .pass present
      | some children =>
        cases readable : loaded.readable position with
        | true =>
          simp only [advance?, present, readable, if_true, Option.some.injEq] at advances
          exact advances ▸ .enter present readable
        | false =>
          simp only [advance?, present, readable, Bool.false_eq_true, if_false,
            Option.some.injEq] at advances
          exact advances ▸ .halt present readable
  · rintro (absent | ⟨present, readable⟩ | ⟨present, unreadable⟩)
    · simp [advance?, absent]
    · simp [advance?, present, readable]
    · simp [advance?, present, unreadable]

/-! ## Walks -/

/-- The walk gets from one state to another. -/
def Leads (loaded : Loaded) : Tour → Tour → Prop := Relation.ReflTransGen loaded.Advances

/-- The walk gets to where nothing comes. -/
def Ends (loaded : Loaded) (tour : Tour) : Prop := ∃ visited, loaded.Leads tour ⟨[], visited⟩

/-- The walk gets to a node that cannot be read. -/
def Breaks (loaded : Loaded) (tour : Tour) : Prop :=
  ∃ position depth rest visited, loaded.Leads tour ⟨(position, depth) :: rest, visited⟩ ∧
    loaded.document.children? position ≠ none ∧ loaded.readable position = false

theorem Leads.trans {final : Tour} (leads : loaded.Leads tour later)
    (onward : loaded.Leads later final) : loaded.Leads tour final :=
  Relation.ReflTransGen.trans leads onward

theorem Leads.breaks (leads : loaded.Leads tour later) (breaks : loaded.Breaks later) :
    loaded.Breaks tour := by
  obtain ⟨position, depth, rest, visited, onward, unreadable⟩ := breaks
  exact ⟨position, depth, rest, visited, leads.trans onward, unreadable⟩

theorem explore_eq (loaded : Loaded) (tour : Tour) :
    loaded.explore tour = match loaded.advance? tour with
      | none => tour.visited.reverse
      | some next => loaded.explore next := by
  rw [explore, repeatM_eq_of_monadTail, repeatM.body]
  cases loaded.advance? tour <;> rfl

theorem Leads.explore_eq (leads : loaded.Leads tour later) :
    loaded.explore tour = loaded.explore later := by
  induction leads using Relation.ReflTransGen.head_induction_on with
  | refl => rfl
  | head advances _ ih =>
    rw [Loaded.explore_eq, advance?_eq_some_iff.mpr advances]
    exact ih

/-- The visits are known once nothing comes. -/
theorem Leads.explore_eq_reverse (leads : loaded.Leads tour ⟨[], visited⟩) :
    loaded.explore tour = visited.reverse := by
  rw [leads.explore_eq, Loaded.explore_eq, advance?_eq_none_iff.mpr rfl]

/-- Where the walk gives up, its last visit is the node that cannot be read. -/
theorem Breaks.exists_leads (breaks : loaded.Breaks tour) : ∃ position depth visited,
    loaded.Leads tour ⟨[], (position, depth) :: visited⟩ ∧ loaded.readable position = false := by
  obtain ⟨position, depth, rest, visited, leads, present, unreadable⟩ := breaks
  obtain ⟨children, present⟩ := Option.ne_none_iff_exists'.mp present
  exact ⟨position, depth, visited, leads.tail (.halt present unreadable), unreadable⟩

/-- Everything that was visited could be read. -/
theorem Leads.readable (leads : loaded.Leads tour later) (unbroken : ¬loaded.Breaks tour)
    (before : ∀ entry ∈ tour.visited, loaded.readable entry.1 = true) :
    ∀ entry ∈ later.visited, loaded.readable entry.1 = true := by
  induction leads with
  | refl => exact before
  | tail leads advances ih =>
    cases advances with
    | pass => exact ih
    | enter _ readable => exact List.forall_mem_cons.mpr ⟨readable, ih⟩
    | halt present unreadable =>
      exact absurd ⟨_, _, _, _, leads, by simp [present], unreadable⟩ unbroken

/-- Everything that the walk comes to is below the top. -/
theorem Leads.reached (leads : loaded.Leads loaded.start later) : ∀ entry ∈ later.coming,
    Relation.ReflTransGen loaded.document.links.Above loaded.document.nodes.size entry.1 := by
  induction leads with
  | refl => exact List.forall_mem_singleton.mpr .refl
  | tail _ advances ih =>
    cases advances with
    | pass => exact fun entry member => ih entry (List.mem_cons_of_mem _ member)
    | halt => exact fun _ member => nomatch member
    | @enter position depth children rest visited present _ =>
      obtain ⟨here, others⟩ := List.forall_mem_cons.mp ih
      refine List.forall_mem_append.mpr ⟨fun entry member => ?_, others⟩
      obtain ⟨child, listed, rfl⟩ := List.mem_map.mp member
      exact here.tail ⟨children, (loaded.document.getElem?_links position).trans present, listed⟩

/-! ## Descents -/

/-- The walk gets past positions that unfold, unless it meets a node that cannot be read. -/
theorem breaks_or_leads (unfolds : loaded.document.links.Unfolds children forest) (depth : Nat)
    (rest visited : List (Nat × Nat)) :
    loaded.Breaks ⟨children.map (·, depth) ++ rest, visited⟩ ∨
      loaded.Leads ⟨children.map (·, depth) ++ rest, visited⟩
        ⟨rest, (forest.outline depth).reverse ++ visited⟩ := by
  induction unfolds generalizing depth rest visited with
  | nil => exact .inr .refl
  | @outside position siblings _ absent _ ih =>
    rw [Document.getElem?_links] at absent
    have past : loaded.Leads ⟨(position, depth) :: (siblings.map (·, depth) ++ rest), visited⟩
        ⟨siblings.map (·, depth) ++ rest, visited⟩ := .single (.pass absent)
    exact (ih depth rest visited).imp past.breaks past.trans
  | @inside position children siblings below after present _ _ down_ih after_ih =>
    rw [Document.getElem?_links] at present
    cases readable : loaded.readable position with
    | false => exact .inl ⟨position, depth, _, visited, .refl, by simp [present], readable⟩
    | true =>
      have into : loaded.Leads
          ⟨(position, depth) :: (siblings.map (·, depth) ++ rest), visited⟩ _ :=
        .single (.enter present readable)
      rcases down_ih (depth + 1) (siblings.map (·, depth) ++ rest) ((position, depth) :: visited)
        with broken | past
      · exact .inl (into.breaks broken)
      · have onward := after_ih depth rest
          ((below.outline (depth + 1)).reverse ++ (position, depth) :: visited)
        refine onward.imp (into.trans past).breaks fun leads => ?_
        simp only [Forest.outline, List.reverse_cons, List.reverse_append, List.append_assoc,
          List.singleton_append]
        exact (into.trans past).trans leads

/-- A walk that ends without meeting a node that cannot be read only met nodes that descend. -/
theorem Leads.descends (leads : loaded.Leads tour ⟨[], visited⟩) (unbroken : ¬loaded.Breaks tour) :
    ∀ entry ∈ tour.coming, loaded.document.links.Descends entry.1 := by
  induction leads using Relation.ReflTransGen.head_induction_on with
  | refl => exact fun _ member => nomatch member
  | head advances _ ih =>
    have later := ih fun broken => unbroken (Leads.breaks (.single advances) broken)
    cases advances with
    | pass absent =>
      refine List.forall_mem_cons.mpr ⟨Links.descends_of_above fun child above => ?_, later⟩
      obtain ⟨children, listed, -⟩ := above
      rw [Document.getElem?_links, absent] at listed
      cases listed
    | enter present _ =>
      obtain ⟨below, siblings⟩ := List.forall_mem_append.mp later
      refine List.forall_mem_cons.mpr ⟨Links.descends_of_above fun child above => ?_, siblings⟩
      obtain ⟨listed, same, member⟩ := above
      rw [Document.getElem?_links, present] at same
      obtain rfl := Option.some.inj same
      exact below _ (List.mem_map_of_mem member)
    | halt present unreadable =>
      exact absurd ⟨_, _, _, _, .refl, by simp [present], unreadable⟩ unbroken

/-- The walk ends exactly if it goes down to nothing that is below itself, or meets a node that
cannot be read. -/
theorem ends_iff : loaded.Ends loaded.start ↔
    loaded.document.links.Descends loaded.document.nodes.size ∨ loaded.Breaks loaded.start := by
  constructor
  · rintro ⟨visited, leads⟩
    by_cases broken : loaded.Breaks loaded.start
    · exact .inr broken
    · exact .inl (leads.descends broken _ List.mem_cons_self)
  · rintro (descends | broken)
    · obtain ⟨forest, unfolds⟩ := descends.exists_unfolds
      rcases breaks_or_leads unfolds 0 [] [] with broken | leads
      · obtain ⟨_, _, _, leads, -⟩ := broken.exists_leads
        exact ⟨_, leads⟩
      · exact ⟨_, leads⟩
    · obtain ⟨_, _, _, leads, -⟩ := broken.exists_leads
      exact ⟨_, leads⟩

/-! ## Visits -/

/-- Without a node that cannot be read, the visits that are known from the document are those of the
walk. -/
theorem visits_eq_explore (unbroken : ¬loaded.Breaks loaded.start) :
    loaded.visits = loaded.explore loaded.start := by
  rw [visits, Document.visits?]
  cases walked : loaded.document.links.walk? Links.depth loaded.document.nodes.size with
  | none => rfl
  | some visits =>
    obtain ⟨forest, unfolds, rfl⟩ := Links.exists_unfolds_of_walk? walked
    have leads := (breaks_or_leads unfolds 0 [] []).resolve_left unbroken
    have explored := leads.explore_eq_reverse
    rw [List.append_nil, List.append_nil, List.reverse_reverse] at explored
    rw [Forest.inherit_depth]
    exact explored.symm

/-- A node that ends the walk is among the visits. -/
theorem exists_visit_of_breaks (broken : loaded.Breaks loaded.start) :
    ∃ entry ∈ loaded.visits, loaded.readable entry.1 = false := by
  rw [visits, Document.visits?]
  cases walked : loaded.document.links.walk? Links.depth loaded.document.nodes.size with
  | none =>
    obtain ⟨position, depth, visited, leads, unreadable⟩ := broken.exists_leads
    refine ⟨(position, depth), ?_, unreadable⟩
    simp only [leads.explore_eq_reverse, List.mem_reverse, List.mem_cons_self]
  | some visits =>
    obtain ⟨forest, unfolds, rfl⟩ := Links.exists_unfolds_of_walk? walked
    obtain ⟨position, depth, rest, visited, leads, present, unreadable⟩ := broken
    have reached := leads.reached _ List.mem_cons_self
    have met : position ∈ forest.preorder := by
      refine unfolds.mem_preorder_of_reached List.mem_cons_self reached ?_
      rw [← Document.getElem?_links] at present
      by_contra outside
      exact present (Array.getElem?_eq_none (Nat.not_lt.mp outside))
    rw [← forest.map_fst_outline 0] at met
    obtain ⟨entry, listed, rfl⟩ := List.mem_map.mp met
    rw [Forest.inherit_depth]
    exact ⟨entry, listed, unreadable⟩

/-! ## Scenes -/

theorem mem_pieces_iff {visits : List (Nat × Nat)} {piece : Document.Piece} :
    piece ∈ loaded.pieces visits ↔ ∃ entry ∈ visits, ∃ use,
      (loaded.document.nodes[entry.1]? >>= Document.Node.use?) = some use ∧
        piece ∈ loaded.document.pieces use := by
  simp only [pieces, Document.uses, List.mem_flatMap, List.mem_eraseDups, List.mem_filterMap]
  constructor
  · rintro ⟨use, ⟨entry, member, drawn⟩, among⟩
    exact ⟨entry, member, use, drawn, among⟩
  · rintro ⟨entry, member, use, drawn, among⟩
    exact ⟨use, ⟨entry, member, drawn⟩, among⟩

theorem readable_iff : loaded.readable position = true ↔
    ∀ use, (loaded.document.nodes[position]? >>= Document.Node.use?) = some use →
      ∀ piece ∈ loaded.document.pieces use, ∃ mesh, loaded.mesh piece = .ok mesh := by
  rw [readable]
  cases loaded.document.nodes[position]? >>= Document.Node.use? with
  | none => simp
  | some use =>
    simp only [List.all_eq_true, Option.some.injEq, forall_eq']
    refine forall₂_congr fun piece _ => ?_
    cases loaded.mesh piece <;> simp [Except.isOk, Except.toBool]

/-- Nodes that draw nothing can be read. -/
theorem readable_of_bare (bare : ∀ node ∈ loaded.document.nodes, node.mesh = none)
    (position : Nat) : loaded.readable position = true := by
  refine readable_iff.mpr fun use drawn => ?_
  obtain ⟨node, present, used⟩ := Option.bind_eq_some_iff.mp drawn
  rw [Document.Node.use?, bare node (Array.mem_of_getElem? present)] at used
  cases used

/-- The meshes of the visits can be read exactly if all visited nodes can. -/
theorem forall_readable_iff {visits : List (Nat × Nat)} :
    (∀ entry ∈ visits, loaded.readable entry.1 = true) ↔
      ∃ meshes, (loaded.pieces visits).mapM loaded.mesh = .ok meshes := by
  simp only [exists_mapM_eq_ok_iff, mem_pieces_iff, readable_iff]
  constructor
  · rintro each piece ⟨entry, member, use, drawn, among⟩
    exact each entry member use drawn piece among
  · exact fun each entry member use drawn piece among =>
      each piece ⟨entry, member, use, drawn, among⟩

theorem exists_noPositions_of_mesh_eq_error {piece : Document.Piece} {cause : ImportCause}
    (failed : loaded.mesh piece = .error cause) : ∃ name, cause = .noPositions name := by
  rw [mesh] at failed
  split at failed
  · exact ⟨_, (Except.error.inj failed).symm⟩
  · cases failed

theorem toScene_of_isEmpty (empty : loaded.document.nodes.isEmpty) :
    loaded.toScene = .error .emptyScene := by
  rw [toScene, if_pos empty]
  rfl

/-- A document with nodes gives a scene exactly if everything that was visited can be read. -/
theorem exists_toScene_iff (full : ¬loaded.document.nodes.isEmpty) :
    (∃ scene, loaded.toScene = .ok scene) ↔
      ∀ entry ∈ loaded.visits, loaded.readable entry.1 = true := by
  rw [forall_readable_iff, toScene, if_neg full]
  constructor
  · rintro ⟨scene, imported⟩
    obtain ⟨meshes, read, -⟩ := bind_eq_ok_iff.mp imported
    exact ⟨meshes, mapError_eq_ok_iff.mp read⟩
  · rintro ⟨meshes, read⟩
    exact ⟨_, bind_eq_ok_iff.mpr ⟨meshes, mapError_eq_ok_iff.mpr read, rfl⟩⟩

theorem exists_noPositions_of_toScene_eq_error (full : ¬loaded.document.nodes.isEmpty)
    {cause : ConversionError} (failed : loaded.toScene = .error cause) :
    ∃ name, cause = .notImported (.noPositions name) := by
  rw [toScene, if_neg full] at failed
  rcases bind_eq_error_iff.mp failed with unread | ⟨_, -, ⟨⟩⟩
  cases read : (loaded.pieces loaded.visits).mapM loaded.mesh with
  | ok meshes =>
    rw [read] at unread
    cases unread
  | error cause =>
    rw [read] at unread
    obtain rfl := Except.error.inj unread
    obtain ⟨piece, -, here⟩ := exists_of_mapM_eq_error read
    obtain ⟨name, rfl⟩ := exists_noPositions_of_mesh_eq_error here
    exact ⟨name, rfl⟩

end Loaded

end SceneBaker.Gltf
