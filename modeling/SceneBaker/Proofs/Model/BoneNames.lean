import SceneBaker.Proofs.Model.Indices

/-! # Names of bones

A bone is named after the bone node with its index. As no two nodes share an index, the order in
which the nodes are met does not matter.
-/

set_option linter.dupNamespace false

namespace SceneBaker.Model

/-- A bone as it is stored. -/
def Bone.unnamed (bone : Bone) : Bone := { bone with name := "" }

namespace Model

/-- The name that the bone nodes of a list give to an index, the last of them deciding. -/
def lastName (nodes : List Node) (index : UInt32) (name : String) : String :=
  nodes.foldl (fun name node => if node.isBone ∧ node.index = index then node.name else name) name

/-- Every bone has the name of the bone nodes with its index, and none without such a node. -/
def Named (model : Model) : Prop :=
  ∀ bone ∈ model.skeleton,
    (∀ node ∈ model.nodes.nodes.toList, node.isBone = true → node.index = bone.index →
      node.name = bone.name) ∧
    ((∀ node ∈ model.nodes.nodes.toList, node.isBone = true → node.index ≠ bone.index) →
      bone.name = "")

theorem nameBone_eq_map {bones : List Bone} (distinct : (bones.map (·.index)).Nodup)
    (index : UInt32) (name : String) :
    nameBone index name bones =
      bones.map fun bone => if bone.index = index then { bone with name } else bone := by
  induction bones with
  | nil => rfl
  | cons bone bones ih =>
    simp only [List.map_cons, List.nodup_cons] at distinct
    obtain ⟨new, distinct⟩ := distinct
    rw [nameBone, List.map_cons]
    split
    case isTrue named =>
      have others : ∀ other ∈ bones, other.index ≠ index := by
        intro other member same
        exact new (named ▸ same ▸ List.mem_map_of_mem member)
      rw [List.map_congr_left fun other member => if_neg (others other member), List.map_id']
    case isFalse other => rw [ih distinct]

/-- Naming the bones after a list of nodes gives each of them its last name. -/
theorem foldl_nameBone {bones : List Bone} (distinct : (bones.map (·.index)).Nodup)
    (nodes : List Node) :
    nodes.foldl
        (fun bones node => if node.isBone then nameBone node.index node.name bones else bones)
        bones =
      bones.map fun bone => { bone with name := lastName nodes bone.index bone.name } := by
  induction nodes generalizing bones with
  | nil => exact (List.map_id _).symm
  | cons node nodes ih =>
    rw [List.foldl_cons]
    by_cases flagged : node.isBone = true
    · rw [if_pos flagged, nameBone_eq_map distinct, ih, List.map_map]
      · refine List.map_congr_left fun bone _ => ?_
        by_cases same : bone.index = node.index
        · simp [lastName, flagged, same]
        · simp [lastName, flagged, same, Ne.symm same]
      · rw [List.map_map]
        convert distinct using 2
        funext bone
        simp only [Function.comp_apply]
        split <;> rfl
    · rw [if_neg flagged, ih distinct]
      simp [lastName, flagged]

/-- A name that all bone nodes with an index agree on is the one that the index gets. -/
theorem lastName_eq {nodes : List Node} {index : UInt32} {start name : String}
    (agree : ∀ node ∈ nodes, node.isBone = true → node.index = index → node.name = name)
    (none : (∀ node ∈ nodes, node.isBone = true → node.index ≠ index) → start = name) :
    lastName nodes index start = name := by
  induction nodes generalizing start with
  | nil => exact none (by simp)
  | cons node nodes ih =>
    rw [lastName, List.foldl_cons]
    refine ih (fun other member => agree other (List.mem_cons_of_mem _ member)) fun others => ?_
    split
    case isTrue named => exact agree node List.mem_cons_self named.1 named.2
    case isFalse unnamed =>
      refine none (List.forall_mem_cons.mpr ⟨fun flagged same => unnamed ⟨flagged, same⟩, others⟩)

private theorem exists_of_perm_bare {nodes others : List Node}
    (perm : (nodes.map Node.bare).Perm (others.map Node.bare)) {node : Node} (among : node ∈ nodes) :
    ∃ other ∈ others, other.name = node.name ∧ other.index = node.index ∧
      other.isBone = node.isBone := by
  obtain ⟨other, listed, same⟩ := List.mem_map.mp (perm.subset (List.mem_map_of_mem among))
  simp only [Node.bare, Node.mk.injEq] at same
  exact ⟨other, listed, same.1, same.2.1, same.2.2.1⟩

/-- Bones that are stored get their names back from the same nodes in any order. -/
theorem Named.nameBones_eq {model stored : Model} (named : model.Named) (indexed : model.Indexed)
    (bones : stored.skeleton = model.skeleton.map Bone.unnamed)
    (nodes : (stored.nodes.nodes.toList.map Node.bare).Perm
      (model.nodes.nodes.toList.map Node.bare)) :
    stored.nameBones = { stored with skeleton := model.skeleton } := by
  have distinct : (stored.skeleton.map (·.index)).Nodup := by
    rw [bones, List.map_map]
    exact indexed.distinctBones
  rw [nameBones, foldl_nameBone distinct, bones, List.map_map]
  congr 1
  conv_rhs => rw [← List.map_id model.skeleton]
  refine List.map_congr_left fun bone member => ?_
  obtain ⟨agree, none⟩ := named bone member
  have name : lastName stored.nodes.nodes.toList bone.index "" = bone.name := by
    refine lastName_eq (fun node among flagged same => ?_) fun without => ?_
    · obtain ⟨other, listed, name, index, flag⟩ := exists_of_perm_bare nodes among
      exact name ▸ agree other listed (flag ▸ flagged) (index ▸ same)
    · refine (none fun node among flagged same => ?_).symm
      obtain ⟨other, listed, -, index, flag⟩ := exists_of_perm_bare nodes.symm among
      exact without other listed (flag ▸ flagged) (index ▸ same)
  simp only [Function.comp_apply, Bone.unnamed, name, id]

/-- After naming, the bones have the names of their nodes. -/
theorem Indexed.named_nameBones {model : Model} (indexed : model.Indexed)
    (unnamed : ∀ bone ∈ model.skeleton, bone.name = "") : model.nameBones.Named := by
  rw [Named, nameBones, foldl_nameBone indexed.distinctBones]
  intro bone member
  obtain ⟨old, among, rfl⟩ := List.mem_map.mp member
  refine ⟨fun node listed flagged same => (lastName_eq ?_ ?_).symm, fun without => ?_⟩
  · intro other named _ shared
    have := List.inj_on_of_nodup_map indexed.distinctNodes named listed (shared.trans same.symm)
    rw [this]
  · exact fun without => absurd same (without node listed flagged)
  · exact lastName_eq (fun node listed flagged same => absurd same (without node listed flagged))
      fun _ => unnamed old among

end Model
end SceneBaker.Model
