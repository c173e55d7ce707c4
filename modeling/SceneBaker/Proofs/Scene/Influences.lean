import SceneBaker.Proofs.Scene.Append

/-! # Influences in joined meshes

What moved the vertices of the first mesh still does, in the same order. A vertex of a mesh that was
appended keeps its influences too, but they follow the bones of both meshes: those of the bone that
is named first come first.
-/

namespace SceneBaker.Scene

open Number

variable {α : Type}

/-! ## Influences in the order of bones -/

/-- Influences by bone, in the order in which bones are named. Those of one bone keep their order,
and those of bones that are not named come last. -/
def byBone : List String → List (String × α) → List (String × α)
  | [], influences => influences
  | name :: names, influences => influences.filter (·.1 = name) ++
      byBone names (influences.filter (·.1 ≠ name))

theorem perm_byBone (names : List String) (influences : List (String × α)) :
    (byBone names influences).Perm influences := by
  induction names generalizing influences with
  | nil => exact .refl _
  | cons name names ih =>
    have rest := (ih (influences.filter (·.1 ≠ name))).append_left (influences.filter (·.1 = name))
    refine rest.trans ?_
    simpa using List.filter_append_perm (fun influence => decide (influence.1 = name)) influences

theorem byBone_nil (names : List String) : byBone names ([] : List (String × α)) = [] :=
  List.perm_nil.mp (perm_byBone names [])

/-- Names behind those of all influences do not matter. -/
theorem byBone_append {names : List String} {influences : List (String × α)}
    (named : ∀ influence ∈ influences, influence.1 ∈ names) (more : List String) :
    byBone (names ++ more) influences = byBone names influences := by
  induction names generalizing influences with
  | nil =>
    obtain rfl : influences = [] := List.eq_nil_iff_forall_not_mem.mpr
      fun influence member => List.not_mem_nil (named influence member)
    rw [byBone_nil, byBone_nil]
  | cons name names ih =>
    rw [List.cons_append, byBone, byBone, ih]
    intro influence member
    obtain ⟨among, other⟩ := List.mem_filter.mp member
    exact (List.mem_cons.mp (named influence among)).resolve_left (of_decide_eq_true other)

/-- Entries of one kind that are in front of all others stay in front. -/
theorem filter_append_filter {β : Type} {p : β → Prop} [DecidablePred p] {entries : List β}
    (front : entries.Pairwise fun first second => p second → p first) :
    entries.filter p ++ entries.filter (¬p ·) = entries := by
  induction entries with
  | nil => rfl
  | cons entry entries ih =>
    obtain ⟨first, later⟩ := List.pairwise_cons.mp front
    by_cases here : p entry
    · rw [List.filter_cons_of_pos (by simpa using here),
        List.filter_cons_of_neg (by simpa using here), List.cons_append, ih later]
    · have others : ∀ other ∈ entry :: entries, ¬p other :=
        List.forall_mem_cons.mpr ⟨here, fun other member kind => here (first other member kind)⟩
      rw [List.filter_eq_nil_iff.mpr (by simpa using others),
        List.filter_eq_self.mpr (by simpa using others), List.nil_append]

/-- Influences that follow the bones already keep their order. -/
theorem byBone_eq_self {names : List String} {influences : List (String × α)}
    (ordered : influences.Pairwise fun first second =>
      names.idxOf first.1 ≤ names.idxOf second.1) : byBone names influences = influences := by
  induction names generalizing influences with
  | nil => rfl
  | cons name names ih =>
    have rest : byBone names (influences.filter (·.1 ≠ name)) = influences.filter (·.1 ≠ name) := by
      refine ih ((ordered.filter _).imp_of_mem fun {first second} one other before => ?_)
      have different := of_decide_eq_true (List.mem_filter.mp one).2
      have others := of_decide_eq_true (List.mem_filter.mp other).2
      rw [List.idxOf_cons_ne _ (Ne.symm different), List.idxOf_cons_ne _ (Ne.symm others)] at before
      exact Nat.le_of_succ_le_succ before
    rw [byBone, rest]
    refine filter_append_filter (ordered.imp fun {first second} before same => ?_)
    rw [same, List.idxOf_cons_self, Nat.le_zero] at before
    by_contra different
    rw [List.idxOf_cons_ne _ (Ne.symm different)] at before
    exact Nat.succ_ne_zero _ before

/-! ## Bones that meet a vertex -/

theorem influencesAt_cons (bone : SourceBone α) (bones : List (SourceBone α)) (vertex : Nat) :
    influencesAt (bone :: bones) vertex =
      influencesAt [bone] vertex ++ influencesAt bones vertex := by
  simp [influencesAt]

theorem name_of_mem_influencesAt {bone : SourceBone α} {vertex : Nat} {influence : String × α}
    (member : influence ∈ influencesAt [bone] vertex) : influence.1 = bone.name := by
  simp only [influencesAt, List.flatMap_singleton, List.mem_map] at member
  obtain ⟨weight, -, rfl⟩ := member
  rfl

/-- Every influence is one of the first bone of its name. -/
def Gathered (vertex : Nat) : List (SourceBone α) → List (String × α) → Prop
  | [], influences => influences = []
  | bone :: bones, influences => influencesAt [bone] vertex = influences.filter (·.1 = bone.name) ∧
      Gathered vertex bones (influences.filter (·.1 ≠ bone.name))

namespace Gathered

variable {vertex : Nat} {bones : List (SourceBone α)} {influences : List (String × α)}

theorem influencesAt_eq (gathered : Gathered vertex bones influences) :
    influencesAt bones vertex = byBone (bones.map (·.name)) influences := by
  induction bones generalizing influences with
  | nil => exact gathered.symm
  | cons bone bones ih =>
    rw [influencesAt_cons, gathered.1, ih gathered.2]
    rfl

/-- Bones that do not meet a vertex gather nothing. -/
theorem of_influencesAt (none : influencesAt bones vertex = []) : Gathered vertex bones [] := by
  induction bones with
  | nil => rfl
  | cons bone bones ih =>
    rw [influencesAt_cons, List.append_eq_nil_iff] at none
    exact ⟨none.1, ih none.2⟩

/-- A bone adds what it does to a vertex behind what the bones before it did. -/
theorem addBone (gathered : Gathered vertex bones influences) (bone : SourceBone α) :
    Gathered vertex (SourceMesh.addBone bones bone) (influences ++ influencesAt [bone] vertex) := by
  have own : (influencesAt [bone] vertex).filter (·.1 = bone.name) = influencesAt [bone] vertex :=
    List.filter_eq_self.mpr fun influence member =>
      decide_eq_true (name_of_mem_influencesAt member)
  have foreign {name : String} (different : name ≠ bone.name) :
      (influencesAt [bone] vertex).filter (·.1 = name) = [] := by
    refine List.filter_eq_nil_iff.mpr fun influence member same => different ?_
    rw [← name_of_mem_influencesAt member, of_decide_eq_true same]
  have rest {name : String} (different : name ≠ bone.name) :
      (influencesAt [bone] vertex).filter (·.1 ≠ name) = influencesAt [bone] vertex := by
    refine List.filter_eq_self.mpr fun influence member => decide_eq_true ?_
    rw [name_of_mem_influencesAt member]
    exact different.symm
  have gone : (influencesAt [bone] vertex).filter (·.1 ≠ bone.name) = [] := by
    refine List.filter_eq_nil_iff.mpr fun influence member other => of_decide_eq_true other ?_
    exact name_of_mem_influencesAt member
  induction bones generalizing influences with
  | nil =>
    obtain rfl : influences = [] := gathered
    exact ⟨own.symm, gone⟩
  | cons first bones ih =>
    obtain ⟨here, later⟩ := gathered
    rw [SourceMesh.addBone]
    split
    case isTrue same =>
      have same : first.name = bone.name := by simpa using same
      refine ⟨?_, ?_⟩
      · rw [List.filter_append, same, own, ← same, ← here]
        simp [influencesAt, same]
      · rw [List.filter_append, same, gone, List.append_nil, ← same]
        exact later
    case isFalse other =>
      have different : first.name ≠ bone.name := by simpa using other
      refine ⟨?_, ?_⟩
      · rw [List.filter_append, foreign different, List.append_nil]
        exact here
      · rw [List.filter_append, rest different]
        exact ih later

theorem foldl_addBone (gathered : Gathered vertex bones influences) (more : List (SourceBone α)) :
    Gathered vertex (more.foldl SourceMesh.addBone bones)
      (influences ++ influencesAt more vertex) := by
  induction more generalizing bones influences with
  | nil => simpa [influencesAt] using gathered
  | cons bone more ih =>
    rw [List.foldl_cons, influencesAt_cons, ← List.append_assoc]
    exact ih (gathered.addBone bone)

end Gathered

/-- A bone that does not meet a vertex changes nothing for it, wherever its name puts it. -/
theorem influencesAt_foldl_addBone {more : List (SourceBone α)} {vertex : Nat}
    (none : influencesAt more vertex = []) (bones : List (SourceBone α)) :
    influencesAt (more.foldl SourceMesh.addBone bones) vertex = influencesAt bones vertex := by
  have one {bone : SourceBone α} (none : influencesAt [bone] vertex = [])
      (bones : List (SourceBone α)) :
      influencesAt (SourceMesh.addBone bones bone) vertex = influencesAt bones vertex := by
    induction bones with
    | nil => exact none
    | cons first bones ih =>
      rw [SourceMesh.addBone]
      split
      case isTrue =>
        rw [influencesAt_cons, influencesAt_cons first]
        refine congrArg (· ++ _) ?_
        simp only [influencesAt, List.flatMap_singleton, List.map_eq_nil_iff] at none ⊢
        rw [List.filter_append, none, List.append_nil]
      case isFalse => rw [influencesAt_cons, ih, ← influencesAt_cons]
  induction more generalizing bones with
  | nil => rfl
  | cons bone more ih =>
    rw [influencesAt_cons, List.append_eq_nil_iff] at none
    rw [List.foldl_cons, ih none.2, one none.1]

/-! ## Appended meshes -/

section

variable {mesh other : SourceMesh α} {vertex : Nat}

/-- Without a wrap, vertices move by the number of those before them. -/
theorem toNat_add_ofNat {vertex : UInt32} {first second : Nat} (inside : vertex.toNat < second)
    (few : first + second ≤ 2 ^ 32) :
    (vertex + UInt32.ofNat first).toNat = first + vertex.toNat := by
  rw [UInt32.toNat_add, UInt32.toNat_ofNat_of_lt' (by change _ < 2 ^ 32; omega),
    Nat.mod_eq_of_lt (by omega), Nat.add_comm]

theorem influencesAt_eq_nil (weighted : mesh.Weighted) (outside : mesh.positions.size ≤ vertex) :
    influencesAt mesh.bones vertex = [] := by
  rw [influencesAt_eq, List.map_eq_nil_iff, List.filter_eq_nil_iff]
  intro entry member here
  have inside := SourceMesh.weighted_iff.mp weighted entry member
  rw [of_decide_eq_true here] at inside
  exact absurd inside (Nat.not_lt.mpr outside)

/-- Bones moved behind other vertices meet these where they met theirs. -/
theorem influencesAt_movedBones (weighted : other.Weighted) {first : Nat}
    (few : first + other.positions.size ≤ 2 ^ 32) (vertex : Nat) :
    influencesAt (SourceMesh.movedBones other.bones (UInt32.ofNat first)) vertex =
      if first ≤ vertex then influencesAt other.bones (vertex - first) else [] := by
  rw [influencesAt_eq, SourceMesh.weightsOf_movedBones, List.filter_map, List.map_map]
  have moved (entry : String × VertexWeight α) (member : entry ∈ weightsOf other.bones) :
      (entry.2.vertex + UInt32.ofNat first).toNat = first + entry.2.vertex.toNat :=
    toNat_add_ofNat (SourceMesh.weighted_iff.mp weighted entry member) few
  split
  case isTrue late =>
    rw [influencesAt_eq]
    refine congrArg _ (List.filter_congr fun entry member => ?_)
    rw [Function.comp_apply, moved entry member, decide_eq_decide]
    omega
  case isFalse early =>
    rw [List.map_eq_nil_iff, List.filter_eq_nil_iff]
    intro entry member
    rw [Function.comp_apply, moved entry member, decide_eq_true_iff]
    omega

/-- A vertex that was there keeps its influences. -/
theorem influencesAt_append_left (weighted : other.Weighted)
    (few : mesh.positions.size + other.positions.size ≤ 2 ^ 32)
    (inside : vertex < mesh.positions.size) :
    influencesAt (mesh.append other).bones vertex = influencesAt mesh.bones vertex := by
  rw [SourceMesh.bones_append]
  refine influencesAt_foldl_addBone ?_ _
  rw [influencesAt_movedBones weighted few, if_neg (Nat.not_le.mpr inside)]

/-- The influences of a vertex that was moved behind others follow the bones of both meshes. -/
theorem influencesAt_append_right (weighted : mesh.Weighted) (moving : other.Weighted)
    (few : mesh.positions.size + other.positions.size ≤ 2 ^ 32) (vertex : Nat) :
    Gathered (mesh.positions.size + vertex) (mesh.append other).bones
      (influencesAt other.bones vertex) := by
  have none := influencesAt_eq_nil weighted (Nat.le_add_right mesh.positions.size vertex)
  have gathered := (Gathered.of_influencesAt none).foldl_addBone
    (SourceMesh.movedBones other.bones (UInt32.ofNat mesh.positions.size))
  rw [influencesAt_movedBones moving few, if_pos (Nat.le_add_right ..), Nat.add_sub_cancel_left,
    List.nil_append] at gathered
  rw [SourceMesh.bones_append]
  exact gathered

theorem perm_influencesAt_append_right (weighted : mesh.Weighted) (moving : other.Weighted)
    (few : mesh.positions.size + other.positions.size ≤ 2 ^ 32) (vertex : Nat) :
    (influencesAt (mesh.append other).bones (mesh.positions.size + vertex)).Perm
      (influencesAt other.bones vertex) := by
  rw [(influencesAt_append_right weighted moving few vertex).influencesAt_eq]
  exact perm_byBone _ _

end

/-- The bones of a mesh stay in front when another one is appended. -/
theorem names_append_prefix (mesh other : SourceMesh α) :
    mesh.bones.map (·.name) <+: (mesh.append other).bones.map (·.name) := by
  have one (bones : List (SourceBone α)) (bone : SourceBone α) :
      bones.map (·.name) <+: (SourceMesh.addBone bones bone).map (·.name) := by
    induction bones with
    | nil => exact List.nil_prefix
    | cons first bones ih =>
      rw [SourceMesh.addBone]
      split
      case isTrue => exact List.prefix_rfl
      case isFalse => exact (List.prefix_cons_inj _).mpr ih
  rw [SourceMesh.bones_append]
  generalize SourceMesh.movedBones other.bones _ = more
  generalize mesh.bones = bones
  induction more generalizing bones with
  | nil => exact List.prefix_rfl
  | cons bone more ih => exact (one bones bone).trans (ih _)

end SceneBaker.Scene
