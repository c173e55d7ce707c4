import SceneBaker.Build.Mesh
import SceneBaker.Proofs.Build.Skeleton
import SceneBaker.Proofs.Steps

/-! # Collected influences

A vertex collects the first four of its influences, in the order in which the bones of its mesh and
their weights name it. Collecting fails at the first bone that is unknown or weight of a vertex that
the mesh does not have.
-/

namespace SceneBaker.Scene

variable {α : Type}

/-- What moves a vertex, by bone name, in the order of bones and weights. -/
def influencesAt (bones : List (SourceBone α)) (vertex : Nat) : List (String × α) :=
  bones.flatMap fun bone =>
    (bone.weights.filter (·.vertex.toNat = vertex)).map fun weight => (bone.name, weight.weight)

/-- Every weight is one of a vertex that the mesh has. -/
def SourceMesh.Weighted (mesh : SourceMesh α) : Prop :=
  ∀ bone ∈ mesh.bones, ∀ weight ∈ bone.weights, weight.vertex.toNat < mesh.positions.size

end SceneBaker.Scene

namespace SceneBaker.Build

open Number SceneBaker.Geometry Mesh Scene Steps

/-- An influence with the index of its bone. -/
def Skeleton.indexed (skeleton : Skeleton) (influence : String × Single) : UInt32 × Single :=
  ((skeleton.indexOf? influence.1).getD 0, influence.2)

/-- Every vertex holds as many as it can of all its influences so far. -/
def Holds (collected : Array Influences) (count : Nat) (all : Nat → Influences) : Prop :=
  collected.size = count ∧
    ∀ vertex < count, collected[vertex]? = some ((all vertex).take maxInfluences)

/-- There is room for an influence as long as fewer have been met. -/
theorem Influences.add_take (all : Influences) (influence : UInt32 × Single) :
    Influences.add (all.take maxInfluences) influence =
      (all ++ [influence]).take maxInfluences := by
  rw [Influences.add, List.length_take, List.take_append]
  split
  case isTrue room =>
    have few : List.length all < maxInfluences := by omega
    rw [List.take_of_length_le (Nat.le_of_lt few), List.take_of_length_le (Nat.sub_pos_of_lt few)]
  case isFalse full =>
    have many : maxInfluences - List.length all = 0 := by omega
    rw [many, List.take_zero, List.append_nil]

theorem Holds.modify {collected : Array Influences} {count : Nat} {all : Nat → Influences}
    (holds : Holds collected count all) (vertex : Nat) (influence : UInt32 × Single) :
    Holds (collected.modify vertex (·.add influence)) count fun other =>
      all other ++ if vertex = other then [influence] else [] := by
  refine ⟨(Array.size_modify ..).trans holds.1, fun other inside => ?_⟩
  rw [Array.getElem?_modify, holds.2 other inside]
  split
  case isTrue here => simp only [here, if_true, Option.map_some, Influences.add_take]
  case isFalse elsewhere => simp only [elsewhere, if_false, List.append_nil]

variable {mesh : SourceMesh Single} {skeleton : Skeleton}

/-- Collect one weight of the bone with an index. -/
def addWeight (mesh : SourceMesh Single) (index : UInt32) (influences : Array Influences)
    (weight : VertexWeight Single) : Except ConversionError (Array Influences) :=
  if weight.vertex.toNat < influences.size then
    .ok (influences.modify weight.vertex.toNat (·.add (index, weight.weight)))
  else .error (.vertexOutOfRange mesh.name weight.vertex mesh.positions.size)

/-- Collect the weights of one bone. -/
def addWeights (mesh : SourceMesh Single) (skeleton : Skeleton) (influences : Array Influences)
    (bone : SourceBone Single) : Except ConversionError (Array Influences) :=
  match skeleton.indexOf? bone.name with
  | none => .error (.unknownBone mesh.name bone.name)
  | some index => bone.weights.foldlM (addWeight mesh index) influences

theorem collectInfluences_eq (mesh : SourceMesh Single) (skeleton : Skeleton) :
    collectInfluences mesh skeleton =
      mesh.bones.foldlM (addWeights mesh skeleton) (Array.replicate mesh.positions.size []) := rfl

/-! ## Offences -/

/-- What is wrong with a weight: its vertex may not be there. -/
def weightOffence? (mesh : SourceMesh Single) (weight : VertexWeight Single) :
    Option ConversionError :=
  if weight.vertex.toNat < mesh.positions.size then none
  else some (.vertexOutOfRange mesh.name weight.vertex mesh.positions.size)

/-- What is wrong with a bone, and then with its weights. -/
def boneOffences (mesh : SourceMesh Single) (skeleton : Skeleton) (bone : SourceBone Single) :
    List ConversionError :=
  (if bone.name ∈ skeleton.names then [] else [.unknownBone mesh.name bone.name]) ++
    bone.weights.filterMap (weightOffence? mesh)

/-- All that is wrong with the bones of a mesh, in the order in which bones and weights stand. -/
def offences (mesh : SourceMesh Single) (skeleton : Skeleton) : List ConversionError :=
  mesh.bones.flatMap (boneOffences mesh skeleton)

theorem mem_offences_iff {cause : ConversionError} : cause ∈ offences mesh skeleton ↔
    (∃ bone ∈ mesh.bones, bone.name ∉ skeleton.names ∧
      cause = .unknownBone mesh.name bone.name) ∨
    ∃ bone ∈ mesh.bones, ∃ weight ∈ bone.weights, ¬weight.vertex.toNat < mesh.positions.size ∧
      cause = .vertexOutOfRange mesh.name weight.vertex mesh.positions.size := by
  have weights (bone : SourceBone Single) :
      cause ∈ bone.weights.filterMap (weightOffence? mesh) ↔
        ∃ weight ∈ bone.weights, ¬weight.vertex.toNat < mesh.positions.size ∧
          cause = .vertexOutOfRange mesh.name weight.vertex mesh.positions.size := by
    simp [weightOffence?, eq_comm (a := cause)]
  simp only [offences, boneOffences, List.mem_flatMap, List.mem_append, weights, and_or_left,
    exists_or, List.mem_ite_nil_left, List.mem_singleton]

theorem offences_eq_nil_iff : offences mesh skeleton = [] ↔
    (∀ bone ∈ mesh.bones, bone.name ∈ skeleton.names) ∧ mesh.Weighted := by
  simp only [List.eq_nil_iff_forall_not_mem, mem_offences_iff]
  constructor
  · intro clean
    constructor
    · intro bone member
      by_contra unknown
      exact clean _ (.inl ⟨bone, member, unknown, rfl⟩)
    · intro bone member weight among
      by_contra outside
      exact clean _ (.inr ⟨bone, member, weight, among, outside, rfl⟩)
  · rintro ⟨known, weighted⟩ cause (⟨bone, member, unknown, -⟩ | ⟨bone, member, weight, among, outside, -⟩)
    · exact unknown (known bone member)
    · exact outside (weighted bone member weight among)

/-! ## Collecting -/

variable (mesh) in
/-- The weights of a bone are collected, or the first of a vertex that is not there is refused. -/
theorem foldlM_addWeight {collected : Array Influences} {all : Nat → Influences}
    (holds : Holds collected mesh.positions.size all) (index : UInt32)
    (weights : List (VertexWeight Single)) :
    (weights.filterMap (weightOffence? mesh) = [] ∧
      ∃ final, weights.foldlM (addWeight mesh index) collected = .ok final ∧
        Holds final mesh.positions.size fun vertex => all vertex ++
          (weights.filter (·.vertex.toNat = vertex)).map fun weight => (index, weight.weight)) ∨
    ∃ cause others, weights.filterMap (weightOffence? mesh) = cause :: others ∧
      weights.foldlM (addWeight mesh index) collected = .error cause := by
  induction weights generalizing collected all with
  | nil => exact .inl ⟨rfl, collected, rfl, by simpa using holds⟩
  | cons weight weights ih =>
    rw [List.foldlM_cons, addWeight, holds.1]
    by_cases inside : weight.vertex.toNat < mesh.positions.size
    · have fine : weightOffence? mesh weight = none := if_pos inside
      rw [if_pos inside, List.filterMap_cons_none fine]
      rcases ih (holds.modify weight.vertex.toNat (index, weight.weight)) with
        ⟨clean, final, success, held⟩ | failed
      · refine .inl ⟨clean, final, success, ?_⟩
        convert held using 2 with vertex
        rw [List.append_assoc, List.filter_cons]
        split <;> simp_all
      · exact .inr failed
    · have wrong : weightOffence? mesh weight =
          some (.vertexOutOfRange mesh.name weight.vertex mesh.positions.size) := if_neg inside
      rw [if_neg inside]
      exact .inr ⟨_, _, List.filterMap_cons_some wrong, rfl⟩

variable (mesh skeleton) in
/-- The weights of all bones are collected, or the first bone or weight that is wrong is refused. -/
theorem foldlM_addWeights {collected : Array Influences} {all : Nat → Influences}
    (holds : Holds collected mesh.positions.size all) (bones : List (SourceBone Single)) :
    (bones.flatMap (boneOffences mesh skeleton) = [] ∧
      ∃ final, bones.foldlM (addWeights mesh skeleton) collected = .ok final ∧
        Holds final mesh.positions.size fun vertex => all vertex ++
          (influencesAt bones vertex).map skeleton.indexed) ∨
    ∃ cause others, bones.flatMap (boneOffences mesh skeleton) = cause :: others ∧
      bones.foldlM (addWeights mesh skeleton) collected = .error cause := by
  induction bones generalizing collected all with
  | nil => exact .inl ⟨rfl, collected, rfl, by simpa [influencesAt] using holds⟩
  | cons bone bones ih =>
    rw [List.foldlM_cons, addWeights, List.flatMap_cons, boneOffences]
    cases known : skeleton.indexOf? bone.name with
    | none =>
      have unnamed : bone.name ∉ skeleton.names := by
        rw [← skeleton.isSome_indexOf?, known]
        exact Bool.false_ne_true
      rw [if_neg unnamed]
      exact .inr ⟨_, _, rfl, rfl⟩
    | some index =>
      have named : bone.name ∈ skeleton.names := by
        rw [← skeleton.isSome_indexOf?, known]
        rfl
      rw [if_pos named, List.nil_append]
      rcases foldlM_addWeight mesh holds index bone.weights with
        ⟨clean, next, success, held⟩ | ⟨cause, others, listed, failed⟩
      · dsimp only
        rw [clean, List.nil_append, success]
        rcases ih held with ⟨fine, final, succeeds, held⟩ | failed
        · refine .inl ⟨fine, final, succeeds, ?_⟩
          convert held using 2 with vertex
          simp [influencesAt, Skeleton.indexed, known, Function.comp_def]
        · exact .inr failed
      · dsimp only
        rw [listed, failed]
        exact .inr ⟨cause, _, rfl, rfl⟩

/-- What collecting the influences of a mesh comes to. -/
theorem collectInfluences_cases (mesh : SourceMesh Single) (skeleton : Skeleton) :
    (offences mesh skeleton = [] ∧ ∃ collected, collectInfluences mesh skeleton = .ok collected ∧
      Holds collected mesh.positions.size fun vertex =>
        (influencesAt mesh.bones vertex).map skeleton.indexed) ∨
    ∃ cause others, offences mesh skeleton = cause :: others ∧
      collectInfluences mesh skeleton = .error cause := by
  have start : Holds (Array.replicate mesh.positions.size []) mesh.positions.size fun _ => [] := by
    refine ⟨Array.size_replicate, fun vertex inside => ?_⟩
    simp [inside]
  have outcome := foldlM_addWeights mesh skeleton start mesh.bones
  simp only [List.nil_append] at outcome
  rw [collectInfluences_eq]
  exact outcome

/-! ## Slots -/

/-- The four slots of a vertex with some influences. -/
def Influences.filled (influences : Influences) : List (UInt32 × Single) :=
  (slots (influences.map (·.1)) 0).toList.zip (slots (influences.map (·.2)) 0).toList

/-- Slots are filled from the front, and those behind the influences are empty. -/
theorem Influences.filled_take (influences : Influences) :
    Influences.filled (influences.take maxInfluences) =
      (influences ++ List.replicate maxInfluences (0, 0)).take maxInfluences := by
  match influences with
  | [] | [_] | [_, _] | [_, _, _] | _ :: _ :: _ :: _ :: _ => rfl

/-- Every vertex gets the first four of its influences, in the order in which the bones of its mesh
and their weights name it, and empty slots for what is missing. With an unknown bone or a weight of a
vertex that is not there, what is refused is the first of these. -/
theorem collectInfluences_firstFour (mesh : SourceMesh Single) (skeleton : Skeleton) :
    ((∀ bone ∈ mesh.bones, bone.name ∈ skeleton.names) → mesh.Weighted →
      ∃ collected, collectInfluences mesh skeleton = .ok collected ∧
        collected.size = mesh.positions.size ∧
        ∀ vertex (inside : vertex < collected.size), collected[vertex].filled =
          ((influencesAt mesh.bones vertex).map skeleton.indexed ++
            List.replicate maxInfluences (0, 0)).take maxInfluences) ∧
    (¬((∀ bone ∈ mesh.bones, bone.name ∈ skeleton.names) ∧ mesh.Weighted) →
      ∃ cause, (offences mesh skeleton).head? = some cause ∧
        collectInfluences mesh skeleton = .error cause) := by
  rw [← offences_eq_nil_iff]
  rcases collectInfluences_cases mesh skeleton with
    ⟨clean, collected, success, size, held⟩ | ⟨cause, others, listed, failed⟩
  · refine ⟨fun _ _ => ⟨collected, success, size, fun vertex inside => ?_⟩,
      fun wrong => absurd clean wrong⟩
    have own := held vertex (size ▸ inside)
    rw [Array.getElem?_eq_getElem inside, Option.some_inj] at own
    rw [own, Influences.filled_take]
  · refine ⟨fun known weighted => ?_, fun _ => ⟨cause, ?_, failed⟩⟩
    · rw [offences_eq_nil_iff.mpr ⟨known, weighted⟩] at listed
      cases listed
    · rw [listed, List.head?_cons]

/-- A paw whose first vertex has more influences than slots, from a bone that comes twice. -/
def paw : SourceMesh Single where
  name := "paw"
  positions := #[0, 0, 0]
  bones := [⟨"toe", 1, [⟨0, 1⟩, ⟨1, 1⟩, ⟨0, -1⟩]⟩, ⟨"ankle", 1, [⟨0, 1⟩]⟩, ⟨"toe", 1, [⟨0, 0⟩]⟩,
    ⟨"ankle", 1, [⟨1, 1⟩, ⟨0, -1⟩]⟩]

/-- The paw with a weight that is out of place, in front of a bone that is. -/
def brokenPaw : SourceMesh Single :=
  { paw with bones := paw.bones ++ [⟨"ankle", 1, [⟨2, 1⟩, ⟨3, 1⟩]⟩, ⟨"claw", 1, [⟨4, 1⟩]⟩] }

theorem collectInfluences_firstFour_paw :
    let leg : Skeleton := ⟨[⟨"ankle", 0, 1⟩, ⟨"toe", 1, 1⟩]⟩
    (∀ bone ∈ paw.bones, bone.name ∈ leg.names) ∧ paw.Weighted ∧
    (∃ collected, collectInfluences paw leg = .ok collected ∧
      collected.map Influences.filled = (#[[(1, 1), (1, -1), (0, 1), (1, 0)],
        [(1, 1), (0, 1), (0, 0), (0, 0)], [(0, 0), (0, 0), (0, 0), (0, 0)]] : Array Influences)) ∧
    ¬((∀ bone ∈ brokenPaw.bones, bone.name ∈ leg.names) ∧ brokenPaw.Weighted) ∧
    collectInfluences brokenPaw leg = .error (.vertexOutOfRange "paw" 3 3) := by
  intro leg
  have known : ∀ bone ∈ paw.bones, bone.name ∈ leg.names := by decide
  have weighted : paw.Weighted := by
    unfold SourceMesh.Weighted
    decide
  have broken : ¬((∀ bone ∈ brokenPaw.bones, bone.name ∈ leg.names) ∧ brokenPaw.Weighted) := by
    unfold SourceMesh.Weighted
    decide
  obtain ⟨collected, success, size, slots⟩ := (collectInfluences_firstFour paw leg).1 known weighted
  obtain ⟨cause, first, failed⟩ := (collectInfluences_firstFour brokenPaw leg).2 broken
  refine ⟨known, weighted, ⟨collected, success, ?_⟩, broken, ?_⟩
  · refine Array.ext ((Array.size_map ..).trans size) fun vertex inside below => ?_
    rw [Array.getElem_map, slots]
    match vertex, below with
    | 0, _ | 1, _ | 2, _ => rfl
  · obtain rfl : ConversionError.vertexOutOfRange "paw" 3 3 = cause :=
      Option.some_inj.mp ((by decide : _ = (offences brokenPaw leg).head?).trans first)
    exact failed

end SceneBaker.Build
