import SceneBaker.Proofs.Build.Skeleton
import SceneBaker.Proofs.Model.Indices
import SceneBaker.Proofs.Steps

/-! # Numbered nodes

A walk over the nodes of a scene gives every node named after a bone the bone's index and counts the
others. It ends with a node list if the bones that it meets are distinct and are all that there are.
Otherwise it ends at the first node that repeats a bone, or at the end with a bone that was not met.
-/

namespace SceneBaker.Build

open Number SceneBaker.Geometry Model Scene Steps

/-- A node before it has its number. -/
def unnumbered (source : SourceNode Single) : Node where
  name := source.name
  transform := DualQuat.ofMatrix source.transform
  meshes := source.meshes.map UInt32.ofNat

/-- The nodes of a list with their numbers, `next` being that of the next node that is no bone. -/
def numbered (skeleton : Skeleton) (next : UInt32) : List (SourceNode Single) → List Node
  | [] => []
  | source :: rest =>
    match skeleton.indexOf? source.name with
    | some bone => { unnumbered source with index := bone, isBone := true } ::
        numbered skeleton next rest
    | none => { unnumbered source with index := next } :: numbered skeleton (next + 1) rest

/-- The bones that the nodes of a list are named after. -/
def claims (skeleton : Skeleton) (sources : List (SourceNode Single)) : List UInt32 :=
  sources.filterMap fun source => skeleton.indexOf? source.name

/-- Bones that are distinct and not claimed before. -/
def Apart (claimed bones : List UInt32) : Prop := bones.Nodup ∧ ∀ bone ∈ bones, bone ∉ claimed

theorem apart_cons {claimed bones : List UInt32} {bone : UInt32} :
    Apart claimed (bone :: bones) ↔ bone ∉ claimed ∧ Apart (bone :: claimed) bones :=
  nodup_and_forall_cons fun _ => List.mem_cons

section

variable {skeleton : Skeleton} {claimed : List UInt32} {next : UInt32} {source : SourceNode Single}
  {rest : List (SourceNode Single)}

theorem claims_of_bone {bone : UInt32} (named : skeleton.indexOf? source.name = some bone) :
    claims skeleton (source :: rest) = bone :: claims skeleton rest := by
  rw [claims, List.filterMap_cons, named]
  rfl

theorem claims_of_none (unnamed : skeleton.indexOf? source.name = none) :
    claims skeleton (source :: rest) = claims skeleton rest := by
  rw [claims, List.filterMap_cons, unnamed]
  rfl

theorem numberNodes_of_bone {bone : UInt32} (named : skeleton.indexOf? source.name = some bone) :
    numberNodes skeleton claimed next (source :: rest) =
      if bone ∈ claimed then .error (.duplicateBoneNode source.name)
      else (numberNodes skeleton (bone :: claimed) next rest).map
        ({ unnumbered source with index := bone, isBone := true } :: ·) := by
  simp only [numberNodes, named, List.contains_iff_mem]
  rfl

theorem numberNodes_of_none (unnamed : skeleton.indexOf? source.name = none) :
    numberNodes skeleton claimed next (source :: rest) =
      (numberNodes skeleton claimed (next + 1) rest).map
        ({ unnumbered source with index := next } :: ·) := by
  simp only [numberNodes, unnamed]
  rfl

end

/-- Some bone of a list has a position as its index. -/
def Covers (bones : List UInt32) (position : Nat) : Prop := ∃ bone ∈ bones, bone.toNat = position

theorem covers_nil (position : Nat) : ¬Covers [] position := by
  simp [Covers]

/-- Claiming a bone first or last covers the same positions. -/
theorem covers_cons_or {claimed bones : List UInt32} {bone : UInt32} {position : Nat} :
    (Covers (bone :: claimed) position ∨ Covers bones position) ↔
      (Covers claimed position ∨ Covers (bone :: bones) position) := by
  simp only [Covers, List.exists_mem_cons_iff, or_assoc, or_left_comm]

private theorem any_eq_true_iff {claimed : List UInt32} {position : Nat} :
    claimed.any (·.toNat == position) = true ↔ Covers claimed position := by
  simp [Covers]

/-- Numbering succeeds if the nodes claim every position that is left and no bone twice. -/
theorem numberNodes_eq_ok_iff {skeleton : Skeleton} {claimed : List UInt32} {next : UInt32}
    {sources : List (SourceNode Single)} {nodes : List Node} :
    numberNodes skeleton claimed next sources = .ok nodes ↔
      Apart claimed (claims skeleton sources) ∧
      (∀ position < skeleton.size,
        Covers claimed position ∨ Covers (claims skeleton sources) position) ∧
      numbered skeleton next sources = nodes := by
  induction sources generalizing claimed next nodes with
  | nil =>
    have all : (∀ position < skeleton.size,
          Covers claimed position ∨ Covers (claims skeleton []) position) ↔
        (skeleton.bones.zipIdx.find? fun entry => !claimed.any (·.toNat == entry.2)) = none := by
      simp only [claims, List.filterMap_nil, covers_nil, or_false, List.find?_eq_none,
        Bool.not_eq_true', Bool.not_eq_false, any_eq_true_iff]
      constructor
      · intro all entry member
        exact all entry.2 (List.snd_lt_of_mem_zipIdx member)
      · intro all position inside
        exact all (skeleton.bones[position], position)
          (List.mem_zipIdx_iff_getElem?.mpr (List.getElem?_eq_getElem inside))
    rw [numberNodes, all]
    cases skeleton.bones.zipIdx.find? fun entry => !claimed.any (·.toNat == entry.2) with
    | none => simp [Apart, claims, numbered]
    | some entry => simp
  | cons source rest ih =>
    cases named : skeleton.indexOf? source.name with
    | none =>
      rw [numberNodes_of_none named, claims_of_none named, map_eq_ok_iff]
      simp only [ih, numbered, named]
      constructor
      · rintro ⟨others, ⟨apart, all, rfl⟩, rfl⟩
        exact ⟨apart, all, rfl⟩
      · rintro ⟨apart, all, rfl⟩
        exact ⟨_, ⟨apart, all, rfl⟩, rfl⟩
    | some bone =>
      rw [numberNodes_of_bone named, claims_of_bone named, apart_cons]
      split
      case isTrue taken => simp [taken]
      case isFalse free =>
        simp only [map_eq_ok_iff, ih, numbered, named, covers_cons_or]
        constructor
        · rintro ⟨others, ⟨apart, all, rfl⟩, rfl⟩
          exact ⟨⟨free, apart⟩, all, rfl⟩
        · rintro ⟨⟨-, apart⟩, all, rfl⟩
          exact ⟨_, ⟨apart, all, rfl⟩, rfl⟩

/-- Numbering fails at the first node whose bone is claimed already, or else for the bone at the first
position that no node claims. -/
theorem of_numberNodes_eq_error {skeleton : Skeleton} {claimed : List UInt32} {next : UInt32}
    {sources : List (SourceNode Single)} {cause : ConversionError}
    (failed : numberNodes skeleton claimed next sources = .error cause) :
    (∃ before source after bone, sources = before ++ source :: after ∧
      skeleton.indexOf? source.name = some bone ∧ Apart claimed (claims skeleton before) ∧
      (bone ∈ claimed ∨ bone ∈ claims skeleton before) ∧
      cause = .duplicateBoneNode source.name) ∨
    (Apart claimed (claims skeleton sources) ∧
      ∃ bone position, (skeleton.bones.zipIdx.find? fun entry =>
          !(claimed ++ claims skeleton sources).any (·.toNat == entry.2)) = some (bone, position) ∧
        cause = .boneWithoutNode bone.name) := by
  induction sources generalizing claimed next with
  | nil =>
    refine .inr ⟨by simp [Apart, claims], ?_⟩
    rw [numberNodes] at failed
    split at failed
    case h_1 bone position left =>
      cases failed
      exact ⟨bone, position, by simpa [claims] using left, rfl⟩
    case h_2 => cases failed
  | cons source rest ih =>
    cases named : skeleton.indexOf? source.name with
    | none =>
      rw [numberNodes_of_none named, map_eq_error_iff] at failed
      rcases ih failed with ⟨before, other, after, bone, rfl, known, apart, taken, same⟩ | missing
      · refine .inl ⟨source :: before, other, after, bone, rfl, known, ?_⟩
        rw [claims_of_none named]
        exact ⟨apart, taken, same⟩
      · rw [claims_of_none named]
        exact .inr missing
    | some own =>
      rw [numberNodes_of_bone named] at failed
      split at failed
      case isTrue taken =>
        cases failed
        exact .inl ⟨[], source, rest, own, rfl, named, by simp [Apart, claims], .inl taken, rfl⟩
      case isFalse free =>
        rw [map_eq_error_iff] at failed
        rcases ih failed with ⟨before, other, after, bone, rfl, known, apart, taken, same⟩ | missing
        · refine .inl ⟨source :: before, other, after, bone, rfl, known, ?_⟩
          rw [claims_of_bone named]
          refine ⟨apart_cons.mpr ⟨free, apart⟩, ?_, same⟩
          simp only [List.mem_cons] at taken ⊢
          tauto
        · obtain ⟨apart, bone, position, left, same⟩ := missing
          rw [claims_of_bone named]
          refine .inr ⟨apart_cons.mpr ⟨free, apart⟩, bone, position, ?_, same⟩
          rw [← left]
          congr 1
          funext entry
          simp only [List.any_append, List.any_cons, Bool.or_left_comm, Bool.or_assoc]

/-! ## What the numbers are -/

section

variable (skeleton : Skeleton) (next : UInt32) (sources : List (SourceNode Single))

theorem length_numbered : (numbered skeleton next sources).length = sources.length := by
  induction sources generalizing next with
  | nil => rfl
  | cons source rest ih =>
    rw [numbered]
    split <;> simp [ih]

/-- Numbering keeps the nodes and their order. -/
theorem numbered_sources :
    (numbered skeleton next sources).map (fun node => (node.name, node.transform, node.meshes)) =
      sources.map fun source => (source.name, DualQuat.ofMatrix source.transform,
        source.meshes.map UInt32.ofNat) := by
  induction sources generalizing next with
  | nil => rfl
  | cons source rest ih =>
    rw [numbered]
    split <;> simp [ih, unnumbered]

/-- Every node is childless, and a bone node with its bone's index if a bone has its name. -/
theorem of_mem_numbered {node : Node} (member : node ∈ numbered skeleton next sources) :
    node.children = [] ∧ node.isBone = (skeleton.indexOf? node.name).isSome ∧
      ∀ bone, skeleton.indexOf? node.name = some bone → node.index = bone := by
  induction sources generalizing next with
  | nil => cases member
  | cons source rest ih =>
    rw [numbered] at member
    split at member
    case h_1 bone named =>
      rcases List.mem_cons.mp member with rfl | later
      · simp [unnumbered, named]
      · exact ih next later
    case h_2 unnamed =>
      rcases List.mem_cons.mp member with rfl | later
      · simp [unnumbered, unnamed]
      · exact ih (next + 1) later

theorem numbered_bones :
    ((numbered skeleton next sources).filter (·.isBone)).map (·.index) = claims skeleton sources := by
  induction sources generalizing next with
  | nil => rfl
  | cons source rest ih =>
    cases named : skeleton.indexOf? source.name with
    | some bone => simp [numbered, named, claims_of_bone named, ih]
    | none => simp [numbered, named, claims_of_none named, unnumbered, ih]

/-- The nodes that are no bones are counted from `next` on. -/
theorem numbered_others :
    ((numbered skeleton next sources).filter (!·.isBone)).map (·.index) =
      (List.range (sources.length - (claims skeleton sources).length)).map fun count =>
        next + UInt32.ofNat count := by
  have fewer (rest : List (SourceNode Single)) : (claims skeleton rest).length ≤ rest.length :=
    List.length_filterMap_le ..
  induction sources generalizing next with
  | nil => rfl
  | cons source rest ih =>
    cases named : skeleton.indexOf? source.name with
    | some bone => simp [numbered, named, claims_of_bone named, ih]
    | none =>
      have count : (source :: rest).length - (claims skeleton rest).length =
          rest.length - (claims skeleton rest).length + 1 := by
        have := fewer rest
        rw [List.length_cons]
        omega
      rw [claims_of_none named, count, List.range_succ_eq_map]
      simp [numbered, named, unnumbered, ih, Function.comp_def, UInt32.ofNat_add]
      intro number _
      rw [UInt32.add_assoc, UInt32.add_comm 1]

end

end SceneBaker.Build
