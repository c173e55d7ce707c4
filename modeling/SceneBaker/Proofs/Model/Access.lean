import SceneBaker.Proofs.Model.Indices

/-! # Table accesses

The runs here are those of decoding, validation and naming, except that an access outside a table
leaves no result at all, neither a value nor a cause. They have the results of the plain runs, so no
such access is ever made: a parent that waits for children is in the tree, an index is looked up
among the marks only after it was checked, and validation finds a bone for every bone node.
-/

set_option linter.dupNamespace false

namespace SceneBaker.Binary

variable {α β : Type}

/-- A run that fails with a cause, or leaves nothing where it would look outside a table. -/
abbrev Guarded : Type → Type := ExceptT CodecError Option

/-- A step that looks at no table. -/
def Guarded.plain (result : Except CodecError α) : Guarded α := ExceptT.mk (some result)

/-- Look an entry up that has to be there. -/
def Guarded.access (entry : Option α) : Guarded α := ExceptT.lift entry

@[simp] theorem Guarded.plain_ok_bind (a : α) (next : α → Guarded β) :
    (plain (.ok a) >>= next) = next a := rfl

theorem Guarded.plain_bind (result : Except CodecError α) (next : α → Except CodecError β) :
    plain (result >>= next) = plain result >>= fun a => plain (next a) := by
  cases result <;> rfl

@[simp] theorem Guarded.access_some (a : α) : access (some a) = plain (.ok a) := rfl

/-- Reading with guarded accesses. -/
abbrev GuardedReader : Type → Type := StateT (List UInt8) Guarded

namespace GuardedReader

/-- Read without looking at a table. -/
def plain (reader : Reader α) : GuardedReader α := fun bytes => .plain (reader bytes)

/-- A step that reads nothing. -/
def inner (step : Guarded α) : GuardedReader α := StateT.lift step

theorem plain_bind (reader : Reader α) (next : α → Reader β) :
    plain (reader >>= next) = plain reader >>= fun a => plain (next a) := by
  funext bytes
  change Guarded.plain ((reader >>= next) bytes) = plain reader bytes >>= fun first =>
    plain (next first.1) first.2
  rw [plain, Reader.bind_apply]
  cases reader bytes <;> rfl

/-- A guarded run is plain if it goes on plainly. -/
theorem bind_congr {reader : Reader α} {next : α → GuardedReader β} {later : α → Reader β}
    (same : ∀ a, next a = plain (later a)) : plain reader >>= next = plain (reader >>= later) := by
  rw [plain_bind, funext same]

theorem inner_plain (result : Except CodecError α) :
    inner (.plain result) = plain (.ofExcept result) := by
  cases result <;> rfl

end GuardedReader

end SceneBaker.Binary

namespace SceneBaker.Model

open Binary Mesh

/-! ## Trees -/

namespace NodeTree

/-- Read the rest of a tree, adding every node below a parent that is there. -/
def guardedRest : (bound : Nat) → (pending : List (Nat × Nat)) → NodeTree → GuardedReader NodeTree
  | bound, pending, tree =>
    match bound, pending.dropWhile (·.2 == 0) with
    | _, [] => pure tree
    | 0, _ :: _ => .plain (.fail .truncated)
    | bound + 1, (parent, waiting) :: rest => do
      let (node, childCount) ← .plain Node.decode
      let grown ← .inner (.access (tree.addChild? parent node))
      guardedRest bound ((tree.size, childCount) :: (parent, waiting - 1) :: rest) grown

/-- The nodes that wait for children are in the tree. -/
theorem guardedRest_eq (bound : Nat) {pending : List (Nat × Nat)} {tree : NodeTree}
    (inside : ∀ waiting ∈ pending, waiting.1 < tree.size) :
    guardedRest bound pending tree = .plain (decodeRest bound pending tree) := by
  induction bound generalizing pending tree with
  | zero =>
    rw [guardedRest.eq_def, decodeRest.eq_def]
    dsimp only
    cases pending.dropWhile (·.2 == 0) <;> rfl
  | succ bound ih =>
    have among : pending.dropWhile (·.2 == 0) ⊆ pending := (List.dropWhile_sublist _).subset
    rw [guardedRest.eq_def, decodeRest.eq_def]
    dsimp only
    cases left : pending.dropWhile (·.2 == 0) with
    | nil => rfl
    | cons first rest =>
      obtain ⟨parent, waiting⟩ := first
      rw [left] at among
      have present : parent < tree.size := inside _ (among List.mem_cons_self)
      apply GuardedReader.bind_congr
      rintro ⟨node, childCount⟩
      have later : ∀ entry ∈ (tree.size, childCount) :: (parent, waiting - 1) :: rest,
          entry.1 < (tree.attach parent node).size := by
        simp only [List.mem_cons, size_attach]
        rintro entry (rfl | rfl | member)
        · exact Nat.lt_succ_self _
        · exact Nat.lt_succ_of_lt present
        · exact Nat.lt_succ_of_lt (inside entry (among (List.mem_cons_of_mem _ member)))
      have added : tree.addChild? parent node = some (tree.attach parent node) := if_pos present
      dsimp only
      rw [added, Guarded.access_some, ← ih later]
      rfl

def guardedDecode : GuardedReader NodeTree := do
  let (root, childCount) ← .plain Node.decode
  fun bytes => guardedRest bytes.length [(0, childCount)] (ofRoot root) bytes

theorem guardedDecode_eq : guardedDecode = .plain decode := by
  apply GuardedReader.bind_congr
  rintro ⟨root, childCount⟩
  funext bytes
  have inside : ∀ waiting ∈ [(0, childCount)], waiting.1 < (ofRoot root).size := by
    simp [size, ofRoot]
  change guardedRest bytes.length [(0, childCount)] (ofRoot root) bytes = _
  rw [guardedRest_eq _ inside]
  rfl

end NodeTree

namespace Model

variable {model : Model}

/-! ## Validation -/

/-- Check an index and look its mark up. -/
def guardedNew (table : Table) (seen : Array Bool) (index count : UInt32) :
    Guarded (Array Bool) := do
  .plain (checkIndex table index count)
  let marked ← .access seen[index.toNat]?
  if marked then .plain (.error (.duplicateIndex table index))
  return seen.setIfInBounds index.toNat true

def guardedNodes (model : Model) : (seen : Array Bool) → List Node → Guarded Unit
  | _, [] => return
  | seen, node :: nodes => do
    let seen ← guardedNew .node seen node.index model.nodeCount
    if node.isBone then .plain (checkIndex .bone node.index model.boneCount)
    .plain (node.meshes.forM fun mesh => checkIndex .mesh mesh (UInt32.ofNat model.meshes.length))
    model.guardedNodes seen nodes

def guardedBones (model : Model) : (seen : Array Bool) → List Bone → Guarded Unit
  | _, [] => return
  | seen, bone :: bones => do
    let seen ← guardedNew .bone seen bone.index model.boneCount
    model.guardedBones seen bones

def guardedValidate (model : Model) : Guarded Unit := do
  model.guardedNodes (Array.replicate model.nodes.size false) model.nodes.nodes.toList
  model.guardedBones (Array.replicate model.skeleton.length false) model.skeleton
  .plain (model.meshes.forM model.checkMesh)

/-- An index that passes its check has a mark. -/
theorem guardedNew_eq {table : Table} {seen : Array Bool} {count : UInt32}
    (large : count.toNat ≤ seen.size) (index : UInt32) :
    guardedNew table seen index count = .plain (checkNew table seen index count) := by
  rw [guardedNew, checkNew, Guarded.plain_bind]
  by_cases inside : index < count
  · have present : index.toNat < seen.size := (UInt32.lt_iff_toNat_lt.mp inside).trans_le large
    rw [checkIndex_eq_ok_iff.mpr inside, Guarded.plain_ok_bind, Guarded.plain_ok_bind,
      Array.getElem?_eq_getElem present, Guarded.access_some, Guarded.plain_ok_bind]
    cases seen[index.toNat] <;> rfl
  · rw [checkIndex, if_neg inside]
    rfl

theorem size_of_checkNew {table : Table} {seen marked : Array Bool} {index count : UInt32}
    (new : checkNew table seen index count = .ok marked) : marked.size = seen.size := by
  obtain ⟨-, -, rfl⟩ := checkNew_eq_ok_iff.mp new
  exact Array.size_setIfInBounds

theorem guardedNodes_eq {seen : Array Bool} (large : model.nodeCount.toNat ≤ seen.size)
    (nodes : List Node) :
    model.guardedNodes seen nodes = .plain (model.checkNodes seen nodes) := by
  induction nodes generalizing seen with
  | nil => rfl
  | cons node nodes ih =>
    rw [guardedNodes, checkNodes, guardedNew_eq large, Guarded.plain_bind]
    cases new : checkNew .node seen node.index model.nodeCount with
    | error cause => rfl
    | ok marked =>
      have same := ih ((size_of_checkNew new).symm ▸ large)
      simp only [Guarded.plain_ok_bind, same]
      split <;> simp only [Guarded.plain_bind]

theorem guardedBones_eq {seen : Array Bool} (large : model.boneCount.toNat ≤ seen.size)
    (bones : List Bone) :
    model.guardedBones seen bones = .plain (model.checkBones seen bones) := by
  induction bones generalizing seen with
  | nil => rfl
  | cons bone bones ih =>
    rw [guardedBones, checkBones, guardedNew_eq large, Guarded.plain_bind]
    cases new : checkNew .bone seen bone.index model.boneCount with
    | error cause => rfl
    | ok marked => exact ih ((size_of_checkNew new).symm ▸ large)

theorem guardedValidate_eq (model : Model) : model.guardedValidate = .plain model.validate := by
  rw [guardedValidate, validate, guardedNodes_eq (by simpa using nodeCount_le model),
    guardedBones_eq (by simpa using boneCount_le model)]
  simp only [Guarded.plain_bind]

/-! ## Names -/

/-- Name the bones after the bone nodes, each of which has to have one. -/
def guardedNames : List Node → List Bone → Guarded (List Bone)
  | [], bones => return bones
  | node :: nodes, bones =>
    if node.isBone then do
      let _ ← .access (bones.find? (·.index == node.index))
      guardedNames nodes (nameBone node.index node.name bones)
    else guardedNames nodes bones

theorem map_index_nameBone (index : UInt32) (name : String) (bones : List Bone) :
    (nameBone index name bones).map (·.index) = bones.map (·.index) := by
  induction bones with
  | nil => rfl
  | cons bone bones ih =>
    rw [nameBone]
    split
    case isTrue => rfl
    case isFalse => simp only [List.map_cons, ih]

theorem guardedNames_eq {nodes : List Node} {bones : List Bone}
    (known : ∀ node ∈ nodes, node.isBone = true → node.index ∈ bones.map (·.index)) :
    guardedNames nodes bones = .plain (.ok (nodes.foldl
      (fun bones node => if node.isBone then nameBone node.index node.name bones else bones)
      bones)) := by
  induction nodes generalizing bones with
  | nil => rfl
  | cons node nodes ih =>
    obtain ⟨own, others⟩ := List.forall_mem_cons.mp known
    rw [guardedNames, List.foldl_cons]
    split
    case isTrue flagged =>
      obtain ⟨bone, among, same⟩ := List.mem_map.mp (own flagged)
      have present : (bones.find? (·.index == node.index)).isSome :=
        List.find?_isSome.mpr ⟨bone, among, by simpa using same⟩
      obtain ⟨found, lookup⟩ := Option.isSome_iff_exists.mp present
      rw [lookup, Guarded.access_some, Guarded.plain_ok_bind]
      apply ih
      rwa [map_index_nameBone]
    case isFalse => exact ih others

/-- Validation leaves no bone node without a bone. -/
theorem Indexed.guardedNames_eq (indexed : model.Indexed) :
    guardedNames model.nodes.nodes.toList model.skeleton =
      .plain (.ok model.nameBones.skeleton) := by
  apply Model.guardedNames_eq
  intro node member flagged
  obtain ⟨bone, among, -, same⟩ := indexed.exists_bone ((indexed.nodes node member).bone flagged)
  exact same ▸ List.mem_map_of_mem among

/-! ## Decoding -/

def guardedDecode : GuardedReader Model := do
  let version ← .plain decodeVersion
  let sharedFormat ← .plain
    (if version.minor < Mesh.formatMinor then some <$> VertexFormat.decode version else pure none)
  let meshCount ← .plain Reader.u32
  let meshes ← .plain (Reader.times meshCount.toNat (Mesh.decode version sharedFormat))
  let nodeCount ← .plain Reader.u32
  let nodes ← NodeTree.guardedDecode
  if nodes.size ≠ nodeCount.toNat then
    .plain (.fail (.countMismatch .node nodeCount nodes.size))
  let boneCount ← .plain Reader.u32
  let skeleton ← .plain (Reader.times boneCount.toNat Bone.decode)
  let materialCount ← .plain Reader.u32
  let materials ← .plain (Reader.times materialCount.toNat Reader.text)
  let model : Model := { version, sharedFormat, meshes, nodes, skeleton, materials }
  .inner model.guardedValidate
  return { model with skeleton := ← .inner (guardedNames nodes.nodes.toList skeleton) }

/-- The checks at the end of decoding and the names that follow them. -/
theorem guardedCheck_eq (model : Model) :
    (do GuardedReader.inner model.guardedValidate
        return { model with
          skeleton := ← .inner (guardedNames model.nodes.nodes.toList model.skeleton) }) =
      GuardedReader.plain (Reader.ofExcept model.validate >>= fun _ => pure model.nameBones) := by
  rw [guardedValidate_eq, GuardedReader.inner_plain]
  cases valid : model.validate with
  | error cause => rfl
  | ok =>
    rw [(validate_eq_ok_iff.mp valid).guardedNames_eq]
    rfl

/-- A model is read without an access outside a table. -/
theorem guardedDecode_eq : guardedDecode = .plain Model.decode := by
  apply GuardedReader.bind_congr
  intro version
  dsimp only
  split
  all_goals
    apply GuardedReader.bind_congr
    intro sharedFormat
    apply GuardedReader.bind_congr
    intro meshCount
    apply GuardedReader.bind_congr
    intro meshes
    apply GuardedReader.bind_congr
    intro nodeCount
    rw [NodeTree.guardedDecode_eq]
    apply GuardedReader.bind_congr
    intro nodes
    split
    case isTrue => rfl
    case isFalse =>
      apply GuardedReader.bind_congr
      intro boneCount
      apply GuardedReader.bind_congr
      intro skeleton
      apply GuardedReader.bind_congr
      intro materialCount
      apply GuardedReader.bind_congr
      intro materials
      exact guardedCheck_eq _

end Model

end SceneBaker.Model
