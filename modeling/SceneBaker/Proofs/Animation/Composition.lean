import SceneBaker.Animation.Pose
import SceneBaker.Proofs.Animation.World
import SceneBaker.Proofs.Animation.Writes
import SceneBaker.Proofs.Model.Growth
import SceneBaker.Proofs.Model.Indices
import SceneBaker.Proofs.Steps

/-! # Composed poses

A pose is composed by a walk that visits later siblings first and writes under node indices, which
need not follow the arena. What it leaves in a pose is nevertheless the recursive definition: each
node's own transform, its world transform, and the world transform times the offset for a bone.
-/

namespace SceneBaker.Animation

open Number SceneBaker.Geometry Binary Model Steps

/-- The transform of a node relative to its parent: the frame of the last track for its index, that
track's last frame if it is too short, and the node's own if there is no such track or it is empty. -/
def localTransform (tracks : List Track) (frame : Nat) (node : Node) : DualQuat Single :=
  match tracks.findRev? (·.index == node.index) with
  | none => node.transform
  | some track =>
    if present : frame < track.frames.size then track.frames[frame]
    else track.frames.back?.getD node.transform

theorem localTransform_eq (tracks : List Track) (frame : Nat) (node : Node) :
    localTransform tracks frame node =
      ((tracks.findRev? (·.index == node.index)).bind (·.sample? frame)).getD node.transform := by
  rw [localTransform]
  cases tracks.findRev? (·.index == node.index) with
  | none => rfl
  | some track =>
    rw [Option.bind_some, Track.sample?]
    by_cases present : frame < track.frames.size
    · rw [Array.getElem?_eq_getElem present, Option.some_or, Option.getD_some]
      simp only [present, dif_pos]
    · rw [Array.getElem?_eq_none (Nat.not_lt.mp present), Option.none_or]
      simp only [present, dif_neg, not_false_eq_true]

/-- A pose with room for every node and every bone of a model. -/
structure Pose.Holds (pose : Pose) (model : Model) : Prop where
  parent : model.nodeCount.toNat ≤ pose.parent.size
  world : model.nodeCount.toNat ≤ pose.world.size
  bone : model.boneCount.toNat ≤ pose.bone.size

/-- What one node has in a pose. -/
structure Pose.Shows (pose : Pose) (model : Model) (own : Node → DualQuat Single) (node : Node)
    (absolute : DualQuat Single) : Prop where
  parent : pose.parent[node.index.toNat]? = some (own node)
  world : pose.world[node.index.toNat]? = some absolute
  bone : node.isBone = true → ∃ bone, model.bone? node.index = some bone ∧
    pose.bone[node.index.toNat]? = some (absolute * bone.offset)

/-- Poses of equal size that differ at the indices of nodes and bone nodes only. -/
structure Pose.Keeps (after before : Pose) (nodes : Array Node) : Prop where
  sizes : after.parent.size = before.parent.size ∧ after.world.size = before.world.size ∧
    after.bone.size = before.bone.size
  others : ∀ index, (∀ node ∈ nodes, node.index.toNat ≠ index) →
    after.parent[index]? = before.parent[index]? ∧ after.world[index]? = before.world[index]?
  otherBones : ∀ index, (∀ node ∈ nodes, node.isBone = true → node.index.toNat ≠ index) →
    after.bone[index]? = before.bone[index]?

namespace Composer

variable {model : Model} {tracks : List Track} {frame : Nat}

/-! ## Preparation -/

/-- The composer of tracks that all name nodes of the model. -/
def prepared (model : Model) (tracks : List Track) : Composer where
  model := model
  tracks := writeAll (·.index.toNat) some tracks (Array.replicate model.nodes.size none)
  offsets := writeAll (·.index.toNat) (·.offset) model.skeleton
    (Array.replicate model.skeleton.length 1)

private theorem index_tracks_eq_ok_iff {cause : Track → CodecError}
    {indexed final : Array (Option Track)} :
    tracks.foldlM (fun (indexed : Array (Option Track)) (track : Track) =>
      if track.index.toNat < indexed.size then
        Except.ok (indexed.setIfInBounds track.index.toNat (some track))
      else .error (cause track)) indexed = .ok final ↔
        (∀ track ∈ tracks, track.index.toNat < indexed.size) ∧
          writeAll (·.index.toNat) some tracks indexed = final := by
  induction tracks generalizing indexed with
  | nil => simp [writeAll, pure, Except.pure]
  | cons track tracks ih =>
    rw [List.foldlM_cons, List.forall_mem_cons]
    by_cases first : track.index.toNat < indexed.size
    · rw [if_pos first, and_iff_right first]
      refine ih.trans ?_
      rw [Array.size_setIfInBounds]
      rfl
    · simp [first, bind, Except.bind]

/-- A composer is made of tracks that all have their place in the model. -/
theorem ofTracks_eq_ok_iff {composer : Composer} : ofTracks model tracks = .ok composer ↔
    (∀ track ∈ tracks, track.index.toNat < model.nodes.size) ∧ prepared model tracks = composer := by
  rw [ofTracks, bind_eq_ok_iff]
  simp only [index_tracks_eq_ok_iff, Array.size_replicate]
  constructor
  · rintro ⟨_, ⟨inside, rfl⟩, made⟩
    exact ⟨inside, Except.ok.inj made⟩
  · rintro ⟨inside, rfl⟩
    exact ⟨_, ⟨inside, rfl⟩, rfl⟩

theorem ofTracks_eq (tracked : ∀ track ∈ tracks, track.index < model.nodeCount) :
    ofTracks model tracks = .ok (prepared model tracks) := by
  refine ofTracks_eq_ok_iff.mpr ⟨fun track member => ?_, rfl⟩
  exact (UInt32.lt_iff_toNat_lt.mp (tracked track member)).trans_le model.nodeCount_le

theorem nodeTransform_prepared {node : Node} (inside : node.index.toNat < model.nodes.size) :
    (prepared model tracks).nodeTransform frame node = localTransform tracks frame node := by
  have same : (fun track : Track => track.index.toNat == node.index.toNat) =
      (·.index == node.index) := by
    funext track
    simp [← UInt32.toNat_inj]
  have track : (prepared model tracks).tracks[node.index.toNat]?.join =
      tracks.findRev? (·.index == node.index) := by
    rw [prepared, getElem?_writeAll, same, Array.getElem?_replicate, if_pos inside]
    cases tracks.findRev? (·.index == node.index) <;> rfl
  rw [nodeTransform, track, localTransform_eq]

theorem offset_prepared (valid : model.Indexed) {bone : Bone} (member : bone ∈ model.skeleton) :
    (prepared model tracks).offsets[bone.index.toNat]? = some bone.offset := by
  have distinct : (model.skeleton.map (·.index.toNat)).Nodup :=
    valid.perm_bones.2.nodup_iff.mpr List.nodup_range
  apply getElem?_writeAll_of_mem distinct member
  have below := UInt32.lt_iff_toNat_lt.mp (valid.bones bone member)
  have few := model.boneCount_le
  simp only [Array.size_replicate]
  omega

/-! ## Placement -/

/-- A node has its place in a composer and a pose. -/
structure Places (composer : Composer) (pose : Pose) (node : Node) : Prop where
  parent : node.index.toNat < pose.parent.size
  world : node.index.toNat < pose.world.size
  bone : node.isBone = true → node.index.toNat < composer.offsets.size ∧
    node.index.toNat < pose.bone.size

/-- The offset of the bone with a node's index. -/
def offset (composer : Composer) (node : Node) : DualQuat Single :=
  composer.offsets[node.index.toNat]?.getD 1

/-- A pose after one node and its bone. -/
def written (composer : Composer) (frame : Nat) (pose : Pose) (node : Node)
    (world : DualQuat Single) : Pose where
  parent := pose.parent.setIfInBounds node.index.toNat (composer.nodeTransform frame node)
  world := pose.world.setIfInBounds node.index.toNat world
  bone := if node.isBone then
    pose.bone.setIfInBounds node.index.toNat (world * composer.offset node) else pose.bone

theorem place_eq {composer : Composer} {pose : Pose} {node : Node} (world : DualQuat Single)
    (places : composer.Places pose node) :
    composer.place frame pose node world = (composer.written frame pose node world, none) := by
  simp only [place, written, if_pos (And.intro places.parent places.world)]
  cases flag : node.isBone with
  | false => rfl
  | true =>
    obtain ⟨known, room⟩ := places.bone flag
    simp only [offset, Array.getElem?_eq_getElem known, Array.getElem?_eq_getElem room, if_true,
      Option.getD_some]

/-- Poses of equal size, space by space. -/
def Fits (first second : Pose) : Prop :=
  first.parent.size = second.parent.size ∧ first.world.size = second.world.size ∧
    first.bone.size = second.bone.size

theorem fits_written (composer : Composer) (frame : Nat) (pose : Pose) (node : Node)
    (world : DualQuat Single) : Fits (composer.written frame pose node world) pose := by
  refine ⟨Array.size_setIfInBounds, Array.size_setIfInBounds, ?_⟩
  rw [written]
  split
  case isTrue => exact Array.size_setIfInBounds
  case isFalse => rfl

/-- Only the size of a pose decides whether there is a place in it. -/
theorem places_iff_of_fits {composer : Composer} {first second : Pose} (fits : Fits first second)
    (node : Node) : composer.Places first node ↔ composer.Places second node := by
  obtain ⟨parent, world, bone⟩ := fits
  constructor
  · rintro ⟨inParent, inWorld, inBone⟩
    exact ⟨parent ▸ inParent, world ▸ inWorld, bone ▸ inBone⟩
  · rintro ⟨inParent, inWorld, inBone⟩
    exact ⟨parent ▸ inParent, world ▸ inWorld, bone ▸ inBone⟩

/-- A pose after several nodes, seen as three arrays that are written by index. -/
theorem placeAll_eq {composer : Composer} {entries : List (Node × DualQuat Single)} {pose : Pose}
    (places : ∀ entry ∈ entries, composer.Places pose entry.1) :
    composer.placeAll frame entries pose = (
      { parent := writeAll (·.1.index.toNat) (composer.nodeTransform frame ·.1) entries pose.parent
        world := writeAll (·.1.index.toNat) (·.2) entries pose.world
        bone := writeAll (·.1.index.toNat) (fun entry => entry.2 * composer.offset entry.1)
          (entries.filter (·.1.isBone)) pose.bone }, none) := by
  induction entries generalizing pose with
  | nil => rfl
  | cons entry entries ih =>
    obtain ⟨first, others⟩ := List.forall_mem_cons.mp places
    have kept (later : Node × DualQuat Single) (member : later ∈ entries) :
        composer.Places (composer.written frame pose entry.1 entry.2) later.1 :=
      (places_iff_of_fits (fits_written ..) later.1).mpr (others later member)
    rw [placeAll, place_eq entry.2 first]
    refine (ih kept).trans ?_
    cases flag : entry.1.isBone with
    | false => simp [written, writeAll, flag]
    | true => simp [written, writeAll, flag]

/-! ## Room -/

/-- A node has its place in a pose with room for the model if its index is that of a node and, where
it is a bone node, that of a bone. -/
theorem places_of_inside {pose : Pose} (holds : pose.Holds model) {node : Node}
    (inside : node.index < model.nodeCount)
    (bone : node.isBone = true → node.index < model.boneCount) :
    (prepared model tracks).Places pose node := by
  have below := UInt32.lt_iff_toNat_lt.mp inside
  constructor
  · exact below.trans_le holds.parent
  · exact below.trans_le holds.world
  · intro flag
    have known := UInt32.lt_iff_toNat_lt.mp (bone flag)
    have sized : (prepared model tracks).offsets.size = model.skeleton.length := by
      simp [prepared]
    refine ⟨?_, known.trans_le holds.bone⟩
    rw [sized]
    exact known.trans_le model.boneCount_le

/-- All nodes of a valid model have their places in a pose with room for them. -/
theorem places_prepared (valid : model.Indexed) {pose : Pose} (holds : pose.Holds model) {node : Node}
    (member : node ∈ model.nodes.nodes.toList) : (prepared model tracks).Places pose node :=
  places_of_inside holds (valid.nodes node member).inside (valid.nodes node member).bone

theorem offset_node (valid : model.Indexed) {node : Node}
    (member : node ∈ model.nodes.nodes.toList) (flag : node.isBone = true) :
    ∃ bone, model.bone? node.index = some bone ∧
      (prepared model tracks).offset node = bone.offset := by
  obtain ⟨bone, known, lookup, same⟩ := valid.exists_bone ((valid.nodes node member).bone flag)
  refine ⟨bone, lookup, ?_⟩
  rw [offset, ← same, offset_prepared valid known, Option.getD_some]

end Composer

/-! ## Composition -/

/-- Nodes with transforms, each node of a model once and with its world transform. -/
structure Visits (model : Model) (own : Node → DualQuat Single)
    (entries : List (Node × DualQuat Single)) : Prop where
  nodes : (entries.map (·.1)).Perm model.nodes.nodes.toList
  reached : ∀ position node absolute, model.nodes.get? position = some node →
    model.nodes.World own position absolute → (node, absolute) ∈ entries

/-- A pose after composition: every node has its own and its one world transform, every bone node's
bone its transform, and nothing else has changed. -/
structure Composed (model : Model) (tracks : List Track) (frame : Nat) (before after : Pose) :
    Prop where
  placed : ∀ position node, model.nodes.get? position = some node →
    ∃! absolute, model.nodes.World (localTransform tracks frame) position absolute
  shows : ∀ position node absolute, model.nodes.get? position = some node →
    model.nodes.World (localTransform tracks frame) position absolute →
    after.Shows model (localTransform tracks frame) node absolute
  keeps : after.Keeps before model.nodes.nodes

variable {model : Model} {tracks : List Track} {frame : Nat}

namespace Visits

variable {own : Node → DualQuat Single} {entries : List (Node × DualQuat Single)}

theorem mem (visits : Visits model own entries) {entry : Node × DualQuat Single}
    (among : entry ∈ entries) : entry.1 ∈ model.nodes.nodes.toList :=
  visits.nodes.mem_iff.mp (List.mem_map_of_mem among)

theorem distinct (visits : Visits model own entries) (valid : model.Indexed) :
    (entries.map (·.1.index.toNat)).Nodup := by
  have numbered := (visits.nodes.map (·.index.toNat)).trans valid.perm_nodes.2
  rw [List.map_map] at numbered
  exact numbered.nodup_iff.mpr List.nodup_range

end Visits

/-- The walk of a composer visits every node with its world transform. -/
theorem visits_prepared {forest : Forest Nat} (valid : model.Indexed)
    (spells : model.nodes.Spells forest) :
    Visits model (localTransform tracks frame) ((Composer.prepared model tracks).worlds frame) := by
  constructor
  case nodes => exact spells.map_fst_worlds _
  case reached =>
    intro position node absolute found derived
    refine spells.mem_worlds_iff.mpr ⟨position, found, ?_⟩
    apply derived.congr
    intro node member
    have inside := valid.index_lt_size (Array.mem_toList_iff.mpr member)
    exact (Composer.nodeTransform_prepared inside).symm

/-- A valid model is composed with any tracks, at any frame. -/
theorem compose_prepared (tracks : List Track) (frame : Nat) {forest : Forest Nat}
    (valid : model.Indexed) (spells : model.nodes.Spells forest) {pose : Pose}
    (holds : pose.Holds model) :
    ∃ after, (Composer.prepared model tracks).compose frame pose = (after, none) ∧
      Composed model tracks frame pose after := by
  let composer := Composer.prepared model tracks
  have visits : Visits model (localTransform tracks frame) (composer.worlds frame) :=
    visits_prepared valid spells
  have places (entry : Node × DualQuat Single) (among : entry ∈ composer.worlds frame) :
      composer.Places pose entry.1 := Composer.places_prepared valid holds (visits.mem among)
  refine ⟨_, Composer.placeAll_eq places, ?placed, ?shows, ?keeps⟩
  case placed =>
    intro position node found
    exact existsUnique_of_exists_of_unique
      (spells.exists_world _ (Array.getElem?_eq_some_iff.mp found).1)
      fun _ _ => spells.world_unique
  case shows =>
    intro position node absolute found derived
    have listed := visits.reached position node absolute found derived
    have member := visits.mem listed
    have room := places _ listed
    have distinct := visits.distinct valid
    constructor
    · rw [getElem?_writeAll_of_mem distinct listed room.parent,
        Composer.nodeTransform_prepared (valid.index_lt_size member)]
    · exact getElem?_writeAll_of_mem distinct listed room.world
    · intro flag
      obtain ⟨bone, lookup, offset⟩ := Composer.offset_node valid member flag
      have flagged : (node, absolute) ∈ (composer.worlds frame).filter (·.1.isBone) :=
        List.mem_filter.mpr ⟨listed, flag⟩
      have fewer : (((composer.worlds frame).filter (·.1.isBone)).map (·.1.index.toNat)).Nodup :=
        distinct.sublist (List.filter_sublist.map _)
      refine ⟨bone, lookup, ?_⟩
      rw [getElem?_writeAll_of_mem fewer flagged (room.bone flag).2, offset]
  case keeps =>
    constructor
    · simp
    · intro index absent
      have unwritten (entry : Node × DualQuat Single) (among : entry ∈ composer.worlds frame) :
          entry.1.index.toNat ≠ index := absent _ (Array.mem_toList_iff.mp (visits.mem among))
      exact ⟨getElem?_writeAll_of_absent unwritten, getElem?_writeAll_of_absent unwritten⟩
    · intro index absent
      apply getElem?_writeAll_of_absent
      intro entry among
      obtain ⟨listed, flag⟩ := List.mem_filter.mp among
      exact absent _ (Array.mem_toList_iff.mp (visits.mem listed)) flag

/-- Poses that have the same for one node and its bone. -/
structure Pose.Alike (first second : Pose) (node : Node) : Prop where
  parent : first.parent[node.index.toNat]? = second.parent[node.index.toNat]?
  world : first.world[node.index.toNat]? = second.world[node.index.toNat]?
  bone : node.isBone = true → first.bone[node.index.toNat]? = second.bone[node.index.toNat]?

theorem Pose.Shows.alike {first second : Pose} {own : Node → DualQuat Single} {node : Node}
    {absolute : DualQuat Single} (one : first.Shows model own node absolute)
    (other : second.Shows model own node absolute) : first.Alike second node := by
  constructor
  · exact one.parent.trans other.parent.symm
  · exact one.world.trans other.world.symm
  · intro flag
    obtain ⟨bone, lookup, here⟩ := one.bone flag
    obtain ⟨same, again, there⟩ := other.bone flag
    obtain rfl := Option.some.inj (lookup.symm.trans again)
    exact here.trans there.symm

/-- The children of a node play no part in what it has in a pose. -/
theorem Pose.Shows.moved {other : Model} {pose : Pose} {node again : Node}
    {absolute : DualQuat Single} (shows : pose.Shows other (localTransform tracks frame) again absolute)
    (same : again.bare = node.bare) (bones : other.skeleton = model.skeleton) :
    pose.Shows model (localTransform tracks frame) node absolute := by
  have plain : pose.Shows other (localTransform tracks frame) again.bare absolute :=
    ⟨shows.parent, shows.world, shows.bone⟩
  rw [same] at plain
  refine ⟨plain.parent, plain.world, fun flag => ?_⟩
  obtain ⟨bone, lookup, there⟩ := plain.bone flag
  rw [Model.bone?, bones] at lookup
  exact ⟨bone, lookup, there⟩

/-- Neither the arrangement of the tree nor what the pose held before matters. -/
theorem Composed.alike {other : Model} {move : Nat → Nat}
    {before after held final : Pose} (composed : Composed model tracks frame before after)
    (again : Composed other tracks frame held final)
    (arranged : model.nodes.Rearranges other.nodes move) (bones : other.skeleton = model.skeleton)
    {node : Node} (member : node ∈ model.nodes.nodes) : final.Alike after node := by
  have bare (first second : Node) (same : first.bare = second.bare) :
      localTransform tracks frame first = localTransform tracks frame second := by
    change localTransform tracks frame first.bare = localTransform tracks frame second.bare
    rw [same]
  obtain ⟨position, found⟩ := Array.mem_iff_getElem?.mp member
  obtain ⟨absolute, derived, -⟩ := composed.placed position node found
  obtain ⟨moved, present, same, -⟩ := arranged.moved position node found
  have here := composed.shows position node absolute found derived
  have there := again.shows _ moved absolute present (derived.rearrange arranged bare)
  exact (there.moved same bones).alike here

/-- Composition into a pose with room for a valid model succeeds and gives the recursive definition.
Another arrangement of the tree and another earlier content of the pose give the same. -/
theorem composed_of_validate {pose : Pose} (valid : model.validate = .ok ())
    (grown : model.nodes.Grown) (tracked : ∀ track ∈ tracks, track.index < model.nodeCount)
    (holds : pose.Holds model) :
    ∃ composer after, Composer.ofTracks model tracks = .ok composer ∧
      composer.compose frame pose = (after, none) ∧ Composed model tracks frame pose after ∧
      ∀ other move held, other.validate = .ok () → other.nodes.Grown →
        model.nodes.Rearranges other.nodes move → other.skeleton = model.skeleton →
        held.Holds other →
        ∃ again final, Composer.ofTracks other tracks = .ok again ∧
          again.compose frame held = (final, none) ∧
            ∀ node ∈ model.nodes.nodes, final.Alike after node := by
  obtain ⟨forest, spells⟩ := grown.exists_spells
  obtain ⟨after, result, composed⟩ :=
    compose_prepared tracks frame (Model.validate_eq_ok_iff.mp valid) spells holds
  refine ⟨_, after, Composer.ofTracks_eq tracked, result, composed, ?_⟩
  intro other move held valid grown arranged bones holds
  obtain ⟨forest, spells⟩ := grown.exists_spells
  obtain ⟨final, result, again⟩ :=
    compose_prepared tracks frame (Model.validate_eq_ok_iff.mp valid) spells holds
  have count : other.nodeCount = model.nodeCount := congrArg UInt32.ofNat arranged.size
  refine ⟨_, final, Composer.ofTracks_eq (count ▸ tracked), result, ?_⟩
  exact fun node member => composed.alike again arranged bones member

/-- A skinned model whose bone node is the first child of the root. -/
def limping : Model where
  nodes := (((NodeTree.ofRoot { name := "root", index := 1 }).attach 0
    { name := "hip", isBone := true }).attach 0 { name := "skin", index := 3 }).attach 1
    { name := "foot", index := 2 }
  skeleton := [{ name := "hip" }]

/-- The same model with its bone node behind the other child. -/
def turned : Model where
  nodes := (((NodeTree.ofRoot { name := "root", index := 1 }).attach 0
    { name := "skin", index := 3 }).attach 0 { name := "hip", isBone := true }).attach 2
    { name := "foot", index := 2 }
  skeleton := [{ name := "hip" }]

/-- Tracks of the root, which has two, and of the foot, which has an empty one. -/
def strides : List Track := [⟨1, #[]⟩, ⟨2, #[]⟩, ⟨1, #[1, 1 * 1]⟩]

theorem composed_limping : limping.validate = .ok () ∧ limping.nodes.Grown ∧
    (∀ track ∈ strides, track.index < limping.nodeCount) ∧ (Pose.identity 5 2).Holds limping ∧
    limping.nodes.Rearranges turned.nodes (fun position => [0, 2, 1, 3].getD position position) ∧
    ∃ composer after again final, Composer.ofTracks limping strides = .ok composer ∧
      composer.compose 7 (Pose.identity 5 2) = (after, none) ∧
      Composed limping strides 7 (Pose.identity 5 2) after ∧
      Composer.ofTracks turned strides = .ok again ∧
      again.compose 7 (Pose.identity 4 1) = (final, none) ∧
      ∀ node ∈ limping.nodes.nodes, final.Alike after node := by
  have valid : limping.validate = .ok () := by decide
  have grown : limping.nodes.Grown :=
    (((NodeTree.Grown.root rfl).attach (by decide) rfl).attach (by decide) rfl).attach
      (by decide) rfl
  have tracked : ∀ track ∈ strides, track.index < limping.nodeCount := by decide
  have holds : (Pose.identity 5 2).Holds limping := by constructor <;> decide
  have valid' : turned.validate = .ok () := by decide
  have grown' : turned.nodes.Grown :=
    (((NodeTree.Grown.root rfl).attach (by decide) rfl).attach (by decide) rfl).attach
      (by decide) rfl
  have holds' : (Pose.identity 4 1).Holds turned := by constructor <;> decide
  have arranged : limping.nodes.Rearranges turned.nodes
      (fun position => [0, 2, 1, 3].getD position position) := by
    refine ⟨rfl, rfl, fun position node found => ?_⟩
    rcases position with _ | _ | _ | _ | position
    case zero | succ.zero | succ.succ.zero | succ.succ.succ.zero =>
      cases found
      exact ⟨_, rfl, rfl, by decide⟩
    case succ.succ.succ.succ => cases found
  obtain ⟨composer, after, prepared, result, composed, independent⟩ :=
    @composed_of_validate limping strides 7 (Pose.identity 5 2) valid grown tracked holds
  obtain ⟨again, final, prepared', result', alike⟩ :=
    independent turned _ (Pose.identity 4 1) valid' grown' arranged rfl holds'
  exact ⟨valid, grown, tracked, holds, arranged, composer, after, again, final, prepared, result,
    composed, prepared', result', alike⟩

end SceneBaker.Animation
