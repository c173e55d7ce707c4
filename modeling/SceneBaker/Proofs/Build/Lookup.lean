import SceneBaker.Proofs.Animation.Reuse
import SceneBaker.Proofs.Build.Conversion

/-! # Tracks of one node

A lookup finds the first track of a node, a composer plays the last one. A baked animation has several
tracks for a node if its clip has several channels of one name.
-/

namespace SceneBaker.Animation

open Number SceneBaker.Geometry Binary Model

namespace Composer

variable {model : Model} {tracks : List Track} {frame : Nat} {pose after : Pose} {composer : Composer}

/-- The last track of a node decides its transform, also where several nodes share the index. -/
theorem parent_of_findRev? {forest : Forest Nat} (spells : model.nodes.Spells forest)
    (made : ofTracks model tracks = .ok composer)
    (success : composer.compose frame pose = (after, none)) {node : Node}
    (member : node ∈ model.nodes.nodes.toList) {track : Track}
    (last : tracks.findRev? (·.index == node.index) = some track) {transform : DualQuat Single}
    (sampled : track.sample? frame = some transform) :
    after.parent[node.index.toNat]? = some transform := by
  obtain ⟨inside, rfl⟩ := ofTracks_eq_ok_iff.mp made
  have places := places_of_placeAll success
  rw [compose, placeAll_eq places] at success
  obtain rfl := (Prod.mk.inj success).1
  have visits : (((prepared model tracks).worlds frame).map (·.1)).Perm model.nodes.nodes.toList :=
    spells.map_fst_worlds _
  obtain ⟨entry, visited, rfl⟩ := List.mem_map.mp (visits.mem_iff.mpr member)
  have room := (places entry visited).parent
  simp only [getElem?_writeAll, Array.getElem?_eq_getElem room, Option.map_some]
  obtain ⟨other, found⟩ := exists_findRev?
    (p := fun visit : Node × DualQuat Single => visit.1.index.toNat == entry.1.index.toNat)
    visited (beq_self_eq_true _)
  have same : other.1.index = entry.1.index :=
    UInt32.toNat_inj.mp (eq_of_beq (of_findRev?_eq_some found).2)
  obtain ⟨listed, index⟩ := of_findRev?_eq_some last
  have numbered : other.1.index.toNat < model.nodes.size := by
    rw [same, ← eq_of_beq index]
    exact inside track listed
  rw [found, Option.map_some, Option.getD_some, nodeTransform_prepared numbered, localTransform_eq,
    same, last, Option.bind_some, sampled, Option.getD_some]

end Composer

end SceneBaker.Animation

namespace SceneBaker.Build

open Number SceneBaker.Geometry Model Animation Scene Steps

variable {clip : Clip Single} {model : Model} {settings : Settings} {animation : Animation}

theorem size_frames_of_bake_eq_ok (success : bake clip model settings = .ok animation) :
    ∀ track ∈ animation.tracks, track.frames.size = animation.duration.toNat + 1 := by
  obtain ⟨tracks, traversed, rfl⟩ := map_eq_ok_iff.mp success
  intro track member
  obtain ⟨channel, -, moved⟩ := exists_of_mem_forall₂ (mapM_eq_ok_iff.mp traversed) member
  obtain ⟨node, -, rfl⟩ := bakeTrack_eq_ok_iff.mp moved
  simp [bakeChannel]

theorem exists_node_of_bake_eq_ok (success : bake clip model settings = .ok animation) :
    ∀ track ∈ animation.tracks, ∃ node ∈ model.nodes.nodes.toList, track.index = node.index := by
  intro track member
  obtain ⟨name, -, node, found, index⟩ :=
    exists_of_mem_forall₂ (baked_of_bake_eq_ok success).tracks member
  exact ⟨node, (of_findNode?_eq_some found).1, index⟩

/-- Where a clip has one channel for each name, a valid model has one track for each node. -/
theorem nodup_indices_of_bake_eq_ok (valid : model.validate = .ok ())
    (success : bake clip model settings = .ok animation) :
    (animation.tracks.map (·.index)).Nodup ↔ (clip.channels.map (·.node)).Nodup := by
  have indexed := Model.validate_eq_ok_iff.mp valid
  have numbers : (model.nodes.nodes.toList.map (·.index.toNat)).Nodup :=
    indexed.perm_nodes.2.nodup_iff.mpr List.nodup_range
  have indices : (model.nodes.nodes.toList.map (·.index)).Nodup := by
    refine List.Nodup.of_map UInt32.toNat ?_
    rwa [List.map_map]
  exact nodup_indices_iff indices (baked_of_bake_eq_ok success).tracks

/-- A lookup finds the first track of a node and a composer plays the last one, each of which has a
sample for every frame. They are the same track if no two channels of the clip have one name, and a
valid model can be composed whatever the channels. -/
theorem parent_of_bake (grown : model.nodes.Grown)
    (baked : bake clip model settings = .ok animation) {index : UInt32} {first : Track}
    (found : animation.track? index = some first) {frame : Nat}
    (inside : frame ≤ animation.duration.toNat) :
    ∃ last looked played, animation.tracks.findRev? (·.index == index) = some last ∧
      first.frames[frame]? = some looked ∧ last.frames[frame]? = some played ∧
      (∀ composer pose after, Composer.ofTracks model animation.tracks = .ok composer →
        composer.compose frame pose = (after, none) → after.parent[index.toNat]? = some played) ∧
      (model.validate = .ok () →
        (∀ pose, pose.Holds model → ∃ composer after,
          Composer.ofTracks model animation.tracks = .ok composer ∧
            composer.compose frame pose = (after, none)) ∧
        ((clip.channels.map (·.node)).Nodup → last = first)) := by
  obtain ⟨forest, spells⟩ := grown.exists_spells
  have member : first ∈ animation.tracks := List.mem_of_find?_eq_some found
  have own : first.index = index := by simpa using List.find?_some found
  obtain ⟨last, final⟩ := exists_findRev? (p := (·.index == index)) member (beq_iff_eq.mpr own)
  obtain ⟨member', -⟩ := of_findRev?_eq_some final
  have long : frame < first.frames.size := by
    rw [size_frames_of_bake_eq_ok baked first member]
    omega
  have long' : frame < last.frames.size := by
    rw [size_frames_of_bake_eq_ok baked last member']
    omega
  have played : last.frames[frame]? = some last.frames[frame] := Array.getElem?_eq_getElem long'
  refine ⟨last, _, _, final, Array.getElem?_eq_getElem long, played, ?_,
    fun valid => ⟨fun pose holds => ?_, fun apart => ?_⟩⟩
  · intro composer pose after made composed
    obtain ⟨node, among, number⟩ := exists_node_of_bake_eq_ok baked first member
    obtain rfl : node.index = index := number.symm.trans own
    exact Composer.parent_of_findRev? spells made composed among final
      (by rw [Track.sample?, played, Option.some_or])
  · have indexed := Model.validate_eq_ok_iff.mp valid
    obtain ⟨after, composed, -⟩ := compose_prepared animation.tracks frame indexed spells holds
    refine ⟨_, after, Composer.ofTracks_eq fun track member => ?_, composed⟩
    obtain ⟨node, among, index⟩ := exists_node_of_bake_eq_ok baked track member
    exact index ▸ (indexed.nodes node among).inside
  · have distinct := (nodup_indices_of_bake_eq_ok valid baked).mpr apart
    have unique := findRev?_key distinct member
    rw [own] at unique
    exact Option.some.inj (final.symm.trans unique)

/-- Two nodes of one name. -/
def lamps : Model where
  nodes := ((NodeTree.ofRoot { name := "ceiling" }).attach 0 { name := "lamp", index := 1 }).attach 0
    { name := "lamp", index := 2 }

/-- A channel for each of them. -/
def flicker : Clip Single where
  name := "flicker"
  duration := 1
  ticksPerSecond := 1
  channels := [{ node := "lamp", positions := [⟨0, ⟨1, 0, 0⟩⟩] },
    { node := "lamp", positions := [⟨0, ⟨0, 1, 0⟩⟩] }]

theorem parent_of_bake_lamps : lamps.nodes.Grown ∧ ∃ animation first last looked played,
    bake flicker lamps {} = .ok animation ∧ animation.track? 1 = some first ∧
    1 ≤ animation.duration.toNat ∧ animation.tracks.findRev? (·.index == 1) = some last ∧
    first.frames[1]? = some looked ∧ last.frames[1]? = some played ∧
    ∀ composer pose after, Composer.ofTracks lamps animation.tracks = .ok composer →
      composer.compose 1 pose = (after, none) → after.parent[1]? = some played := by
  have grown : lamps.nodes.Grown :=
    ((NodeTree.Grown.root rfl).attach (by decide) rfl).attach (by decide) rfl
  have bakes : (bake flicker lamps {}).toOption.any (fun animation =>
      decide ((animation.track? 1).isSome = true ∧ 1 ≤ animation.duration.toNat)) = true := by
    decide +kernel
  simp only [Option.any_eq_true, toOption_eq_some_iff, decide_eq_true_eq,
    Option.isSome_iff_exists] at bakes
  obtain ⟨animation, baked, ⟨first, found⟩, inside⟩ := bakes
  obtain ⟨last, looked, played, final, here, there, writes, -⟩ :=
    @parent_of_bake flicker lamps {} animation grown baked 1 first found 1 inside
  exact ⟨grown, animation, first, last, looked, played, baked, found, inside, final, here, there,
    writes⟩

/-- What is looked up for the first lamp is not what is composed for it. -/
theorem lamps_disagree : lamps.validate = .ok () ∧ lamps.nodes.Grown ∧
    ∃ animation first composer after, bake flicker lamps {} = .ok animation ∧
      animation.track? 1 = some first ∧ Composer.ofTracks lamps animation.tracks = .ok composer ∧
      composer.compose 0 (Pose.identity 3 0) = (after, none) ∧
      after.parent[1]? ≠ first.frames[0]? := by
  have grown : lamps.nodes.Grown :=
    ((NodeTree.Grown.root rfl).attach (by decide) rfl).attach (by decide) rfl
  have differs : (bake flicker lamps {}).toOption.any (fun animation =>
      (animation.track? 1).any fun first =>
        (Composer.ofTracks lamps animation.tracks).toOption.any fun composer =>
          decide ((composer.compose 0 (Pose.identity 3 0)).2 = none ∧
            (composer.compose 0 (Pose.identity 3 0)).1.parent[1]? ≠ first.frames[0]?)) = true := by
    decide +kernel
  simp only [Option.any_eq_true, toOption_eq_some_iff, decide_eq_true_eq] at differs
  obtain ⟨animation, baked, first, found, composer, made, whole, differs⟩ := differs
  exact ⟨by decide, grown, animation, first, composer, _, baked, found, made,
    Prod.ext rfl whole, differs⟩

end SceneBaker.Build
