import SceneBaker.Proofs.Build.Conversion
import SceneBaker.Proofs.Build.RoundTrip
import SceneBaker.Proofs.Gltf.Hierarchy

/-! # Where the channels of a document end up

A channel names a node of the document by its number, a clip names it by its name, and a track names
a node of the model by its index. Names are the weak link: a track moves the first node of the name,
in the order of the walk, whichever node the channel meant. So a channel moves its own node exactly
if no node that is visited earlier has the name.
-/

namespace SceneBaker.Gltf

open Number Animation Scene Build Steps

namespace Loaded

/-- The nodes that an animation moves: those of its channels whose times can be read. -/
def targets (loaded : Loaded) (animation : Document.Animation) : List Nat :=
  ((loaded.timed animation).map (·.channel.node)).eraseDups

end Loaded

/-- The model's node that was made from a node of the document. -/
def made (forest : Forest Nat) (model : Model.Model) (position : Nat) : Option Model.Node :=
  model.nodes.get? (forest.preorder.idxOf position)

/-- The first visit of a name. -/
def firstOf (document : Document) (forest : Forest Nat) (name : String) : Option Nat :=
  forest.preorder.find? (document.visitName · == name)

/-- A track that moves the first node of the name of its target, and so its target exactly if that is
the first node of its name. -/
structure Lands (document : Document) (forest : Forest Nat) (model : Model.Model) (target : Nat)
    (track : Track) : Prop where
  first : ∃ visit node, firstOf document forest (document.nodeName target) = some visit ∧
    made forest model visit = some node ∧ track.index = node.index
  own_iff : target ∈ forest.preorder → ∃ node, made forest model target = some node ∧
    node.name = document.visitName target ∧ (track.index = node.index ↔
      firstOf document forest (document.nodeName target) = some target)

variable {loaded : Loaded} {forest : Forest Nat} {scene : Scene Single} {settings : Settings}
  {model : Model.Model}

/-! ## Nodes by name -/

/-- What is found by a property in one list stands where the other list has the first of it. -/
theorem find?_eq_of_map_eq {α β γ : Type} [DecidableEq α] [BEq γ] {f : α → γ} {g : β → γ}
    {entries : List α} {others : List β} (same : others.map g = entries.map f)
    (distinct : entries.Nodup) (value : γ) :
    others.find? (g · == value) =
      (entries.find? (f · == value)).bind fun entry => others[entries.idxOf entry]? := by
  induction entries generalizing others with
  | nil =>
    obtain rfl := List.map_eq_nil_iff.mp same
    rfl
  | cons entry entries ih =>
    obtain ⟨other, others, rfl, here, later⟩ := List.map_eq_cons_iff.mp same
    obtain ⟨fresh, rest⟩ := List.nodup_cons.mp distinct
    rw [List.find?_cons, List.find?_cons, here]
    cases f entry == value with
    | true => simp
    | false =>
      rw [ih later rest]
      refine Option.bind_congr fun found among => ?_
      have other : entry ≠ found := fun same => fresh (same ▸ List.mem_of_find?_eq_some among)
      rw [List.idxOf_cons_ne _ other, List.getElem?_cons_succ]

namespace Loaded

/-- The nodes of the scene, as its model meets them. -/
theorem reached_eq (shows : loaded.Shows forest scene) :
    reached scene (forest.number 0) = scene.nodes.toList := by
  obtain ⟨uses, nodes⟩ := shows.nodes
  have size := congrArg List.length nodes
  rw [List.length_map, List.length_map, forest.length_preorder] at size
  rw [reached, Forest.preorder_number, ← size, ← List.range_eq_range']
  simpa using Model.NodeTree.filterMap_getElem?_range scene.nodes.toList

/-- The nodes of the model are named as the visits are. -/
theorem names_eq (shows : loaded.Shows forest scene) {skeleton : Skeleton}
    (numbered : Numbered skeleton (reached scene (forest.number 0)) model.nodes) :
    model.nodes.nodes.toList.map (·.name) = forest.preorder.map loaded.document.visitName := by
  obtain ⟨uses, nodes⟩ := shows.nodes
  have listed := congrArg (List.map Prod.fst) numbered.sources_eq
  rw [reached_eq shows, List.map_map, List.map_map] at listed
  have bare := congrArg (List.map SourceNode.name) nodes
  rw [List.map_map, List.map_map] at bare
  refine listed.trans (Eq.trans ?_ (bare.trans ?_))
  · rfl
  · exact List.map_congr_left fun position _ => loaded.name_sceneNode uses position

end Loaded

/-- A model that has a node for every visit, in the order of the walk. -/
structure Follows (document : Document) (forest : Forest Nat) (model : Model.Model) : Prop where
  distinct : forest.preorder.Nodup
  inOrder : model.nodes.preorder.map (·.2) = model.nodes.nodes.toList
  names : model.nodes.nodes.toList.map (·.name) = forest.preorder.map document.visitName
  indices : (model.nodes.nodes.toList.map (·.index)).Nodup

theorem Loaded.follows (distinct : forest.preorder.Nodup) (few : forest.size < 2 ^ 32)
    (shows : loaded.Shows forest scene) {skeleton : Skeleton}
    (numbered : Numbered skeleton (reached scene (forest.number 0)) model.nodes) :
    Follows loaded.document forest model := by
  have names := loaded.names_eq shows numbered
  have size : model.nodes.size = forest.size := by
    have length := congrArg List.length names
    rwa [List.length_map, List.length_map, forest.length_preorder, Array.length_toList] at length
  have indices := perm_range_of_perm_ofNat (size ▸ few) numbered.nodeIndices
  exact ⟨distinct, numbered.inOrder, names, (indices.nodup_iff.mpr List.nodup_range).of_map _⟩

namespace Follows

variable {document : Document} (follows : Follows document forest model)

include follows

/-- A name finds the node that was made from the first visit of the name. -/
theorem findNode?_eq (name : String) :
    model.findNode? name = (firstOf document forest name).bind (made forest model) := by
  have listed : model.findNode? name = model.nodes.nodes.toList.find? (·.name == name) := by
    rw [← follows.inOrder, List.find?_map]
    rfl
  rw [listed, find?_eq_of_map_eq follows.names follows.distinct, firstOf]
  refine Option.bind_congr fun visit _ => ?_
  rw [made, Model.NodeTree.get?, Array.getElem?_toList]

theorem exists_made {position : Nat} (visited : position ∈ forest.preorder) :
    ∃ node, made forest model position = some node ∧ node.name = document.visitName position := by
  have entry := congrArg (·[forest.preorder.idxOf position]?) follows.names
  simp only [List.getElem?_map, List.getElem?_idxOf visited, Option.map_some,
    Option.map_eq_some_iff, Array.getElem?_toList] at entry
  exact entry

/-- No two visits have nodes with one index. -/
theorem index_inj {first second : Nat} {one other : Model.Node} (visited : first ∈ forest.preorder)
    (here : made forest model first = some one) (there : made forest model second = some other)
    (same : one.index = other.index) : first = second := by
  have at_first : (model.nodes.nodes.toList.map (·.index))[forest.preorder.idxOf first]? =
      some one.index := by
    rw [List.getElem?_map, Array.getElem?_toList]
    exact congrArg (Option.map (·.index)) here
  have at_second : (model.nodes.nodes.toList.map (·.index))[forest.preorder.idxOf second]? =
      some one.index := by
    rw [List.getElem?_map, Array.getElem?_toList, same]
    exact congrArg (Option.map (·.index)) there
  have within := (List.getElem?_eq_some_iff.mp at_first).1
  have place := (List.getElem?_inj within follows.indices).mp (at_first.trans at_second.symm)
  exact (List.idxOf_inj visited).mp place

theorem lands {target : Nat} {track : Track}
    (moved : Targets model (document.nodeName target) track) :
    Lands document forest model target track := by
  obtain ⟨node, found, index⟩ := moved
  rw [follows.findNode?_eq] at found
  obtain ⟨visit, first, here⟩ := Option.bind_eq_some_iff.mp found
  refine ⟨⟨visit, node, first, here, index⟩, fun visited => ?_⟩
  obtain ⟨own, there, name⟩ := follows.exists_made visited
  refine ⟨own, there, name, ?_⟩
  rw [index, first, Option.some.injEq]
  constructor
  · exact fun same => follows.index_inj (List.mem_of_find?_eq_some first) here there same
  · rintro rfl
    rw [Option.some.inj (here.symm.trans there)]

end Follows

/-- Every channel of a document ends up at the first node of the name of its target. So it moves its
target exactly if that is the first of its name, and channels of different nodes stay apart exactly
if the nodes have different names. -/
theorem lands_of_convert (unfolds : loaded.document.links.Unfolds [loaded.document.nodes.size] forest)
    (distinct : forest.preorder.Nodup) (few : forest.size < 2 ^ 32)
    (imported : loaded.toScene = .ok scene) {stem : String} {converted : Converted}
    (success : convert scene settings stem = .ok converted) :
    List.Forall₂ (fun animation clip =>
      List.Forall₂ (Lands loaded.document forest converted.model) (loaded.targets animation)
          clip.animation.tracks ∧
        ((clip.animation.tracks.map (·.index)).Nodup ↔
          ((loaded.targets animation).map loaded.document.nodeName).Nodup))
      loaded.document.animations converted.clips := by
  have shows := loaded.shows_of_toScene unfolds distinct imported
  obtain ⟨built, baked, -⟩ := convert_eq_ok_iff.mp success
  have numbers : (forest.number 0).preorder.Nodup := by
    rw [Forest.preorder_number]
    exact List.nodup_range'
  have follows := loaded.follows distinct few shows
    (numbered_of_buildModel_eq_ok shows.links numbers built)
  have clips := baked_of_convertClips baked
  rw [shows.clips, List.forall₂_map_left_iff] at clips
  refine clips.imp fun animation clip made => ?_
  have tracks := (baked_of_bake_eq_ok made).tracks
  have names : (clipNames (loaded.clip animation)).2 =
      (loaded.targets animation).map loaded.document.nodeName := List.map_map ..
  rw [names] at tracks
  refine ⟨?_, nodup_indices_iff follows.indices tracks⟩
  exact (List.forall₂_map_left_iff.mp tracks).imp fun target track => follows.lands

/-- Two nodes of one name side by side, each moved by a channel of its own. -/
def twins : Loaded where
  document := {
    accessors := #[⟨none, 0, 1, .single, .scalar, false, none⟩,
      ⟨none, 0, 1, .single, .vec3, false, none⟩]
    nodes := #[⟨some "lamp", 1, [], none, none⟩, ⟨some "lamp", 1, [], none, none⟩]
    animations := [⟨some "swing", [⟨0, 1, .linear⟩],
      [⟨0, 0, some .translation⟩, ⟨0, 1, some .translation⟩]⟩]
    scenes := #[[0, 1]] }
  buffers := #[]

/-- The walk over the twins. -/
def twinVisits : Forest Nat := .cons 2 (.cons 0 .nil (.cons 1 .nil .nil)) .nil

theorem unfolds_twins : twins.document.links.Unfolds [2] twinVisits := by
  have links : twins.document.links = #[[], [], [0, 1]] := by decide +kernel
  rw [links]
  exact .inside rfl (.inside rfl .nil (.inside rfl .nil .nil)) .nil

theorem lands_of_convert_twins : ∃ scene converted,
    twins.toScene = .ok scene ∧ convert scene {} "lamps" = .ok converted ∧
    List.Forall₂ (fun animation clip =>
      List.Forall₂ (Lands twins.document twinVisits converted.model) (twins.targets animation)
          clip.animation.tracks ∧
        ((clip.animation.tracks.map (·.index)).Nodup ↔
          ((twins.targets animation).map twins.document.nodeName).Nodup))
      twins.document.animations converted.clips := by
  have converts : (twins.toScene >>= fun scene => convert scene {} "lamps").toOption.isSome = true := by
    decide +kernel
  cases result : twins.toScene >>= fun scene => convert scene {} "lamps" with
  | error cause => simp [result, Except.toOption] at converts
  | ok converted =>
    obtain ⟨scene, imported, success⟩ := bind_eq_ok_iff.mp result
    exact ⟨scene, converted, imported, success,
      lands_of_convert unfolds_twins (by decide) (by decide) imported success⟩

/-- Both channels of the twins end up at the first of them, although the second one has a node of its
own in the model. -/
theorem twins_collide : twins.document.animations.map twins.targets = [[0, 1]] ∧
    twins.document.links.Unfolds [2] twinVisits ∧ twinVisits.preorder.Nodup ∧
    ∃ scene converted, twins.toScene = .ok scene ∧ convert scene {} "lamps" = .ok converted ∧
      (converted.clips.map fun clip => clip.animation.tracks.map (·.index)) = [[1, 1]] ∧
      (made twinVisits converted.model 0).map (·.index) = some 1 ∧
      (made twinVisits converted.model 1).map (·.index) = some 2 := by
  have indices : (twins.toScene >>= fun scene => convert scene {} "lamps").toOption.map
      (fun converted => (converted.clips.map fun clip => clip.animation.tracks.map (·.index),
        (made twinVisits converted.model 0).map (·.index),
        (made twinVisits converted.model 1).map (·.index))) = some ([[1, 1]], some 1, some 2) := by
    decide +kernel
  cases result : twins.toScene >>= fun scene => convert scene {} "lamps" with
  | error cause => simp [result, Except.toOption] at indices
  | ok converted =>
    obtain ⟨scene, imported, success⟩ := bind_eq_ok_iff.mp result
    refine ⟨by decide +kernel, unfolds_twins, by decide, scene, converted, imported, success, ?_⟩
    simpa [result, Except.toOption] using indices

end SceneBaker.Gltf
