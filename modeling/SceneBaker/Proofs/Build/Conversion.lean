import SceneBaker.Build.Conversion
import SceneBaker.Proofs.Build.Contract

/-! # When a scene can be converted

A scene can be converted if its model can be built and every channel of its clips finds a node by
name in the hierarchy. File names depend on the names of the clips alone, and each track moves the
node that the name of its channel finds, so that scenes with the same names have corresponding
clips.
-/

namespace SceneBaker.Build

open Number Model Animation Scene Steps

variable {scene : Scene Single} {settings : Settings} {model : Model} {forest : Forest Nat}

/-! ## Nodes by name -/

/-- The tree of a built model stands as the scene's hierarchy does, its nodes numbered as their
sources are met. -/
theorem planted_of_buildModel_eq_ok (unfolds : scene.links.Unfolds [0] forest)
    (distinct : forest.preorder.Nodup) (success : buildModel scene settings = .ok model) :
    model.nodes.Spells (forest.number 0) ∧
      Numbered (Skeleton.collect scene settings) (reached scene forest) model.nodes := by
  obtain ⟨-, tree, meshes, planted, -, rfl⟩ := buildModel_eq_ok_iff.mp success
  exact planted_of_nodeTree_eq_ok unfolds distinct planted

theorem numbered_of_buildModel_eq_ok (unfolds : scene.links.Unfolds [0] forest)
    (distinct : forest.preorder.Nodup) (success : buildModel scene settings = .ok model) :
    Numbered (Skeleton.collect scene settings) (reached scene forest) model.nodes :=
  (planted_of_buildModel_eq_ok unfolds distinct success).2

/-- What a name finds is a node of that name. -/
theorem of_findNode?_eq_some {name : String} {node : Node}
    (found : model.findNode? name = some node) :
    node ∈ model.nodes.nodes.toList ∧ node.name = name := by
  obtain ⟨entry, first, rfl⟩ := Option.map_eq_some_iff.mp found
  obtain ⟨⟨position, depth⟩, -, listed⟩ := List.mem_filterMap.mp (List.mem_of_find?_eq_some first)
  obtain ⟨node, present, rfl⟩ := Option.map_eq_some_iff.mp listed
  exact ⟨Array.mem_toList_iff.mpr (Array.mem_of_getElem? present),
    by simpa using List.find?_some first⟩

/-- The nodes of a tree are found by the names of their sources. -/
theorem exists_findNode?_iff {skeleton : Skeleton} {sources : List (SourceNode Single)}
    (numbered : Numbered skeleton sources model.nodes) (name : String) :
    (∃ node, model.findNode? name = some node) ↔ ∃ source ∈ sources, source.name = name := by
  calc (∃ node, model.findNode? name = some node)
      ↔ ∃ entry ∈ model.nodes.preorder, entry.2.name = name := by
        rw [← Option.isSome_iff_exists, Model.findNode?, Option.isSome_map, NodeTree.find?,
          List.find?_isSome]
        simp
    _ ↔ name ∈ model.nodes.preorder.map (·.2.name) := by simp
    _ ↔ ∃ source ∈ sources, source.name = name := by rw [numbered.names_eq, List.mem_map]

/-! ## Clips -/

/-- The name of a clip and of the nodes that it moves. -/
def clipNames (clip : Clip Single) : String × List String := (clip.name, clip.channels.map (·.node))

/-- A track that moves the node that a name finds. -/
def Targets (model : Model) (name : String) (track : Track) : Prop :=
  ∃ node, model.findNode? name = some node ∧ track.index = node.index

/-- An animation with the name of a clip and a track for each of its channels, in order. -/
structure Baked (model : Model) (names : String × List String) (animation : Animation) : Prop where
  name : animation.name = names.1
  tracks : List.Forall₂ (Targets model) names.2 animation.tracks

/-- Two conversions of a clip: the same names, and tracks that move nodes of the same names. -/
structure Corresponds (before after : Model) (first second : ConvertedClip) : Prop where
  fileName : second.fileName = first.fileName
  name : second.animation.name = first.animation.name
  tracks : List.Forall₂ (fun one other => ∃ name, Targets before name one ∧ Targets after name other)
    first.animation.tracks second.animation.tracks

/-- The track of a channel that finds its node. -/
def bakeTrack (clip : Clip Single) (model : Model) (settings : Settings)
    (channel : Channel Single) :
    Except ConversionError Track :=
  match model.findNode? channel.node with
  | some node =>
    .ok (bakeChannel clip (frameCount clip.duration clip.ticksPerSecond (bakeRate settings)) channel
      node)
  | none => .error (.unknownAnimationNode clip.name channel.node)

theorem bakeTrack_eq_ok_iff {clip : Clip Single} {channel : Channel Single} {track : Track} :
    bakeTrack clip model settings channel = .ok track ↔
      ∃ node, model.findNode? channel.node = some node ∧
        bakeChannel clip (frameCount clip.duration clip.ticksPerSecond (bakeRate settings)) channel
          node = track := by
  rw [bakeTrack]
  cases model.findNode? channel.node <;> simp

/-- Tracks move different nodes exactly if the names that they were looked up by are different. -/
theorem nodup_indices_iff {names : List String} {tracks : List Track}
    (indices : (model.nodes.nodes.toList.map (·.index)).Nodup)
    (moved : List.Forall₂ (Targets model) names tracks) :
    (tracks.map (·.index)).Nodup ↔ names.Nodup := by
  have listed : (tracks.map (·.index)).map some =
      names.map fun name => (model.findNode? name).map (·.index) := by
    induction moved with
    | nil => rfl
    | cons here _ ih =>
      obtain ⟨node, found, index⟩ := here
      rw [List.map_cons, List.map_cons, List.map_cons, ih, found, index, Option.map_some]
  have listedIndices : (tracks.map (·.index)).Nodup ↔
      (names.map fun name => (model.findNode? name).map (·.index)).Nodup := by
    rw [← listed, List.nodup_map_iff (Option.some_injective _)]
  rw [listedIndices]
  refine ⟨List.Nodup.of_map _, fun apart => apart.map_on fun first one second other same => ?_⟩
  obtain ⟨-, -, node, found, -⟩ := exists_of_mem_forall₂ moved.flip one
  obtain ⟨-, -, again, found', -⟩ := exists_of_mem_forall₂ moved.flip other
  obtain ⟨listed, name⟩ := of_findNode?_eq_some found
  obtain ⟨listed', name'⟩ := of_findNode?_eq_some found'
  rw [found, found', Option.map_some, Option.map_some, Option.some.injEq] at same
  rw [← name, ← name', List.inj_on_of_nodup_map indices listed listed' same]

theorem bake_eq (clip : Clip Single) (model : Model) (settings : Settings) :
    bake clip model settings = (clip.channels.mapM (bakeTrack clip model settings)).map fun tracks =>
      { name := clip.name
        duration := frameCount clip.duration clip.ticksPerSecond (bakeRate settings)
        rate := bakeRate settings
        tracks
        modelNodeCount := model.nodeCount } := rfl

theorem baked_of_bake_eq_ok {clip : Clip Single} {animation : Animation}
    (success : bake clip model settings = .ok animation) :
    Baked model (clipNames clip) animation := by
  obtain ⟨tracks, traversed, rfl⟩ := map_eq_ok_iff.mp success
  refine ⟨rfl, List.forall₂_map_left_iff.mpr ?_⟩
  refine (mapM_eq_ok_iff.mp traversed).imp fun channel track moved => ?_
  obtain ⟨node, found, rfl⟩ := bakeTrack_eq_ok_iff.mp moved
  exact ⟨node, found, rfl⟩

/-- A clip can be baked if all its channels find their nodes. -/
theorem exists_bake_iff {clip : Clip Single} :
    (∃ animation, bake clip model settings = .ok animation) ↔
      ∀ channel ∈ clip.channels, ∃ node, model.findNode? channel.node = some node := by
  have traversal : (∃ animation, bake clip model settings = .ok animation) ↔
      ∃ tracks, clip.channels.mapM (bakeTrack clip model settings) = .ok tracks := by
    simp only [bake_eq, map_eq_ok_iff]
    exact ⟨fun ⟨_, tracks, success, _⟩ => ⟨tracks, success⟩,
      fun ⟨tracks, success⟩ => ⟨_, tracks, success, rfl⟩⟩
  rw [traversal, exists_mapM_eq_ok_iff]
  simp only [bakeTrack_eq_ok_iff]
  refine forall₂_congr fun channel _ => ?_
  exact ⟨fun ⟨_, node, found, _⟩ => ⟨node, found⟩, fun ⟨node, found⟩ => ⟨_, node, found, rfl⟩⟩

theorem convertClips_cons {stem : String} {taken : List String} {index : Nat} {clip : Clip Single}
    {rest : List (Clip Single)} {made : List ConvertedClip} :
    convertClips model settings stem taken index (clip :: rest) = .ok made ↔
      ∃ animation others, bake clip model settings = .ok animation ∧
        convertClips model settings stem
          (freeName taken (clipFileName stem clip.name index settings.namePrefixed) index :: taken)
          (index + 1) rest = .ok others ∧
        ⟨freeName taken (clipFileName stem clip.name index settings.namePrefixed) index, animation⟩ ::
          others = made := by
  rw [convertClips, bind_eq_ok_iff]
  refine exists_congr fun animation => ?_
  rw [exists_and_left]
  refine and_congr_right fun _ => ?_
  rw [bind_eq_ok_iff]
  exact exists_congr fun others => and_congr_right fun _ => iff_of_eq (Except.ok.injEq ..)

/-- What is related to the same entries, one by one, is related one by one. -/
private theorem forall₂_of_common {α β γ : Type} {R : α → β → Prop} {S : α → γ → Prop}
    {entries : List α} {firsts : List β} {seconds : List γ} (one : List.Forall₂ R entries firsts)
    (other : List.Forall₂ S entries seconds) :
    List.Forall₂ (fun first second => ∃ entry, R entry first ∧ S entry second) firsts seconds := by
  induction one generalizing seconds with
  | nil =>
    cases other
    exact .nil
  | cons here _ ih =>
    cases other with
    | cons there rest => exact .cons ⟨_, here, there⟩ (ih rest)

/-- File names depend on names alone, so that clips with the same names correspond. -/
theorem corresponds_of_convertClips {before after : Model} {stem : String} {taken : List String}
    {index : Nat} {clips others : List (Clip Single)} {firsts seconds : List ConvertedClip}
    (same : others.map clipNames = clips.map clipNames)
    (one : convertClips before settings stem taken index clips = .ok firsts)
    (other : convertClips after settings stem taken index others = .ok seconds) :
    List.Forall₂ (Corresponds before after) firsts seconds := by
  induction clips generalizing taken index others firsts seconds with
  | nil =>
    obtain rfl := List.map_eq_nil_iff.mp same
    cases one
    cases other
    exact .nil
  | cons clip clips ih =>
    obtain ⟨second, others, rfl, names, later⟩ := List.map_eq_cons_iff.mp same
    obtain ⟨animation, made, baked, rest, rfl⟩ := convertClips_cons.mp one
    obtain ⟨animation', made', baked', rest', rfl⟩ := convertClips_cons.mp other
    have fileName : second.name = clip.name := congrArg Prod.fst names
    rw [fileName] at rest' ⊢
    have first := baked_of_bake_eq_ok baked
    have again := names ▸ baked_of_bake_eq_ok baked'
    refine .cons ⟨rfl, again.name.trans first.name.symm, ?_⟩ (ih later rest rest')
    exact forall₂_of_common first.tracks again.tracks

theorem exists_convertClips_iff {stem : String} {taken : List String} {index : Nat}
    {clips : List (Clip Single)} :
    (∃ made, convertClips model settings stem taken index clips = .ok made) ↔
      ∀ clip ∈ clips, ∀ channel ∈ clip.channels,
        ∃ node, model.findNode? channel.node = some node := by
  induction clips generalizing taken index with
  | nil => simp [convertClips]
  | cons clip rest ih =>
    have first : (∃ animation, bake clip model settings = .ok animation) ↔
        ∀ channel ∈ clip.channels, ∃ node, model.findNode? channel.node = some node := exists_bake_iff
    rw [List.forall_mem_cons, ← first]
    simp only [convertClips_cons]
    constructor
    · rintro ⟨_, animation, others, here, later, -⟩
      exact ⟨⟨animation, here⟩, ih.mp ⟨others, later⟩⟩
    · rintro ⟨⟨animation, here⟩, later⟩
      obtain ⟨others, later⟩ := ih.mpr later
      exact ⟨_, animation, others, here, later, rfl⟩

/-- Every clip is baked, in order. -/
theorem baked_of_convertClips {stem : String} {taken : List String} {index : Nat}
    {clips : List (Clip Single)} {made : List ConvertedClip}
    (success : convertClips model settings stem taken index clips = .ok made) :
    List.Forall₂ (fun clip converted => bake clip model settings = .ok converted.animation)
      clips made := by
  induction clips generalizing taken index made with
  | nil =>
    cases success
    exact .nil
  | cons clip clips ih =>
    obtain ⟨animation, others, baked, rest, rfl⟩ := convertClips_cons.mp success
    exact .cons baked (ih rest)

/-! ## Conversions -/

theorem convert_eq_ok_iff {stem : String} {converted : Converted} :
    convert scene settings stem = .ok converted ↔ buildModel scene settings = .ok converted.model ∧
      convertClips converted.model settings stem [] 0 scene.clips = .ok converted.clips ∧
      converted.spaces = .ofLevel settings.animationLevel := by
  rw [convert, bind_eq_ok_iff]
  simp only [bind_eq_ok_iff]
  constructor
  · rintro ⟨model, built, clips, baked, made⟩
    obtain rfl := Except.ok.inj made
    exact ⟨built, baked, rfl⟩
  · rintro ⟨built, baked, spaces⟩
    refine ⟨_, built, _, baked, ?_⟩
    rw [← spaces]
    rfl

/-- A scene can be converted if its model can be built and its hierarchy has the nodes that its
clips move. -/
theorem exists_convert_iff (unfolds : scene.links.Unfolds [0] forest)
    (distinct : forest.preorder.Nodup) (stem : String) :
    (∃ converted, convert scene settings stem = .ok converted) ↔
      (∃ model, buildModel scene settings = .ok model) ∧
        ∀ clip ∈ scene.clips, ∀ channel ∈ clip.channels,
          ∃ source ∈ reached scene forest, source.name = channel.node := by
  constructor
  · rintro ⟨converted, success⟩
    obtain ⟨built, baked, -⟩ := convert_eq_ok_iff.mp success
    refine ⟨⟨_, built⟩, fun clip member channel among => ?_⟩
    rw [← exists_findNode?_iff (numbered_of_buildModel_eq_ok unfolds distinct built)]
    exact exists_convertClips_iff.mp ⟨_, baked⟩ clip member channel among
  · rintro ⟨⟨model, built⟩, found⟩
    simp only [← exists_findNode?_iff (numbered_of_buildModel_eq_ok unfolds distinct built)] at found
    have converts : ∃ clips, convertClips model settings stem [] 0 scene.clips = .ok clips :=
      exists_convertClips_iff.mpr found
    obtain ⟨clips, baked⟩ := converts
    exact ⟨⟨model, clips, _⟩, convert_eq_ok_iff.mpr ⟨built, baked, rfl⟩⟩

end SceneBaker.Build
