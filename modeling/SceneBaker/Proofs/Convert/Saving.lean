import SceneBaker.Convert.File
import SceneBaker.Proofs.Animation.Completeness
import SceneBaker.Proofs.Build.Conversion
import SceneBaker.Proofs.Build.RoundTrip
import SceneBaker.Proofs.Model.Counts

/-! # Saving conversions

A conversion encodes all of its files before it writes the first one. A model that was built from a
hierarchy has dense indices, and the tracks that were baked against it move its own nodes, so none of
the encoders fails. What is left to fail is the writing of a file.
-/

namespace SceneBaker.Build

open Number Model Animation Scene Steps

variable {scene : Scene Single} {settings : Settings} {forest : Forest Nat} {model : Model}

/-- Stored numbers below a count that can be stored itself are below it as they are stored. -/
theorem lt_ofNat_of_mem {index : UInt32} {count : Nat} (small : count < 2 ^ 32)
    (member : index ∈ (List.range count).map UInt32.ofNat) : index < UInt32.ofNat count := by
  obtain ⟨number, inside, rfl⟩ := List.mem_map.mp member
  rw [List.mem_range] at inside
  rw [UInt32.lt_iff_toNat_lt, UInt32.toNat_ofNat_of_lt' small,
    UInt32.toNat_ofNat_of_lt' (by change _ < 2 ^ 32; omega)]
  exact inside

theorem Numbered.housed {skeleton : Skeleton} {sources : List (SourceNode Single)}
    (numbered : Numbered skeleton sources model.nodes) (bones : model.skeleton = skeleton.bones)
    (tables : model.Tabled) : Housed model where
  nodes node member :=
    lt_ofNat_of_mem tables.nodes (numbered.nodeIndices.subset (List.mem_map_of_mem member))
  bones node member flagged := by
    have small := tables.bones
    rw [Model.boneCount]
    rw [bones] at small ⊢
    have listed := List.mem_filter.mpr ⟨member, flagged⟩
    exact lt_ofNat_of_mem small (numbered.boneIndices.subset (List.mem_map_of_mem listed))

theorem housed_of_buildModel (unfolds : scene.links.Unfolds [0] forest)
    (distinct : forest.preorder.Nodup) (success : buildModel scene settings = .ok model)
    (tables : model.Tabled) : Housed model := by
  obtain ⟨-, numbered⟩ := planted_of_buildModel_eq_ok unfolds distinct success
  obtain ⟨-, tree, meshes, -, -, rfl⟩ := buildModel_eq_ok_iff.mp success
  exact numbered.housed rfl tables

/-- The tracks of a baked clip move nodes of its model. -/
theorem index_lt_of_bake_eq_ok {clip : Clip Single} {animation : Animation} (housed : Housed model)
    (success : bake clip model settings = .ok animation) :
    ∀ track ∈ animation.tracks, track.index < model.nodeCount := by
  intro track member
  have tracks := (baked_of_bake_eq_ok success).tracks
  obtain ⟨name, -, node, found, index⟩ := exists_of_mem_forall₂ tracks member
  rw [index]
  exact housed.nodes node (of_findNode?_eq_some found).1

/-- Every animation of a conversion can be written. -/
theorem writable_of_convert (unfolds : scene.links.Unfolds [0] forest)
    (distinct : forest.preorder.Nodup) {stem : String} {converted : Converted}
    (success : convert scene settings stem = .ok converted) (tables : converted.model.Tabled) :
    ∀ clip ∈ converted.clips, clip.animation.Writable converted.model converted.spaces := by
  obtain ⟨built, clips, -⟩ := convert_eq_ok_iff.mp success
  obtain ⟨spells, -⟩ := planted_of_buildModel_eq_ok unfolds distinct built
  have housed := housed_of_buildModel unfolds distinct built tables
  intro clip member
  obtain ⟨source, -, baked⟩ := exists_of_mem_forall₂ (baked_of_convertClips clips) member
  have counted : clip.animation.modelNodeCount = converted.model.nodeCount := by
    rw [bake_eq] at baked
    obtain ⟨tracks, -, made⟩ := map_eq_ok_iff.mp baked
    rw [← made]
  exact Animation.writable spells housed counted (index_lt_of_bake_eq_ok housed baked) _

end SceneBaker.Build

namespace SceneBaker.Convert

open Number Animation Files Build Scene Steps

/-- Writing comes to a file that cannot be written, all files before it having been written. -/
inductive Stops : Store → List OutputFile → ConversionError → Prop
  | here {store : Store} {file : OutputFile} {rest : List OutputFile} {reason : String}
      (failed : store.replace file.path file.bytes = .error reason) :
      Stops store (file :: rest) (.inaccessible reason)
  | later {store next : Store} {file : OutputFile} {rest : List OutputFile}
      {cause : ConversionError} (written : store.replace file.path file.bytes = .ok next)
      (stops : Stops next rest cause) : Stops store (file :: rest) cause

-- How a store replaces a file plays no part here, and takes long to unfold.
attribute [local irreducible] Store.replace in
/-- The first file decides which store the others are written to. -/
theorem writeFiles_cons (store : Store) (file : OutputFile) (rest : List OutputFile) :
    writeFiles store (file :: rest) = match store.replace file.path file.bytes with
      | .error reason => (store, .error (.inaccessible reason))
      | .ok next => writeFiles next rest := rfl

theorem writeFiles_eq_error_iff {store : Store} {files : List OutputFile} {cause : ConversionError} :
    (writeFiles store files).2 = .error cause ↔ Stops store files cause := by
  induction files generalizing store with
  | nil => exact iff_of_false nofun nofun
  | cons file rest ih =>
    rw [writeFiles_cons]
    cases replaced : store.replace file.path file.bytes with
    | error reason =>
      constructor
      · intro failed
        obtain rfl := Except.error.inj failed
        exact .here replaced
      · intro stops
        cases stops with
        | here failed => rw [Except.error.inj (replaced.symm.trans failed)]
        | later written _ => cases replaced.symm.trans written
    | ok next =>
      refine ih.trans ⟨.later replaced, fun stops => ?_⟩
      cases stops with
      | here failed => cases replaced.symm.trans failed
      | later written stops =>
        obtain rfl := Except.ok.inj (replaced.symm.trans written)
        exact stops

/-- The file of a clip lies beside the model and holds the clip's animation. -/
structure ClipFile (converted : Converted) (path : Path) (clip : ConvertedClip) (file : OutputFile) :
    Prop where
  path : file.path = (path.parent?.getD "").join clip.fileName
  bytes : clip.animation.toBytes converted.model converted.spaces = .ok file.bytes

/-- The files of a conversion are its model's and those of its clips, in order. -/
theorem outputFiles_eq_ok_iff {converted : Converted} {path : Path} {files : List OutputFile} :
    outputFiles converted path = .ok files ↔
      ∃ bytes clips, converted.model.toBytes = .ok bytes ∧
        List.Forall₂ (ClipFile converted path) converted.clips clips ∧
        ⟨path, bytes⟩ :: clips = files := by
  have clipFile (clip : ConvertedClip) (file : OutputFile) : (do
      let bytes ← (clip.animation.toBytes converted.model converted.spaces).mapError
        ConversionError.codec
      return (⟨(path.parent?.getD "").join clip.fileName, bytes⟩ : OutputFile)) = .ok file ↔
        ClipFile converted path clip file := by
    rw [bind_eq_ok_iff]
    simp only [mapError_eq_ok_iff]
    constructor
    · rintro ⟨bytes, written, made⟩
      obtain rfl := Except.ok.inj made
      exact ⟨rfl, written⟩
    · rintro ⟨named, written⟩
      exact ⟨_, written, congrArg Except.ok (by rw [← named])⟩
  rw [outputFiles, bind_eq_ok_iff]
  simp only [bind_eq_ok_iff, mapM_eq_ok_iff, clipFile, mapError_eq_ok_iff]
  constructor
  · rintro ⟨bytes, model, clips, beside, made⟩
    exact ⟨bytes, clips, model, beside, Except.ok.inj made⟩
  · rintro ⟨bytes, clips, model, beside, rfl⟩
    exact ⟨bytes, model, clips, beside, rfl⟩

/-- The files of a conversion are there if its model and its animations can be written. -/
theorem exists_outputFiles {converted : Converted} {bytes : List UInt8}
    (model : converted.model.toBytes = .ok bytes)
    (clips : ∀ clip ∈ converted.clips,
      clip.animation.Writable converted.model converted.spaces) (path : Path) :
    ∃ files, outputFiles converted path = .ok files := by
  have beside : ∃ files, List.Forall₂ (ClipFile converted path) converted.clips files := by
    rw [exists_forall₂_iff]
    intro clip member
    obtain ⟨written, saved⟩ := (clips clip member).written
    exact ⟨⟨(path.parent?.getD "").join clip.fileName, written⟩, rfl, saved⟩
  obtain ⟨files, beside⟩ := beside
  exact ⟨_, outputFiles_eq_ok_iff.mpr ⟨bytes, files, model, beside, rfl⟩⟩

theorem save_eq_error_iff {store : Store} {converted : Converted} {path : Path}
    {files : List OutputFile} (encoded : outputFiles converted path = .ok files)
    {cause : ConversionError} :
    (save store converted path).2 = .error cause ↔ Stops store files cause := by
  rw [← writeFiles_eq_error_iff]
  unfold save
  rw [encoded]
  exact map_eq_error_iff

variable {scene : Scene Single} {settings : Settings} {forest : Forest Nat}

/-- All files of a conversion can be encoded, whatever the hierarchy and its bones are. Saving it
fails exactly if one of them cannot be written. -/
theorem save_of_convert (unfolds : scene.links.Unfolds [0] forest)
    (distinct : forest.preorder.Nodup) {stem : String} {converted : Converted}
    (success : convert scene settings stem = .ok converted) (small : Build.Small converted.model) :
    (∃ bytes, converted.model.toBytes = .ok bytes) ∧
    (∀ clip ∈ converted.clips, clip.animation.Writable converted.model converted.spaces) ∧
    ∀ path, ∃ files, outputFiles converted path = .ok files ∧
      ∀ store cause, (save store converted path).2 = .error cause ↔ Stops store files cause := by
  obtain ⟨built, -⟩ := convert_eq_ok_iff.mp success
  obtain ⟨spells, -⟩ := planted_of_buildModel_eq_ok unfolds distinct built
  have complete := (Model.Model.complete_encode_iff spells).mpr
    ⟨small.tables, small.vertices, small.nodeMeshes⟩
  have model := Binary.Output.result_eq_ok complete
  have clips := writable_of_convert unfolds distinct success small.tables
  refine ⟨⟨_, model⟩, clips, fun path => ?_⟩
  obtain ⟨files, encoded⟩ := exists_outputFiles model clips path
  exact ⟨files, encoded, fun store cause => save_eq_error_iff encoded⟩

/-- A figure with a hip that sways. Its root lists a mesh that is not there, and the mesh has a
material that is not there: the model is not valid, and is written all the same. -/
def swaying : Scene Single where
  meshes := #[{
    material := 3
    positions := #[0, 0, 0]
    faces := [[0, 1, 2]]
    bones := [⟨"hip", 1, [⟨0, 1⟩]⟩] }]
  nodes := #[⟨"figure", 1, [0, 7], [1]⟩, ⟨"hip", 1, [], []⟩]
  clips := [⟨"sway", 1, 1, [{ node := "hip" }, { node := "figure" }]⟩]

theorem save_of_convert_swaying :
    swaying.links.Unfolds [0] (.cons 0 (.cons 1 .nil .nil) .nil) ∧
    ∃ converted files, convert swaying {} "figure" = .ok converted ∧
      Build.Small converted.model ∧ converted.clips ≠ [] ∧
      (∀ clip ∈ converted.clips, clip.animation.Writable converted.model converted.spaces) ∧
      outputFiles converted "figure.bbmod" = .ok files ∧
      ∀ cause, (save {} converted "figure.bbmod").2 = .error cause ↔ Stops {} files cause := by
  have unfolds : swaying.links.Unfolds [0] (.cons 0 (.cons 1 .nil .nil) .nil) := by
    have links : swaying.links = #[[1], []] := by decide +kernel
    rw [links]
    exact .inside rfl (.inside rfl .nil .nil) .nil
  have converts : (convert swaying {} "figure").toOption.map (fun converted =>
      (decide (Build.Small converted.model), converted.clips.isEmpty)) = some (true, false) := by
    decide +kernel
  obtain ⟨converted, success, facts⟩ := Option.map_eq_some_iff.mp converts
  have success := toOption_eq_some_iff.mp success
  have small : Build.Small converted.model := of_decide_eq_true (Prod.mk.inj facts).1
  have clips : converted.clips ≠ [] := by simpa using (Prod.mk.inj facts).2
  obtain ⟨-, writable, saves⟩ := save_of_convert unfolds (by decide) success small
  obtain ⟨files, encoded, stops⟩ := saves "figure.bbmod"
  exact ⟨unfolds, converted, files, success, small, clips, writable, encoded, stops {}⟩

end SceneBaker.Convert
