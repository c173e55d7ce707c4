import SceneBaker.Proofs.Build.FileNames
import SceneBaker.Proofs.Convert.Failure

/-! # Paths of conversions

The files of a conversion lie beside its model. Clips have different file names, which end like no
model's do, so that no file takes the place of another.
-/

namespace SceneBaker.Convert

open Number Files Build Scene Steps

variable {chars : List Char}

/-- A clip's file has a plain name if the name has no slash. -/
theorem plain_of_namesClip (slash : '/' ∈ chars) {name : String} (names : NamesClip chars name) :
    Path.Plain name where
  some := by
    rintro rfl
    exact absurd names.extension (by decide)
  notHere := by
    rintro rfl
    exact absurd names.extension (by decide)
  notAbove := by
    rintro rfl
    exact absurd names.extension (by decide)
  whole member := names.avoids '/' member slash

/-- A file name has one extension at most. -/
theorem extension_ne {name : String} (names : NamesClip chars name) :
    ¬("." ++ modelExtension).toList <:+ name.toList := by
  intro model
  have clip := names.extension
  have nested := List.suffix_of_suffix_length_le model clip (by decide)
  exact absurd nested (by decide)

section

variable (slash : '/' ∈ chars) {converted : Converted} {path : Path} {files : List OutputFile}
include slash

theorem ClipFile.ends {clip : ConvertedClip} {file : OutputFile}
    (beside : ClipFile converted path clip file) (names : NamesClip chars clip.fileName) :
    file.path.Ends clip.fileName := by
  rw [beside.path]
  exact Path.ends_join (plain_of_namesClip slash names) _

theorem ClipFile.parent? {clip : ConvertedClip} {file : OutputFile}
    (beside : ClipFile converted path clip file) (names : NamesClip chars clip.fileName) :
    file.path.parent? = some (path.parent?.getD "") := by
  rw [beside.path, Path.parent?_join (plain_of_namesClip slash names)]
  cases above : path.parent? with
  | none => rfl
  | some directory => exact congrArg some (Path.tidy_of_parent? above)

/-- The files of a conversion lie in the directory of its model. -/
theorem parent?_of_mem_outputFiles (names : ∀ clip ∈ converted.clips, NamesClip chars clip.fileName)
    (encoded : outputFiles converted path = .ok files) {file : OutputFile} (member : file ∈ files) :
    file.path.parent?.getD "" = path.parent?.getD "" := by
  obtain ⟨bytes, clips, -, beside, rfl⟩ := outputFiles_eq_ok_iff.mp encoded
  rcases List.mem_cons.mp member with rfl | among
  · rfl
  · obtain ⟨clip, listed, here⟩ := exists_of_mem_forall₂ beside among
    rw [here.parent? slash (names clip listed), Option.getD_some]

/-- The files of a conversion are those of its clips by name, behind its model. -/
theorem fileName?_of_outputFiles (names : ∀ clip ∈ converted.clips, NamesClip chars clip.fileName)
    (encoded : outputFiles converted path = .ok files) :
    files.map (·.path.fileName?) =
      path.fileName? :: converted.clips.map fun clip => some clip.fileName := by
  obtain ⟨bytes, clips, -, beside, rfl⟩ := outputFiles_eq_ok_iff.mp encoded
  have named := (List.forall₂_and_left _ _).mpr ⟨names, beside⟩
  have same : converted.clips.map (fun clip => some clip.fileName) =
      clips.map (·.path.fileName?) := by
    rw [← List.forall₂_eq_eq_eq, List.forall₂_map_left_iff, List.forall₂_map_right_iff]
    exact named.imp fun clip file ⟨names, here⟩ => (here.ends slash names).fileName?.symm
  rw [List.map_cons, same]

theorem fileName?_ne_none_of_outputFiles
    (names : ∀ clip ∈ converted.clips, NamesClip chars clip.fileName) {name : String}
    (named : path.fileName? = some name) (encoded : outputFiles converted path = .ok files) :
    ∀ file ∈ files, file.path.fileName? ≠ none := by
  intro file member absent
  have listed := List.mem_map_of_mem (f := fun file : OutputFile => file.path.fileName?) member
  rw [fileName?_of_outputFiles slash names encoded, named, absent] at listed
  simp at listed

/-- The files of a conversion have different names. -/
theorem nodup_fileName?_of_outputFiles
    (names : ∀ clip ∈ converted.clips, NamesClip chars clip.fileName)
    (distinct : (converted.clips.map (·.fileName)).Nodup) {name : String}
    (named : path.fileName? = some name) (model : ("." ++ modelExtension).toList <:+ name.toList)
    (encoded : outputFiles converted path = .ok files) :
    (files.map (·.path.fileName?)).Nodup := by
  rw [fileName?_of_outputFiles slash names encoded, named, List.nodup_cons]
  constructor
  · intro member
    obtain ⟨clip, listed, same⟩ := List.mem_map.mp member
    rw [← Option.some.inj same] at model
    exact extension_ne (names clip listed) model
  · have wrapped := distinct.map (Option.some_injective String)
    rwa [List.map_map] at wrapped

/-- The files of a conversion go to different places. -/
theorem nodup_places_of_outputFiles
    (names : ∀ clip ∈ converted.clips, NamesClip chars clip.fileName)
    (distinct : (converted.clips.map (·.fileName)).Nodup) {name : String}
    (named : path.fileName? = some name) (model : ("." ++ modelExtension).toList <:+ name.toList)
    (encoded : outputFiles converted path = .ok files) (store : Store) :
    ((placed store files).map (·.1)).Nodup :=
  nodup_places (fileName?_ne_none_of_outputFiles slash names named encoded)
    (nodup_fileName?_of_outputFiles slash names distinct named model encoded)

end

/-- Where a clip's file name is taken, a number is found that makes it free. So the clips of a
conversion have different file names, which are legal; its files lie in the directory of the model,
and none has the path of another. A save that succeeds leaves files at their paths and changes
nothing else, and each is read back. -/
theorem distinct_of_convert {scene : Scene Single} {settings : Settings} {stem : String}
    {converted : Converted} (legal : Avoids illegalChars stem)
    (success : convert scene settings stem = .ok converted) :
    (∀ taken fileName index, freeName taken fileName index ∉ taken ∧
      (fileName ∈ taken → ∃ count ≤ taken.length,
        freeName taken fileName index = numberedName (fileStem fileName) (index + count) ∧
        ∀ earlier < count, numberedName (fileStem fileName) (index + earlier) ∈ taken)) ∧
    (converted.clips.map (·.fileName)).Nodup ∧
    (∀ clip ∈ converted.clips, NamesClip illegalChars clip.fileName) ∧
    ∀ path files, outputFiles converted path = .ok files →
      (∀ store paths, (save store converted path).2 = .ok paths →
        paths = files.map (·.path) ∧ Filled store files (save store converted path).1) ∧
      (∀ file ∈ files, file.path.parent?.getD "" = path.parent?.getD "") ∧
      ∀ name, path.fileName? = some name → ("." ++ modelExtension).toList <:+ name.toList →
        (files.map (·.path)).Nodup ∧
        ∀ store paths, (save store converted path).2 = .ok paths →
          ∀ file ∈ files, (save store converted path).1.read file.path = .ok file.bytes := by
  obtain ⟨-, baked, -⟩ := convert_eq_ok_iff.mp success
  have distinct := (nodup_of_convertClips baked).1
  have names := namesClip_of_convertClips (List.Subset.refl _) (fun _ => legal) baked
  have slash : '/' ∈ illegalChars := by decide
  refine ⟨fun taken fileName index => ⟨freeName_not_mem taken fileName index, fun used => ?_⟩,
    distinct, names, fun path files encoded => ⟨?_, ?_, fun name named model => ?_⟩⟩
  · obtain ⟨count, few, same, -, earlier⟩ := exists_freeName_eq used index
    exact ⟨count, few, same, earlier⟩
  · intro store paths saved
    obtain ⟨listed, writable, stored⟩ := of_save_eq_ok encoded saved
    exact ⟨listed, stored ▸ filled_of_writable writable⟩
  · exact fun file member => parent?_of_mem_outputFiles slash names encoded member
  · have different := nodup_fileName?_of_outputFiles slash names distinct named model encoded
    refine ⟨.of_map Path.fileName? (by rwa [List.map_map]), fun store paths saved file member => ?_⟩
    obtain ⟨-, writable, stored⟩ := of_save_eq_ok encoded saved
    obtain ⟨place, leads, -, held⟩ := exists_find?_of_nodup writable
      (nodup_places_of_outputFiles slash names distinct named model encoded store) member
    have filled := filled_of_writable writable
    rw [stored]
    exact Store.read_of_find? ((filled.resolve?_eq _).trans leads) held

/-- A stage with clips of one name, with clips whose names become one, and with a clip that has the
name of another's file. -/
def rehearsing : Scene Single where
  meshes := #[{ positions := #[0, 0, 0], faces := [[0, 1, 2]] }]
  nodes := #[⟨"stage", 1, [0], []⟩]
  clips := ["bow", "Armature|bow", "b/w", "b:w", "", "bow_1", "bow.bbanim", "bow"].map fun name =>
    ⟨name, 1, 1, []⟩

/-- A directory with a stage that was converted before. -/
def theatre : Store where
  entries := [(["props"], .directory), (["props", "stage.bbmod"], .file [0x42])]

theorem distinct_of_convert_rehearsing : Avoids illegalChars "stage" ∧
    ∃ converted files paths, convert rehearsing {} "stage" = .ok converted ∧
      converted.clips.map (·.fileName) = ["stage_bow.bbanim", "stage_bow_1.bbanim",
        "stage_b_w.bbanim", "stage_b_w_3.bbanim", "stage_anim4.bbanim", "stage_bow_1_5.bbanim",
        "stage_bow.bbanim.bbanim", "stage_bow_7.bbanim"] ∧
      (converted.clips.map (·.fileName)).Nodup ∧
      outputFiles converted "props/stage.bbmod" = .ok files ∧
      (save theatre converted "props/stage.bbmod").2 = .ok paths ∧ paths = files.map (·.path) ∧
      Filled theatre files (save theatre converted "props/stage.bbmod").1 ∧
      (∀ file ∈ files, file.path.parent?.getD "" = "props") ∧ (files.map (·.path)).Nodup ∧
      ∀ file ∈ files,
        (save theatre converted "props/stage.bbmod").1.read file.path = .ok file.bytes := by
  have legal : Avoids illegalChars "stage" := by decide
  have converts : ((convert rehearsing {} "stage").toOption.bind fun converted =>
      (outputFiles converted "props/stage.bbmod").toOption.bind fun _ =>
        (save theatre converted "props/stage.bbmod").2.toOption.map fun _ =>
          converted.clips.map (·.fileName)) = some ["stage_bow.bbanim", "stage_bow_1.bbanim",
            "stage_b_w.bbanim", "stage_b_w_3.bbanim", "stage_anim4.bbanim",
            "stage_bow_1_5.bbanim", "stage_bow.bbanim.bbanim", "stage_bow_7.bbanim"] := by
    decide +kernel
  obtain ⟨converted, success, encodes⟩ := Option.bind_eq_some_iff.mp converts
  obtain ⟨files, encoded, saves⟩ := Option.bind_eq_some_iff.mp encodes
  obtain ⟨paths, saved, names⟩ := Option.map_eq_some_iff.mp saves
  have success := toOption_eq_some_iff.mp success
  have encoded := toOption_eq_some_iff.mp encoded
  have saved := toOption_eq_some_iff.mp saved
  obtain ⟨-, distinct, -, outputs⟩ := distinct_of_convert legal success
  obtain ⟨reports, inside, separate⟩ := outputs "props/stage.bbmod" files encoded
  obtain ⟨listed, filled⟩ := reports theatre paths saved
  obtain ⟨different, held⟩ :=
    separate "stage.bbmod" (by decide +kernel) (by decide +kernel)
  exact ⟨legal, converted, files, paths, success, names, distinct, encoded, saved, listed, filled,
    inside, different, held theatre paths saved⟩

end SceneBaker.Convert
