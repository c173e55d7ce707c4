import SceneBaker.Proofs.Convert.Saving
import SceneBaker.Proofs.Files.Store

/-! # Failed conversions

A conversion changes no file before all of its files are encoded. Then it puts them at their places,
up to the first that has none. So a failure leaves every file as it was, unless it is a file behind
the first that cannot be written: those before it stay.
-/

namespace SceneBaker.Convert

open Number Files Build Scene Steps

/-! ## Writing -/

/-- What writing files puts at which places: all up to the first without a place. -/
def placed (store : Store) : List OutputFile → List (List String × List UInt8)
  | [] => []
  | file :: rest =>
    (store.target? file.path).elim [] fun place => (place, file.bytes) :: placed store rest

/-- Every file has a place where it can be written. -/
def Writable (store : Store) (files : List OutputFile) : Prop :=
  ∀ file ∈ files, (store.target? file.path).isSome

theorem writable_cons {store : Store} {file : OutputFile} {rest : List OutputFile} :
    Writable store (file :: rest) ↔ (store.target? file.path).isSome ∧ Writable store rest :=
  List.forall_mem_cons

theorem placed_congr {first second : Store} (same : first.isDirectory = second.isDirectory)
    (files : List OutputFile) : placed first files = placed second files := by
  induction files with
  | nil => rfl
  | cons file rest ih => rw [placed, placed, Store.target?_congr same, ih]

theorem writable_congr {first second : Store} (same : first.isDirectory = second.isDirectory)
    (files : List OutputFile) : Writable first files ↔ Writable second files := by
  simp only [Writable, Store.target?_congr same]

theorem vacant_placed (store : Store) (files : List OutputFile) :
    store.Vacant (placed store files) := by
  induction files with
  | nil => nofun
  | cons file rest ih =>
    rw [placed]
    cases target : store.target? file.path with
    | none => nofun
    | some place =>
      exact List.forall_mem_cons.mpr ⟨(Store.of_target?_eq_some target).2, ih⟩

/-- What is put at a place is a file that can be written there. -/
theorem exists_of_mem_placed {store : Store} {files : List OutputFile} {place : List String}
    {bytes : List UInt8} (member : (place, bytes) ∈ placed store files) :
    ∃ file ∈ files, store.target? file.path = some place ∧ file.bytes = bytes := by
  induction files with
  | nil => cases member
  | cons file rest ih =>
    rw [placed] at member
    cases target : store.target? file.path with
    | none =>
      rw [target] at member
      cases member
    | some here =>
      rw [target] at member
      rcases List.mem_cons.mp member with same | later
      · obtain ⟨rfl, rfl⟩ := Prod.mk.inj same
        exact ⟨file, List.mem_cons_self, target, rfl⟩
      · obtain ⟨other, among, there⟩ := ih later
        exact ⟨other, List.mem_cons_of_mem file among, there⟩

/-- If every file has a place, each is put at its own. -/
theorem mem_placed {store : Store} {files : List OutputFile} (writable : Writable store files)
    {file : OutputFile} (member : file ∈ files) {place : List String}
    (target : store.target? file.path = some place) :
    (place, file.bytes) ∈ placed store files := by
  induction files with
  | nil => cases member
  | cons first rest ih =>
    obtain ⟨here, later⟩ := writable_cons.mp writable
    obtain ⟨other, there⟩ := Option.isSome_iff_exists.mp here
    rw [placed, there]
    rcases List.mem_cons.mp member with rfl | among
    · rw [target] at there
      exact List.mem_cons.mpr (.inl (by rw [Option.some.inj there]))
    · exact List.mem_cons_of_mem _ (ih later among)

/-- Writing files puts them at their places, and succeeds if all of them have one. -/
theorem writeFiles_eq (store : Store) (files : List OutputFile) :
    (writeFiles store files).1 = store.putFiles (placed store files) ∧
      ((writeFiles store files).2 = .ok () ↔ Writable store files) := by
  induction files generalizing store with
  | nil => exact ⟨rfl, iff_of_true rfl nofun⟩
  | cons file rest ih =>
    rw [writeFiles_cons, placed, writable_cons]
    rcases store.replace_eq file.path file.bytes with
      ⟨place, target, replaced⟩ | ⟨none, reason, replaced⟩
    · have kept := Store.isDirectory_put (Store.of_target?_eq_some target).2 file.bytes
      obtain ⟨stored, succeeds⟩ := ih (store.put place (.file file.bytes))
      rw [placed_congr kept] at stored
      rw [writable_congr kept] at succeeds
      rw [replaced, target]
      simp only [Option.isSome_some, true_and]
      exact ⟨stored, succeeds⟩
    · rw [replaced, none]
      exact ⟨rfl, iff_of_false nofun (fun writable => nomatch writable.1)⟩

/-- Files have been written: every path of theirs leads to one of them, and all else is as it was.
-/
structure Filled (before : Store) (files : List OutputFile) (after : Store) : Prop where
  directories : after.isDirectory = before.isDirectory
  held : ∀ file ∈ files, ∃ other ∈ files,
    before.resolve? other.path = before.resolve? file.path ∧ after.read file.path = .ok other.bytes
  kept : ∀ place, (∀ file ∈ files, before.resolve? file.path ≠ some place) →
    after.find? place = before.find? place

theorem Filled.resolve?_eq {before after : Store} {files : List OutputFile}
    (filled : Filled before files after) (path : Path) :
    after.resolve? path = before.resolve? path := Store.resolve?_congr filled.directories path

theorem filled_of_writable {store : Store} {files : List OutputFile}
    (writable : Writable store files) :
    Filled store files (store.putFiles (placed store files)) := by
  have vacant := vacant_placed store files
  have directories := Store.isDirectory_putFiles vacant
  constructor
  case directories => exact directories
  case held =>
    intro file member
    obtain ⟨place, target⟩ := Option.isSome_iff_exists.mp (writable file member)
    have leads := (Store.of_target?_eq_some target).1
    have present : ((placed store files).reverse.lookup place).isSome := by
      rw [List.lookup_isSome_iff]
      exact ⟨_, List.mem_reverse.mpr (mem_placed writable member target), beq_self_eq_true _⟩
    obtain ⟨bytes, found⟩ := Option.isSome_iff_exists.mp present
    obtain ⟨front, back, split, -⟩ := List.lookup_eq_some_iff.mp found
    have put : (place, bytes) ∈ placed store files := by
      rw [← List.mem_reverse, split]
      simp
    obtain ⟨other, among, there, rfl⟩ := exists_of_mem_placed put
    refine ⟨other, among, (Store.of_target?_eq_some there).1.trans leads.symm, ?_⟩
    refine Store.read_of_find? ((Store.resolve?_congr directories _).trans leads) ?_
    rw [Store.find?_putFiles vacant, found]
    rfl
  case kept =>
    intro place untouched
    refine Store.find?_putFiles_of_not_mem vacant fun touched => ?_
    obtain ⟨⟨_, bytes⟩, put, rfl⟩ := List.mem_map.mp touched
    obtain ⟨file, among, target, -⟩ := exists_of_mem_placed put
    exact untouched file among (Store.of_target?_eq_some target).1

/-- Where files have different names, each has a place of its own. -/
theorem nodup_places {store : Store} {files : List OutputFile}
    (named : ∀ file ∈ files, file.path.fileName? ≠ none)
    (distinct : (files.map (·.path.fileName?)).Nodup) :
    ((placed store files).map (·.1)).Nodup := by
  induction files with
  | nil => exact .nil
  | cons file rest ih =>
    obtain ⟨some, others⟩ := List.forall_mem_cons.mp named
    obtain ⟨fresh, distinct⟩ := List.nodup_cons.mp distinct
    rw [placed]
    cases target : store.target? file.path with
    | none => exact .nil
    | some place =>
      refine List.nodup_cons.mpr ⟨fun again => ?_, ih others distinct⟩
      obtain ⟨⟨_, bytes⟩, put, rfl⟩ := List.mem_map.mp again
      obtain ⟨other, among, there, -⟩ := exists_of_mem_placed put
      obtain ⟨name, here⟩ := Option.ne_none_iff_exists'.mp some
      obtain ⟨second, after⟩ := Option.ne_none_iff_exists'.mp (others other among)
      have last := Store.getLast?_of_resolve? here (Store.of_target?_eq_some target).1
      rw [Store.getLast?_of_resolve? after (Store.of_target?_eq_some there).1] at last
      exact fresh (List.mem_map.mpr ⟨other, among, after.trans (last.trans here.symm)⟩)

/-- A file with a place of its own is read back. -/
theorem exists_find?_of_nodup {store : Store} {files : List OutputFile} (writable : Writable store files)
    (distinct : ((placed store files).map (·.1)).Nodup) {file : OutputFile} (member : file ∈ files) :
    ∃ place, store.resolve? file.path = some place ∧
      place ∈ (placed store files).map (·.1) ∧
      (store.putFiles (placed store files)).find? place = some (.file file.bytes) := by
  obtain ⟨place, target⟩ := Option.isSome_iff_exists.mp (writable file member)
  have put := mem_placed writable member target
  exact ⟨place, (Store.of_target?_eq_some target).1, List.mem_map_of_mem put,
    Store.find?_putFiles_of_nodup (vacant_placed store files) distinct put⟩

/-- The first file without a place ends the writing. -/
theorem exists_first_of_not_writable {store : Store} {files : List OutputFile}
    (stuck : ¬Writable store files) : ∃ written file rest, files = written ++ file :: rest ∧
      Writable store written ∧ store.target? file.path = none ∧
      placed store files = placed store written := by
  induction files with
  | nil => exact absurd nofun stuck
  | cons file rest ih =>
    cases target : store.target? file.path with
    | none =>
      refine ⟨[], file, rest, rfl, nofun, target, ?_⟩
      rw [placed.eq_2, target]
      rfl
    | some place =>
      have later : ¬Writable store rest := fun writable =>
        stuck (writable_cons.mpr ⟨by rw [target]; rfl, writable⟩)
      obtain ⟨written, first, behind, rfl, writable, none, same⟩ := ih later
      refine ⟨file :: written, first, behind, rfl,
        writable_cons.mpr ⟨by rw [target]; rfl, writable⟩, none, ?_⟩
      rw [placed, placed, target, same]

/-! ## Conversions -/

/-- What a conversion puts at which places, and how it ends. -/
structure Effect where
  contents : List (List String × List UInt8) := []
  status : Status
deriving DecidableEq

instance (store : Store) (files : List OutputFile) : Decidable (Writable store files) :=
  inferInstanceAs (Decidable (∀ file ∈ files, (store.target? file.path).isSome))

/-- What the conversion of one file does to a store, and how it ends. -/
def effect (store : Store) (input output : Path) (settings : Settings) : Effect :=
  match (loadScene store input settings).scene with
  | .error _ => { status := .loadFailed }
  | .ok scene =>
    match convert scene settings (output.stem?.getD defaultStem) with
    | .error _ => { status := .conversionFailed }
    | .ok converted =>
      match outputFiles converted output with
      | .error _ => { status := .saveFailed }
      | .ok files =>
        ⟨placed store files, if Writable store files then .success else .saveFailed⟩

/-- The ways in which a conversion can end. -/
inductive Concludes (store : Store) (input output : Path) (settings : Settings) : Effect → Prop
  | unloaded {cause : ConversionError}
      (failed : (loadScene store input settings).scene = .error cause) :
      Concludes store input output settings ⟨[], .loadFailed⟩
  | unconverted {scene : Scene Single} {cause : ConversionError}
      (loaded : (loadScene store input settings).scene = .ok scene)
      (failed : convert scene settings (output.stem?.getD defaultStem) = .error cause) :
      Concludes store input output settings ⟨[], .conversionFailed⟩
  | unencoded {scene : Scene Single} {converted : Converted} {cause : ConversionError}
      (loaded : (loadScene store input settings).scene = .ok scene)
      (converts : convert scene settings (output.stem?.getD defaultStem) = .ok converted)
      (failed : outputFiles converted output = .error cause) :
      Concludes store input output settings ⟨[], .saveFailed⟩
  | unwritten {scene : Scene Single} {converted : Converted} {files : List OutputFile}
      (loaded : (loadScene store input settings).scene = .ok scene)
      (converts : convert scene settings (output.stem?.getD defaultStem) = .ok converted)
      (encoded : outputFiles converted output = .ok files) (stuck : ¬Writable store files) :
      Concludes store input output settings ⟨placed store files, .saveFailed⟩
  | written {scene : Scene Single} {converted : Converted} {files : List OutputFile}
      (loaded : (loadScene store input settings).scene = .ok scene)
      (converts : convert scene settings (output.stem?.getD defaultStem) = .ok converted)
      (encoded : outputFiles converted output = .ok files) (writable : Writable store files) :
      Concludes store input output settings ⟨placed store files, .success⟩

theorem concludes_effect (store : Store) (input output : Path) (settings : Settings) :
    Concludes store input output settings (effect store input output settings) := by
  unfold effect
  split
  case h_1 cause failed => exact .unloaded failed
  case h_2 scene loaded =>
    split
    case h_1 cause failed => exact .unconverted loaded failed
    case h_2 converted converts =>
      split
      case h_1 cause failed => exact .unencoded loaded converts failed
      case h_2 files encoded =>
        split
        case isTrue writable => exact .written loaded converts encoded writable
        case isFalse stuck => exact .unwritten loaded converts encoded stuck

theorem vacant_effect (store : Store) (input output : Path) (settings : Settings) :
    store.Vacant (effect store input output settings).contents := by
  have concludes := concludes_effect store input output settings
  generalize effect store input output settings = ended at concludes ⊢
  cases concludes with
  | unloaded | unconverted | unencoded => nofun
  | unwritten | written => exact vacant_placed store _

/-- Saving puts the files of a conversion at their places, and succeeds if all of them have one. -/
theorem save_eq (store : Store) {converted : Converted} {path : Path} {files : List OutputFile}
    (encoded : outputFiles converted path = .ok files) :
    ∃ result, save store converted path = (store.putFiles (placed store files), result) ∧
      (result.isOk ↔ Writable store files) := by
  obtain ⟨stored, succeeds⟩ := writeFiles_eq store files
  refine ⟨(writeFiles store files).2.map fun _ => files.map (·.path), ?_, ?_⟩
  · unfold save
    rw [encoded, ← stored]
  · rw [← succeeds]
    cases (writeFiles store files).2 with
    | error cause => exact iff_of_false nofun nofun
    | ok => exact iff_of_true rfl rfl

/-- A save that succeeds reports the paths of all files, in order. -/
theorem of_save_eq_ok {store : Store} {converted : Converted} {path : Path}
    {files : List OutputFile} (encoded : outputFiles converted path = .ok files)
    {paths : List Path} (saved : (save store converted path).2 = .ok paths) :
    paths = files.map (·.path) ∧ Writable store files ∧
      (save store converted path).1 = store.putFiles (placed store files) := by
  obtain ⟨stored, succeeds⟩ := writeFiles_eq store files
  unfold save at saved ⊢
  rw [encoded] at saved ⊢
  obtain ⟨⟨⟩, written, listed⟩ := map_eq_ok_iff.mp saved
  exact ⟨listed.symm, succeeds.mp written, stored⟩

theorem save_of_outputFiles_eq_error {store : Store} {converted : Converted} {path : Path}
    {cause : ConversionError} (refused : outputFiles converted path = .error cause) :
    save store converted path = (store, .error cause) := by
  unfold save
  rw [refused]

/-- A conversion does what its effect says. -/
theorem convertFile_eq (store : Store) (input output : Path) (settings : Settings) :
    (convertFile store input output settings).store =
        store.putFiles (effect store input output settings).contents ∧
      (convertFile store input output settings).status =
        (effect store input output settings).status := by
  unfold convertFile effect
  generalize loadScene store input settings = imported
  obtain ⟨loaded, log⟩ := imported
  cases loaded with
  | error cause => exact ⟨rfl, rfl⟩
  | ok scene =>
    simp only
    cases convert scene settings (output.stem?.getD defaultStem) with
    | error cause => exact ⟨rfl, rfl⟩
    | ok converted =>
      simp only
      cases encoded : outputFiles converted output with
      | error cause =>
        rw [save_of_outputFiles_eq_error encoded]
        exact ⟨rfl, rfl⟩
      | ok files =>
        obtain ⟨result, saved, succeeds⟩ := save_eq store encoded
        rw [saved]
        cases result with
        | error cause => exact ⟨rfl, (if_neg (succeeds.not.mp Bool.false_ne_true)).symm⟩
        | ok paths => exact ⟨rfl, (if_pos (succeeds.mp rfl)).symm⟩

/-- The effect of a conversion depends on the directories and on the scene that is loaded. -/
theorem effect_congr {first second : Store} (same : first.isDirectory = second.isDirectory)
    {input : Path} {settings : Settings}
    (loads : loadScene first input settings = loadScene second input settings) (output : Path) :
    effect first input output settings = effect second input output settings := by
  unfold effect
  rw [loads]
  cases (loadScene second input settings).scene with
  | error cause => rfl
  | ok scene =>
    simp only
    cases convert scene settings (output.stem?.getD defaultStem) with
    | error cause => rfl
    | ok converted =>
      simp only
      cases outputFiles converted output with
      | error cause => rfl
      | ok files =>
        exact congrArg₂ Effect.mk (placed_congr same files)
          (if_congr (writable_congr same files) rfl rfl)

/-- A conversion that succeeds has written all of its files. -/
theorem exists_of_effect_success {store : Store} {input output : Path} {settings : Settings}
    (success : (effect store input output settings).status = .success) :
    ∃ scene converted files, (loadScene store input settings).scene = .ok scene ∧
      convert scene settings (output.stem?.getD defaultStem) = .ok converted ∧
      outputFiles converted output = .ok files ∧ Writable store files ∧
      (effect store input output settings).contents = placed store files := by
  have concludes := concludes_effect store input output settings
  generalize effect store input output settings = ended at success concludes ⊢
  cases concludes with
  | unloaded | unconverted | unencoded | unwritten => cases success
  | written loaded converts encoded writable =>
    exact ⟨_, _, _, loaded, converts, encoded, writable, rfl⟩

/-- Files were written up to one without a place. What no written file replaced is as it was. -/
def Interrupted (store : Store) (files : List OutputFile) (final : Store) : Prop :=
  ∃ written file rest, files = written ++ file :: rest ∧ Writable store written ∧
    store.target? file.path = none ∧ final = store.putFiles (placed store written) ∧
    ∀ place, (∀ earlier ∈ written, store.target? earlier.path ≠ some place) →
      final.find? place = store.find? place

theorem interrupted_of_not_writable {store : Store} {files : List OutputFile}
    (stuck : ¬Writable store files) :
    Interrupted store files (store.putFiles (placed store files)) := by
  obtain ⟨written, file, rest, split, writable, none, same⟩ := exists_first_of_not_writable stuck
  refine ⟨written, file, rest, split, writable, none, by rw [same], fun place untouched => ?_⟩
  rw [same]
  refine Store.find?_putFiles_of_not_mem (vacant_placed store written) fun member => ?_
  obtain ⟨⟨_, bytes⟩, put, rfl⟩ := List.mem_map.mp member
  obtain ⟨earlier, among, target, -⟩ := exists_of_mem_placed put
  exact untouched earlier among target

/-- A conversion that fails before the first of its files is written leaves all files as they were.
One that fails later has written the files up to one without a place, and no others. -/
theorem store_of_convertFile (store : Store) (input output : Path) (settings : Settings) :
    let outcome := convertFile store input output settings
    (outcome.status = .loadFailed ∨ outcome.status = .conversionFailed → outcome.store = store) ∧
    (outcome.status = .saveFailed → ∃ scene converted,
      (loadScene store input settings).scene = .ok scene ∧
      convert scene settings (output.stem?.getD defaultStem) = .ok converted ∧
      ((∃ cause, outputFiles converted output = .error cause) ∧ outcome.store = store ∨
        ∃ files, outputFiles converted output = .ok files ∧
          Interrupted store files outcome.store)) := by
  obtain ⟨stored, ended⟩ := convertFile_eq store input output settings
  have concludes := concludes_effect store input output settings
  simp only [stored, ended]
  generalize effect store input output settings = ended at concludes ⊢
  cases concludes with
  | unloaded | unconverted => exact ⟨fun _ => rfl, nofun⟩
  | unencoded loaded converts failed =>
    exact ⟨nofun, fun _ => ⟨_, _, loaded, converts, .inl ⟨⟨_, failed⟩, rfl⟩⟩⟩
  | unwritten loaded converts encoded stuck =>
    exact ⟨nofun, fun _ =>
      ⟨_, _, loaded, converts, .inr ⟨_, encoded, interrupted_of_not_writable stuck⟩⟩⟩
  | written => exact ⟨nofun, nofun⟩

/-! ## A jammed conversion -/

/-- The text of an object in a document. -/
def objectText (fields : List (String × String)) : String :=
  "\x7b" ++ ",".intercalate (fields.map fun (name, value) => "\"" ++ name ++ "\":" ++ value) ++
    "\x7d"

/-- The text of an array in a document. -/
def arrayText (entries : List String) : String := "[" ++ ",".intercalate entries ++ "]"

/-- The text of a document with one node and clips that move nothing. -/
def documentText (node : String) (clips : List String) : String :=
  let clipText (name : String) := objectText
    [("name", "\"" ++ name ++ "\""), ("channels", arrayText []), ("samplers", arrayText [])]
  objectText [
    ("asset", objectText [("version", "\"2.0\"")]),
    ("scenes", arrayText [objectText [("nodes", arrayText ["0"])]]),
    ("nodes", arrayText [objectText [("name", "\"" ++ node ++ "\"")]]),
    ("animations", arrayText (clips.map clipText))]

/-- A file with a document. -/
def documentFile (node : String) (clips : List String) : Entry :=
  .file (documentText node clips).toUTF8.toList

/-- A gate that was converted before, and a directory with the name of its animation's file. -/
def gate : Store where
  entries := [
    (["gate.gltf"], documentFile "gate" ["open"]),
    (["gate.bbmod"], .file [0x42, 0x42]),
    (["gate_open.bbanim"], .directory)]

theorem store_of_convertFile_gate :
    (convertFile gate "gate.gltf" "gate.bbmod" {}).status = .saveFailed ∧
    ∃ scene converted, (loadScene gate "gate.gltf" {}).scene = .ok scene ∧
      convert scene {} "gate" = .ok converted ∧
      ((∃ cause, outputFiles converted "gate.bbmod" = .error cause) ∧
          (convertFile gate "gate.gltf" "gate.bbmod" {}).store = gate ∨
        ∃ files, outputFiles converted "gate.bbmod" = .ok files ∧
          Interrupted gate files (convertFile gate "gate.gltf" "gate.bbmod" {}).store) := by
  have failed : (convertFile gate "gate.gltf" "gate.bbmod" {}).status = .saveFailed := by
    decide +kernel
  exact ⟨failed, (store_of_convertFile gate "gate.gltf" "gate.bbmod" {}).2 failed⟩

/-- The gate's model is replaced although saving fails. -/
theorem gate_replaced : (convertFile gate "gate.gltf" "gate.bbmod" {}).status = .saveFailed ∧
    gate.read "gate.bbmod" = .ok [0x42, 0x42] ∧
    (convertFile gate "gate.gltf" "gate.bbmod" {}).store.read "gate.bbmod" ≠
      gate.read "gate.bbmod" := by
  decide +kernel

end SceneBaker.Convert
