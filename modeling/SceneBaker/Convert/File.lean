import SceneBaker.Build.Conversion
import SceneBaker.Convert.Source

/-! # Converting files

The files of a conversion are encoded before the first one is written. Each is then written through
a file of its own that takes the place of what was there, the model first and the animations beside
it; the first that cannot be written ends the conversion.
-/

namespace SceneBaker.Convert

open Number Binary Files Build Scene

/-! ## Single files -/

def loadModel (store : Store) (path : Path) : Except ConversionError Model.Model := do
  let bytes ← (store.read path).mapError .inaccessible
  (Model.Model.ofBytes bytes).mapError .codec

def loadAnimation (store : Store) (path : Path) :
    Except ConversionError Animation.AnimationFile := do
  let bytes ← (store.read path).mapError .inaccessible
  (Animation.AnimationFile.ofBytes bytes).mapError .codec

/-- Write an output in place; what got out before a failure stays. -/
def saveOutput (store : Store) (path : Path) (output : Output) :
    Store × Except ConversionError Unit :=
  match store.write path output.bytes with
  | .error reason => (store, .error (.inaccessible reason))
  | .ok store => (store, (output.result.map fun _ => ()).mapError .codec)

/-! ## Whole conversions -/

/-- A path and what is to be written there. -/
structure OutputFile where
  path : Path
  bytes : List UInt8
deriving DecidableEq

/-- The files of a conversion, the model first. -/
def outputFiles (converted : Converted) (modelPath : Path) :
    Except ConversionError (List OutputFile) := do
  let directory : Path := modelPath.parent?.getD ""
  let model ← converted.model.toBytes.mapError .codec
  let clips ← converted.clips.mapM fun clip => do
    let bytes ← (clip.animation.toBytes converted.model converted.spaces).mapError .codec
    return ⟨directory.join clip.fileName, bytes⟩
  return ⟨modelPath, model⟩ :: clips

/-- Write files in order, up to the first that cannot be written. -/
def writeFiles (store : Store) : List OutputFile → Store × Except ConversionError Unit
  | [] => (store, .ok ())
  | file :: rest =>
    match store.replace file.path file.bytes with
    | .error reason => (store, .error (.inaccessible reason))
    | .ok store => writeFiles store rest

/-- Write a conversion and give the paths of its files. -/
def save (store : Store) (converted : Converted) (modelPath : Path) :
    Store × Except ConversionError (List Path) :=
  match outputFiles converted modelPath with
  | .error cause => (store, .error cause)
  | .ok files =>
    let (store, result) := writeFiles store files
    (store, result.map fun _ => files.map (·.path))

/-- The extension of model files. -/
def modelExtension : String := "bbmod"

/-- The model file next to a source. -/
def outputPath (input : Path) : Path := input.withExtension modelExtension

/-- The stem of animation names where the model's path has none. -/
def defaultStem : String := "model"

/-- What a conversion left behind. -/
structure Outcome where
  store : Store
  status : Status
  log : List LogLine

/-- What the log says about a finished conversion. -/
def finishLog (input output : Path) (converted : Converted) : LogLine :=
  ⟨.info, s!"Converted {input.quoted} -> {output.quoted} ({converted.model.meshes.length} meshes, "
    ++ s!"{converted.model.nodeCount.toNat} nodes, {converted.model.boneCount.toNat} bones, "
    ++ s!"{converted.clips.length} animations)"⟩

/-- What the log says about a failure. -/
def failureLog (what : String) (path : Path) (cause : ConversionError) : LogLine :=
  ⟨.error, s!"Failed to {what} {path.quoted}: {cause.message}"⟩

/-- Convert one source file. A failure is in the status and in the log. -/
def convertFile (store : Store) (input output : Path) (settings : Settings) : Outcome :=
  let imported := loadScene store input settings
  match imported.scene with
  | .error cause => ⟨store, .loadFailed, imported.log ++ [failureLog "load" input cause]⟩
  | .ok scene =>
    let stem := output.stem?.getD defaultStem
    let log := imported.log ++ convertLog scene settings stem
    match convert scene settings stem with
    | .error cause => ⟨store, .conversionFailed, log ++ [failureLog "convert" input cause]⟩
    | .ok converted =>
      match save store converted output with
      | (store, .error cause) => ⟨store, .saveFailed, log ++ [failureLog "save" output cause]⟩
      | (store, .ok _) => ⟨store, .success, log ++ [finishLog input output converted]⟩

end SceneBaker.Convert
