import SceneBaker.Gltf.Import
import SceneBaker.Scene.Processing

/-! # Source files

A source file is known by its extension. Reading one gives a scene or a cause, and lines for the log
either way.
-/

namespace SceneBaker.Convert

open Number Files Build Scene

/-- The extensions of source files. -/
def sourceExtensions : List String := ["gltf", "glb"]

/-- Whether a path has the extension of a source file, in any case. -/
def isSource (path : Path) : Bool :=
  path.extension?.any fun ext => sourceExtensions.contains ext.toLower

/-- A scene that was read, or why there is none. -/
structure Imported where
  scene : Except ConversionError (Scene Single)
  log : List LogLine := []

/-- What the log says about a scene. -/
def importLog (path : Path) (scene : Scene Single) : LogLine :=
  ⟨.debug, s!"Imported {path.quoted}: {scene.nodes.size} nodes, {scene.meshes.size} meshes, "
    ++ s!"{scene.materials.size} materials, {scene.clips.length} animations"⟩

/-- Read the scene of a source file as it is. -/
def importScene (store : Store) (path : Path) : Imported :=
  if isSource path then
    match Gltf.load store path with
    | .error reason => ⟨.error (.notImported (.unreadable path reason)), []⟩
    | .ok loaded =>
      match loaded.toScene with
      | .error cause => ⟨.error cause, loaded.log⟩
      | .ok scene => ⟨.ok scene, loaded.log ++ [importLog path scene]⟩
  else ⟨.error (.notImported (.unknownType path)), []⟩

/-- Read a scene and process it as the settings ask. -/
def loadScene (store : Store) (path : Path) (settings : Settings) : Imported :=
  let imported := importScene store path
  match imported.scene with
  | .error cause => ⟨.error cause, imported.log⟩
  | .ok scene =>
    let (processed, log) := Step.applyAll scene (Step.ofSettings settings)
    ⟨.ok processed, imported.log ++ log⟩

end SceneBaker.Convert
