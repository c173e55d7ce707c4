import SceneBaker.Build.Error
import SceneBaker.Scene.Normals
import SceneBaker.Scene.Reduce
import SceneBaker.Scene.Transform

/-! # Processing scenes

The steps between reading a scene and building a model, each switched by the settings and always in
the same order. `Step.log` says what the log shows about a step.
-/

namespace SceneBaker.Scene

open Number SceneBaker.Geometry Build

/-- A step of processing. -/
inductive Step where
  | mirror
  | flatten
  | scale (factor : Single)
  | normals (mode : NormalMode)
  | tangents
  | mergeMaterials
  | mergeMeshes
  | pruneNodes
deriving DecidableEq

namespace Step

def apply (scene : Scene Single) : Step → Scene Single
  | mirror => scene.mirror
  | flatten => scene.flatten
  | scale factor => scene.scale factor
  | normals mode => scene.generateNormals mode
  | tangents => scene.generateTangents
  | mergeMaterials => scene.mergeMaterials
  | mergeMeshes => scene.mergeMeshes
  | pruneNodes => scene.pruneNodes

/-- A line about a count that changed. -/
def countLog (what : String) (before after : Nat) : List LogLine :=
  if before = after then [] else [⟨.debug, s!"{what}: {before} -> {after}"⟩]

/-- What the log says about the normals of one mesh. -/
def normalLog (mode : NormalMode) (mesh : SourceMesh Single) : List LogLine :=
  if mesh.lacksNormals then
    if (mesh.withNormals mode).hasNormals then
      [⟨.debug, s!"Generated {mode.label} normals for \"{mesh.name}\""⟩]
    else if mode = .flat then
      [⟨.warn, s!"Mesh \"{mesh.name}\" has faces that are not valid triangles, skipping flat "
        ++ "normals"⟩]
    else []
  else []

/-- What the log says about a step on a scene. -/
def log (scene : Scene Single) (step : Step) : List LogLine :=
  match step with
  | mirror | scale _ => []
  | flatten =>
    if scene.clips.isEmpty then []
    else [⟨.warn, s!"Pre-transform drops {scene.clips.length} animation(s)"⟩]
  | normals mode => scene.meshes.toList.flatMap (normalLog mode)
  | tangents =>
    (scene.meshes.toList.filter (·.lacksTangents)).map fun mesh =>
      ⟨.debug, s!"Generated tangents for \"{mesh.name}\""⟩
  | mergeMaterials =>
    countLog "Materials" scene.materials.size scene.mergeMaterials.materials.size
  | mergeMeshes => countLog "Meshes" scene.meshes.size scene.mergeMeshes.meshes.size
  | pruneNodes => countLog "Nodes" scene.nodes.size scene.pruneNodes.nodes.size

/-- The steps that settings switch on. -/
def ofSettings (settings : Settings) : List Step :=
  let given (switch : Bool) (step : Step) : List Step := if switch then [step] else []
  given settings.leftHanded mirror
    ++ given settings.preTransform flatten
    ++ given (settings.applyScale && !settings.scaleFactor.numEq 1) (scale settings.scaleFactor)
    ++ given (!settings.disableNormals && settings.normalMode != .none)
      (normals settings.normalMode)
    ++ given (!settings.disableTangents) tangents
    ++ given settings.optimizeMaterials mergeMaterials
    ++ given settings.optimizeMeshes mergeMeshes
    ++ given settings.optimizeNodes pruneNodes

/-- Carry out steps and collect what the log says. -/
def applyAll (scene : Scene Single) (steps : List Step) : Scene Single × List LogLine :=
  steps.foldl (fun (scene, lines) step => (step.apply scene, lines ++ step.log scene)) (scene, [])

end Step

/-- The scene that a model is built from. -/
def Scene.process (scene : Scene Single) (settings : Settings) : Scene Single :=
  (Step.ofSettings settings).foldl Step.apply scene

end SceneBaker.Scene
