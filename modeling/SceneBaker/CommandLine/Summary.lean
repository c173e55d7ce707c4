import SceneBaker.Convert.File

/-! # Summaries of files

A few lines about a model or an animation file, which is known by its extension.
-/

namespace SceneBaker.CommandLine

open Number Files Build Model Animation

/-- The line about a mesh. -/
def meshSummary (mesh : Mesh.Mesh) (number : Nat) : String :=
  s!"  mesh {number}: {mesh.vertices.length} vertices, format {mesh.format.text}, "
    ++ s!"material {mesh.material.toNat}"

/-- The lines about the nodes, parents first. -/
def nodeSummary (nodes : NodeTree) : List String :=
  nodes.visits.filterMap fun (position, depth) =>
    (nodes.get? position).map fun node => indent 4 ++ nodeText node depth

def modelSummary (path : Path) (model : Model) : List String :=
  s!"{path.quoted}: model version {model.version.text}"
    :: model.meshes.zipIdx.map (fun (mesh, number) => meshSummary mesh number)
    ++ s!"  nodes: {model.nodeCount.toNat}" :: nodeSummary model.nodes
    ++ [s!"  bones: {model.boneCount.toNat}",
      "  materials: " ++ ", ".intercalate model.materials]

def animationSummary (path : Path) (file : AnimationFile) : List String :=
  let version := file.version.text
  match file with
  | .frames frames =>
    let header := frames.header
    [s!"{path.quoted}: animation version {version}",
      s!"  {header.duration.text} frames at {header.rate.text} fps, spaces {header.spaces.text}",
      s!"  model: {header.nodeCount.toNat} nodes, {header.boneCount.toNat} bones"]
  | .keys keys =>
    [s!"{path.quoted}: legacy animation version {version}",
      s!"  {keys.duration.text} ticks at {keys.rate.text} tps, {keys.tracks.length} tracks"]

/-- The lines about a file, if it has a known extension and can be read. -/
def summary? (store : Store) (path : Path) : Option (List String) :=
  match path.extension?.map String.toLower with
  | some "bbmod" => (Convert.loadModel store path).toOption.map (modelSummary path)
  | some "bbanim" => (Convert.loadAnimation store path).toOption.map (animationSummary path)
  | _ => none

end SceneBaker.CommandLine
