import SceneBaker.Main
import SceneBaker.Proofs.Allocation
import SceneBaker.Proofs.Animation.Composition
import SceneBaker.Proofs.Animation.Interruption
import SceneBaker.Proofs.Animation.Motion
import SceneBaker.Proofs.Animation.Reencoding
import SceneBaker.Proofs.Animation.RoundTrip
import SceneBaker.Proofs.Build.Baking
import SceneBaker.Proofs.Build.Lookup
import SceneBaker.Proofs.Build.Names
import SceneBaker.Proofs.Build.NodeTree
import SceneBaker.Proofs.Build.RoundTrip
import SceneBaker.Proofs.Convert.Agreement
import SceneBaker.Proofs.Convert.Batch
import SceneBaker.Proofs.Convert.Import
import SceneBaker.Proofs.Gltf.Faces
import SceneBaker.Proofs.Gltf.Skins
import SceneBaker.Proofs.Gltf.Targets
import SceneBaker.Proofs.Hierarchy.Ancestors
import SceneBaker.Proofs.Model.Calls
import SceneBaker.Proofs.Model.Consistency
import SceneBaker.Proofs.Model.Renumbering
import SceneBaker.Proofs.Model.Revisions
import SceneBaker.Proofs.Model.RoundTrip
import SceneBaker.Proofs.Scene.Branches
import SceneBaker.Proofs.Scene.Broken
import SceneBaker.Proofs.Scene.Convertible
import SceneBaker.Proofs.Scene.Encounter
import SceneBaker.Proofs.Scene.FlatNormals
import SceneBaker.Proofs.Scene.Flatten
import SceneBaker.Proofs.Scene.Mirror
import SceneBaker.Proofs.Scene.Reduction
import SceneBaker.Proofs.Scene.SmoothNormals
import SceneBaker.Proofs.Scene.WellFormed
import SceneBaker.Proofs.Truncation
