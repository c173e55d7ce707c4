import SceneBaker.Gltf.Resources
import SceneBaker.Proofs.Steps

/-! # Files behind documents

A document is read from its own file and from the files that its buffers and images name. No other
file plays a part.
-/

namespace SceneBaker.Gltf

open Files Text Steps

variable {first second : Store} {directory : Path}

/-- The path of the file that an address names. -/
def Location.path? (directory : Path) : Location → Option Path
  | inline _ _ => none
  | file path => some path
  | beside path => (Percent.decode? path).map directory.join
  | unsupported => none

/-- The path of the file that a text names as an address. -/
def uriPath? (directory : Path) (uri : String) : Option Path := (Location.ofUri uri).path? directory

/-- The document in the bytes of a file. -/
def document? (bytes : List UInt8) : Option Document :=
  (Container.ofBytes? bytes).bind fun container =>
    (Json.read? container.document).bind Document.ofJson?

/-- The paths of the files that a document names. -/
def Document.paths (document : Document) (directory : Path) : List Path :=
  (document.buffers.toList.filterMap (·.uri) ++ document.images.filterMap (·.uri)).filterMap
    (uriPath? directory)

/-- The paths of the files from which a document is read, its own first. -/
def inputs (store : Store) (path : Path) : List Path :=
  path :: match (store.read path).toOption.bind document? with
    | some document => document.paths (path.parent?.getD ".")
    | none => []

theorem mem_paths_of_buffer {document : Document} {buffer : Document.Buffer}
    (member : buffer ∈ document.buffers.toList) {uri : String} (named : buffer.uri = some uri)
    {path : Path} (leads : uriPath? directory uri = some path) : path ∈ document.paths directory :=
  List.mem_filterMap.mpr
    ⟨uri, List.mem_append_left _ (List.mem_filterMap.mpr ⟨buffer, member, named⟩), leads⟩

theorem mem_paths_of_image {document : Document} {image : Document.Image}
    (member : image ∈ document.images) {uri : String} (named : image.uri = some uri)
    {path : Path} (leads : uriPath? directory uri = some path) : path ∈ document.paths directory :=
  List.mem_filterMap.mpr
    ⟨uri, List.mem_append_right _ (List.mem_filterMap.mpr ⟨image, member, named⟩), leads⟩

/-- The same bytes are read under a path in two stores. -/
def Agree (first second : Store) (path : Path) : Prop := first.read path = second.read path

theorem Location.load_congr {location : Location}
    (same : ∀ path, location.path? directory = some path → Agree first second path) :
    location.load first directory = location.load second directory := by
  cases location with
  | inline mediaType text => rfl
  | file path => exact same path rfl
  | beside path =>
    rw [Location.load, Location.load]
    cases decoded : Percent.decode? path with
    | none => rfl
    | some path =>
      exact same _ (by rw [Location.path?, decoded]; rfl)
  | unsupported => rfl

theorem loadBuffers_congr {buffers : List Document.Buffer}
    (same : ∀ buffer ∈ buffers, ∀ uri, buffer.uri = some uri →
      ∀ path, uriPath? directory uri = some path → Agree first second path)
    (data : Option (List UInt8)) :
    loadBuffers first directory data buffers = loadBuffers second directory data buffers := by
  induction buffers generalizing data with
  | nil => rfl
  | cons buffer rest ih =>
    obtain ⟨here, later⟩ := List.forall_mem_cons.mp same
    cases named : buffer.uri with
    | none => cases data <;> simp only [loadBuffers, named, ih later]
    | some uri => simp only [loadBuffers, named, Location.load_congr (here uri named), ih later]

theorem checkImage_congr {image : Document.Image}
    (same : ∀ uri, image.uri = some uri →
      ∀ path, uriPath? directory uri = some path → Agree first second path)
    (document : Document) (buffers : Buffers) :
    checkImage first directory document buffers image =
      checkImage second directory document buffers image := by
  have loads : loadImage first directory document buffers image =
      loadImage second directory document buffers image := by
    cases viewed : image.view with
    | some view => simp only [loadImage, viewed]
    | none =>
      cases named : image.uri with
      | none => simp only [loadImage, viewed, named]
      | some uri => simp only [loadImage, viewed, named, Location.load_congr (same uri named)]
  rw [checkImage, checkImage, loads]

/-- Documents are read alike from stores that agree on their files. -/
theorem load_congr {path : Path} (same : ∀ input ∈ inputs first path, Agree first second input) :
    load first path = load second path := by
  obtain ⟨own, others⟩ := List.forall_mem_cons.mp same
  rw [load, load, ← own]
  cases contents : first.read path with
  | error reason => rfl
  | ok bytes =>
    rw [contents, Except.toOption, Option.bind_some] at others
    simp only [bind, Except.bind]
    cases packed : Container.ofBytes? bytes with
    | none => rfl
    | some container =>
      simp only
      cases parsed : (Json.read? container.document).bind Document.ofJson? with
      | none => rfl
      | some document =>
        have found : document? bytes = some document := by
          rw [document?, packed, Option.bind_some, parsed]
        rw [found] at others
        have buffers := loadBuffers_congr (fun buffer among uri named path leads =>
          others path (mem_paths_of_buffer among named leads)) container.data
        have images (loaded : Buffers) := forM_congr fun image among =>
          checkImage_congr (fun uri named path leads =>
            others path (mem_paths_of_image among named leads)) document loaded
        simp only [buffers, images]

end SceneBaker.Gltf
