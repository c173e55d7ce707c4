import SceneBaker.Proofs.Build.Corners
import SceneBaker.Proofs.Scene.Meshes

/-! # Flat normals

Flat normals take the vertices of a mesh apart, so that every corner has its own. A copy says what
its source says, but for the normal, and is moved by what moves its source, in the same order. So a
mesh is built from the same corners with flat normals and without.
-/

set_option linter.dupNamespace false

namespace SceneBaker.Scene

open Number SceneBaker.Geometry Mesh

/-- Every attribute that a mesh has comes with an entry for every vertex. -/
def SourceMesh.Filled {α : Type} (mesh : SourceMesh α) : Prop :=
  ∀ size, some size ∈ mesh.attributeSizes → size = mesh.positions.size

/-- Entries of joined lists of one length. -/
theorem getElem?_flatten_of_length {β : Type} {count : Nat} {parts : List (List β)}
    (full : ∀ part ∈ parts, part.length = count) (number : Nat) {place : Nat}
    (small : place < count) :
    parts.flatten[count * number + place]? = parts[number]?.bind (·[place]?) := by
  induction parts generalizing number with
  | nil => rfl
  | cons part parts ih =>
    obtain ⟨here, others⟩ := List.forall_mem_cons.mp full
    rw [List.flatten_cons]
    cases number with
    | zero =>
      rw [Nat.mul_zero, Nat.zero_add, List.getElem?_append_left (by omega)]
      rfl
    | succ number =>
      have behind : count * (number + 1) + place - part.length = count * number + place := by
        rw [here, Nat.mul_succ]
        omega
      rw [List.getElem?_append_right (by rw [here, Nat.mul_succ]; omega), behind, ih others]
      rfl

namespace SourceMesh

variable {mesh : SourceMesh Single} {sources : List Nat} {copy source count : Nat}

/-! ## Copies -/

/-- Numbered entries of one number. -/
theorem filter_zipIdx_eq (found : sources[copy]? = some source) :
    sources.zipIdx.filter (· = (source, copy)) = [(source, copy)] := by
  have member : (source, copy) ∈ sources.zipIdx := List.mem_zipIdx_iff_getElem?.mpr found
  have distinct : sources.zipIdx.Nodup := by
    refine List.Nodup.of_map Prod.snd ?_
    rw [List.zipIdx_map_snd]
    exact List.nodup_range'
  rw [List.filter_eq, List.count_eq_one_of_mem distinct member, List.replicate_one]

/-- A copy is one of its source and of no other vertex. -/
theorem filter_copies (found : sources[copy]? = some source) (inside : source < count)
    (few : sources.length ≤ 2 ^ 32) (vertex : Nat) :
    ((copies count sources)[vertex]?.getD []).filter (·.toNat = copy) =
      if vertex = source then [UInt32.ofNat copy] else [] := by
  have number (entry : Nat × Nat) (member : entry ∈ sources.zipIdx) :
      (UInt32.ofNat entry.2).toNat = entry.2 := by
    have below : entry.2 < sources.length := by simpa using List.snd_lt_of_mem_zipIdx member
    exact UInt32.toNat_ofNat_of_lt' (below.trans_le few)
  -- Among the copies of a vertex, the one of a number is there if it was made of the vertex.
  have single (entry : Nat × Nat) (member : entry ∈ sources.zipIdx) :
      (UInt32.ofNat entry.2).toNat = copy ∧ entry.1 = vertex ↔
        vertex = source ∧ entry = (source, copy) := by
    obtain ⟨origin, position⟩ := entry
    have same := List.mem_zipIdx_iff_getElem?.mp member
    rw [number _ member, Prod.mk.injEq]
    constructor
    · rintro ⟨rfl, rfl⟩
      obtain rfl := Option.some_inj.mp (same.symm.trans found)
      exact ⟨rfl, rfl, rfl⟩
    · rintro ⟨rfl, rfl, rfl⟩
      exact ⟨rfl, rfl⟩
  rw [getElem?_copies]
  by_cases here : vertex = source
  · rw [if_pos (here ▸ inside), if_pos here, Option.getD_some, List.filter_map, List.filter_filter]
    have only : sources.zipIdx.filter (fun entry =>
        decide ((UInt32.ofNat entry.2).toNat = copy) && decide (entry.1 = vertex)) =
        sources.zipIdx.filter (· = (source, copy)) := by
      refine List.filter_congr fun entry member => ?_
      rw [← Bool.decide_and, decide_eq_decide, single entry member, and_iff_right here]
    exact congrArg _ (only.trans (filter_zipIdx_eq found))
  · rw [if_neg here, List.filter_eq_nil_iff]
    intro other member same
    split at member
    case isFalse => cases member
    case isTrue =>
      obtain ⟨entry, among, rfl⟩ := List.mem_map.mp member
      obtain ⟨listed, origin⟩ := List.mem_filter.mp among
      exact here ((single entry listed).mp ⟨of_decide_eq_true same, of_decide_eq_true origin⟩).1

variable (faces : List (List UInt32)) (normals : List (Vec3 Single))
  (found : sources[copy]? = some source) (inside : source < mesh.positions.size)

include found inside

/-- What moves a vertex moves its copies, in the same order. -/
theorem influencesAt_unshare (few : sources.length ≤ 2 ^ 32) :
    influencesAt (mesh.unshare sources faces normals).bones copy =
      influencesAt mesh.bones source := by
  have bones : (mesh.unshare sources faces normals).bones = mesh.bones.map fun bone =>
      { bone with
        weights := bone.weights.flatMap fun weight =>
          ((copies mesh.positions.size sources)[weight.vertex.toNat]?.getD []).map
            fun vertex => { weight with vertex } } := rfl
  rw [bones, influencesAt, List.flatMap_map, influencesAt]
  refine List.flatMap_congr fun bone _ => ?_
  dsimp only
  induction bone.weights with
  | nil => rfl
  | cons weight weights ih =>
    have copied := filter_copies found inside few weight.vertex.toNat
    rw [List.flatMap_cons, List.filter_append, List.map_append, ih, List.filter_map]
    simp only [Function.comp_def, copied]
    by_cases here : weight.vertex.toNat = source <;> simp [here]

omit inside in
theorem attributeAt_pick {β : Type} {values : Option (Array β)} (fits : Fits count values)
    (below : source < count) (default : β) :
    attributeAt (values.map fun values =>
      (sources.map fun source => values[source]?.getD default).toArray) copy =
      attributeAt values source := by
  cases values with
  | none => rfl
  | some values =>
    have within : source < values.size := by rwa [fits values rfl]
    simp [attributeAt, found, within]

/-- A copy says what its source says, but for the normal. -/
theorem vertexData_unshare (filled : mesh.Filled) (few : sources.length ≤ 2 ^ 32) :
    (mesh.unshare sources faces normals).vertexData copy =
      { mesh.vertexData source with normal := normals[copy]? } := by
  have fits {β : Type} (values : Option (Array β))
      (listed : values.map Array.size ∈ mesh.attributeSizes) : Fits mesh.positions.size values :=
    fits_iff.mpr fun size held => filled size (held ▸ listed)
  have position : (mesh.unshare sources faces normals).position copy = mesh.position source := by
    simp [SourceMesh.position, unshare, found]
  rw [vertexData, position, VertexData.mk.injEq]
  refine ⟨rfl, ?_, attributeAt_pick found (fits mesh.uv0 ?_) inside 0,
    attributeAt_pick found (fits mesh.uv1 ?_) inside 0,
    attributeAt_pick found (fits mesh.colors ?_) inside _,
    attributeAt_pick found (fits mesh.tangents ?_) inside 0,
    attributeAt_pick found (fits mesh.bitangents ?_) inside 0,
    influencesAt_unshare faces normals found inside few⟩
  · simp [attributeAt, unshare]
  all_goals simp [attributeSizes]

omit found inside

/-! ## Faces -/

/-- Faces that number the corners of so many triangles. -/
def numberedFaces (count : Nat) : List (List UInt32) :=
  (List.range count).map fun face =>
    [UInt32.ofNat (3 * face), UInt32.ofNat (3 * face + 1), UInt32.ofNat (3 * face + 2)]

/-- The normal of each corner of each triangle, which is that of the triangle. -/
def flatNormals (mesh : SourceMesh Single) : List (Vec3 Single) :=
  (mesh.triangles.map fun corners =>
    List.replicate 3 (mesh.areaNormal corners).normalizeOrZero).flatten

variable (full : ∀ face ∈ mesh.faces, face.length = 3) (cornered : mesh.Cornered)

include full cornered

/-- All faces are triangles, with their corners. -/
theorem forall₂_triangles : List.Forall₂ (fun face corners =>
    face.map UInt32.toNat = [corners.1, corners.2.1, corners.2.2]) mesh.faces mesh.triangles := by
  rw [triangles]
  rw [Cornered] at cornered
  generalize mesh.faces = faces at full cornered ⊢
  induction faces with
  | nil => exact .nil
  | cons face faces ih =>
    obtain ⟨three, others⟩ := List.forall_mem_cons.mp full
    obtain ⟨within, rest⟩ := List.forall_mem_cons.mp cornered
    obtain ⟨a, b, c, rfl⟩ := List.length_eq_three.mp three
    have valid : mesh.triangle? [a, b, c] = some (a.toNat, b.toNat, c.toNat) :=
      if_pos (by simpa using within)
    rw [List.filterMap_cons_some valid]
    exact .cons rfl (ih others rest)

theorem length_triangles : mesh.triangles.length = mesh.faces.length :=
  (forall₂_triangles full cornered).length_eq.symm

/-- The vertices of a mesh of triangles are taken apart corner by corner. -/
theorem withFlatNormals_eq : mesh.withFlatNormals =
    mesh.unshare (mesh.faces.map (·.map UInt32.toNat)).flatten (numberedFaces mesh.faces.length)
      mesh.flatNormals := by
  have all : mesh.allTriangles = true := by
    refine List.all_eq_true.mpr fun face member => ?_
    obtain ⟨a, b, c, rfl⟩ := List.length_eq_three.mp (full face member)
    have valid : mesh.triangle? [a, b, c] = some (a.toNat, b.toNat, c.toNat) :=
      if_pos (by simpa using cornered _ member)
    rw [valid]
    rfl
  have sources : mesh.faces.map (·.map UInt32.toNat) =
      mesh.triangles.map fun corners => [corners.1, corners.2.1, corners.2.2] := by
    rw [← List.forall₂_eq_eq_eq, List.forall₂_map_left_iff, List.forall₂_map_right_iff]
    exact forall₂_triangles full cornered
  rw [withFlatNormals, if_pos all, sources, ← List.flatMap_def, flatNormals, ← List.flatMap_def,
    ← length_triangles full cornered]
  rfl

omit full cornered

/-- 32 bits number the corners of so many triangles. -/
theorem toNat_ofNat_corner {count face place : Nat} (few : 3 * count ≤ 2 ^ 32) (below : face < count)
    (small : place < 3) : (UInt32.ofNat (3 * face + place)).toNat = 3 * face + place := by
  refine UInt32.toNat_ofNat_of_lt' ?_
  change _ < 2 ^ 32
  omega

theorem map_numberedFaces {count : Nat} (few : 3 * count ≤ 2 ^ 32) :
    (numberedFaces count).map (·.map UInt32.toNat) =
      (List.range count).map fun face => [3 * face, 3 * face + 1, 3 * face + 2] := by
  rw [numberedFaces, List.map_map]
  refine List.map_congr_left fun face member => ?_
  have number (place : Nat) (small : place < 3) :=
    toNat_ofNat_corner few (List.mem_range.mp member) small
  simp only [Function.comp_apply, List.map_cons, List.map_nil, number 1 (by decide),
    number 2 (by decide)]
  exact congrArg (· :: _) (number 0 (by decide))

/-- New faces have copies of the corners of the old ones. -/
theorem copied_numberedFaces (few : 3 * mesh.faces.length ≤ 2 ^ 32)
    (full : ∀ face ∈ mesh.faces, face.length = 3) :
    List.Forall₂ (List.Forall₂ fun new old =>
      (mesh.faces.map (·.map UInt32.toNat)).flatten[new.toNat]? = some old.toNat)
      (numberedFaces mesh.faces.length) mesh.faces := by
  refine List.forall₂_iff_get.mpr ⟨by simp [numberedFaces], fun face _ inside => ?_⟩
  have parts : ∀ part ∈ mesh.faces.map (·.map UInt32.toNat), part.length = 3 := by
    simpa using full
  obtain ⟨a, b, c, corners⟩ := List.length_eq_three.mp (full _ (List.getElem_mem inside))
  have corner (place : Nat) (small : place < 3) :
      (mesh.faces.map (·.map UInt32.toNat)).flatten[(UInt32.ofNat (3 * face + place)).toNat]? =
        [a.toNat, b.toNat, c.toNat][place]? := by
    rw [toNat_ofNat_corner few inside small, getElem?_flatten_of_length parts face small,
      List.getElem?_map, List.getElem?_eq_getElem inside, corners]
    rfl
  simp only [List.get_eq_getElem, numberedFaces, List.getElem_map, List.getElem_range, corners]
  exact .cons (corner 0 (by decide)) (.cons (corner 1 (by decide))
    (.cons (corner 2 (by decide)) .nil))

/-- The corners of a new face share a normal. -/
theorem exists_normal_of_mem_numberedFaces (few : 3 * mesh.triangles.length ≤ 2 ^ 32)
    {face : List UInt32} (member : face ∈ numberedFaces mesh.triangles.length) :
    ∃ corners ∈ mesh.triangles, ∀ corner ∈ face, mesh.flatNormals[corner.toNat]? =
      some (mesh.areaNormal corners).normalizeOrZero := by
  obtain ⟨number, listed, rfl⟩ := List.mem_map.mp member
  have inside := List.mem_range.mp listed
  have parts : ∀ part ∈ mesh.triangles.map fun corners =>
      List.replicate 3 (mesh.areaNormal corners).normalizeOrZero, part.length = 3 :=
    List.forall_mem_map.mpr fun _ _ => List.length_replicate
  have entry (place : Nat) (small : place < 3) :
      mesh.flatNormals[(UInt32.ofNat (3 * number + place)).toNat]? =
        some (mesh.areaNormal mesh.triangles[number]).normalizeOrZero := by
    rw [toNat_ofNat_corner few inside small, flatNormals, getElem?_flatten_of_length parts _ small,
      List.getElem?_map, List.getElem?_eq_getElem inside, Option.map_some, Option.bind_some,
      List.getElem?_replicate, if_pos small]
  refine ⟨_, List.getElem_mem inside, fun corner among => ?_⟩
  simp only [List.mem_cons, List.not_mem_nil, or_false] at among
  rcases among with rfl | rfl | rfl
  · exact entry 0 (by decide)
  · exact entry 1 (by decide)
  · exact entry 2 (by decide)

end SourceMesh

end SceneBaker.Scene

namespace SceneBaker.Build

open Number SceneBaker.Geometry Mesh Scene

variable {mesh : SourceMesh Single} {skeleton : Skeleton} {settings : Settings}

/-! ## Built meshes -/

/-- A vertex without what depends on its normal. -/
def unlit (vertex : Vertex) : Vertex := { vertex with normal := 0, bitangentSign := 1 }

/-- The normal of a source vertex only matters to what depends on it. -/
theorem unlit_cornerOf (format : VertexFormat) (skeleton : Skeleton) (settings : Settings)
    (data : VertexData) (stored : Bool) (normal : Option (Vec3 Single)) :
    unlit (cornerOf { format with normal := stored } skeleton settings
      { data with normal := normal }) = unlit (cornerOf format skeleton settings data) := rfl

/-- Corners of which the same is said come in the same order. -/
theorem forall₂_wound {R : UInt32 → UInt32 → Prop} {new old : List UInt32}
    (corners : List.Forall₂ R new old) (settings : Settings) :
    List.Forall₂ R (wound settings new) (wound settings old) := by
  rw [wound, wound]
  split
  · exact List.rel_reverse corners
  · exact corners

/-- Faces of their primitive have as many vertices as it has corners. -/
theorem length_vertices_expanded {source : SourceMesh Single} (faced : source.Faced)
    (format : VertexFormat) (skeleton : Skeleton) (settings : Settings) :
    (expanded source format skeleton settings).vertices.length =
      source.faces.length * source.primitive.corners := by
  have each : ∀ face ∈ source.faces,
      (cornersOf source format skeleton settings face).length = source.primitive.corners := by
    intro face member
    rw [cornersOf, List.length_map, length_wound]
    exact faced face member
  rw [expanded, List.length_flatMap, List.map_congr_left each, List.map_const',
    List.sum_replicate_nat]

/-- Meshes that are taken apart get normals, and lose no other attribute. -/
theorem vertexFormat_unshare (mesh : SourceMesh Single) (sources : List Nat)
    (faces : List (List UInt32)) (normals : List (Vec3 Single)) (settings : Settings) :
    vertexFormat (mesh.unshare sources faces normals) settings =
      { vertexFormat mesh settings with normal := !settings.disableNormals } := by
  simp [vertexFormat, SourceMesh.unshare, SourceMesh.hasNormals, SourceMesh.hasTangents,
    SourceMesh.hasBones]

/-- Taken apart, a mesh is built from the same vertices but for their normals. -/
theorem map_unlit_vertices (filled : mesh.Filled) (full : ∀ face ∈ mesh.faces, face.length = 3)
    (cornered : mesh.Cornered) (few : 3 * mesh.faces.length ≤ 2 ^ 32) (format : VertexFormat)
    (stored : Bool) (skeleton : Skeleton) (settings : Settings) :
    (expanded mesh.withFlatNormals { format with normal := stored } skeleton settings).vertices.map
        unlit =
      (expanded mesh format skeleton settings).vertices.map unlit := by
  generalize flat : mesh.withFlatNormals = taken
  rw [SourceMesh.withFlatNormals_eq full cornered] at flat
  generalize made : (mesh.faces.map (·.map UInt32.toNat)).flatten = sources at flat
  have faces : taken.faces = SourceMesh.numberedFaces mesh.faces.length := flat ▸ rfl
  have length : sources.length ≤ 2 ^ 32 := by
    have three : ∀ face ∈ mesh.faces, (face.map UInt32.toNat).length = 3 := by simpa using full
    rw [← made, List.length_flatten, List.map_map, Function.comp_def, List.map_congr_left three,
      List.map_const', List.sum_replicate_nat, Nat.mul_comm]
    exact few
  have corner {new old : UInt32} (found : sources[new.toNat]? = some old.toNat) :
      unlit (cornerOf { format with normal := stored } skeleton settings
        (taken.vertexData new.toNat)) =
      unlit (cornerOf format skeleton settings (mesh.vertexData old.toNat)) := by
    have listed := List.mem_of_getElem? found
    rw [← made, List.mem_flatten] at listed
    obtain ⟨_, member, among⟩ := listed
    obtain ⟨face, held, rfl⟩ := List.mem_map.mp member
    obtain ⟨vertex, here, same⟩ := List.mem_map.mp among
    have inside : old.toNat < mesh.positions.size := same ▸ cornered face held vertex here
    rw [← flat, SourceMesh.vertexData_unshare _ _ found inside filled length]
    exact unlit_cornerOf ..
  have copied := SourceMesh.copied_numberedFaces few full
  rw [made, ← faces] at copied
  simp only [expanded]
  rw [List.map_flatMap, List.map_flatMap, List.flatMap_def, List.flatMap_def]
  refine congrArg List.flatten ?_
  rw [← List.forall₂_eq_eq_eq, List.forall₂_map_left_iff, List.forall₂_map_right_iff]
  refine copied.imp fun new old corners => ?_
  rw [cornersOf, cornersOf, List.map_map, List.map_map, ← List.forall₂_eq_eq_eq,
    List.forall₂_map_left_iff, List.forall₂_map_right_iff]
  exact (forall₂_wound corners settings).imp fun _ _ found => corner found

/-- Taken apart, a mesh is the same up to the normals of its vertices. -/
theorem unlit_expanded (filled : mesh.Filled) (full : ∀ face ∈ mesh.faces, face.length = 3)
    (cornered : mesh.Cornered) (few : 3 * mesh.faces.length ≤ 2 ^ 32) (format : VertexFormat)
    (stored : Bool) (skeleton : Skeleton) (settings : Settings) :
    let before := expanded mesh format skeleton settings
    let after := expanded mesh.withFlatNormals { format with normal := stored } skeleton settings
    { after with format := before.format, vertices := after.vertices.map unlit } =
      { before with vertices := before.vertices.map unlit } := by
  intro before after
  have same : after.vertices.map unlit = before.vertices.map unlit :=
    map_unlit_vertices filled full cornered few format stored skeleton settings
  have apart := SourceMesh.withFlatNormals_eq full cornered
  have material : after.material = before.material :=
    (congrArg SourceMesh.material apart : mesh.withFlatNormals.material = _)
  have primitive : after.primitive = before.primitive :=
    (congrArg SourceMesh.primitive apart : mesh.withFlatNormals.primitive = _)
  -- Bounds are those of the positions, which do not depend on normals.
  have positions (vertices : List Vertex) : vertices.map (·.position) =
      (vertices.map unlit).map (·.position) := by
    rw [List.map_map]
    rfl
  have bounds : after.bounds = before.bounds := by
    refine congrArg Bounds.ofPoints? ?_
    rw [positions, positions (mesh.faces.flatMap _)]
    exact congrArg _ same
  rw [material, primitive, bounds, same]

/-- A mesh of triangles without normals that has all it refers to is built from as many vertices with
flat normals as without. As long as 32 bits can number its corners, these are the same in the same
order but for what depends on the normal, every face has its own three vertices, and the corners of a
face share a normal. -/
theorem exists_unlit_withNormals (triangles : mesh.primitive = .triangles)
    (bare : mesh.normals = none) (faced : mesh.Faced) (cornered : mesh.Cornered)
    (filled : mesh.Filled) (weighted : mesh.Weighted)
    (known : ∀ bone ∈ mesh.bones, bone.name ∈ skeleton.names) (settings : Settings) :
    ∃ before after,
      buildMesh mesh (vertexFormat mesh settings) skeleton settings = .ok before ∧
      buildMesh (mesh.withNormals .flat) (vertexFormat (mesh.withNormals .flat) settings) skeleton
        settings = .ok after ∧
      { after.format with normal := before.format.normal } = before.format ∧
      after.vertices.length = before.vertices.length ∧
      (3 * mesh.faces.length ≤ 2 ^ 32 →
        { after with format := before.format, vertices := after.vertices.map unlit } =
          { before with vertices := before.vertices.map unlit } ∧
        (mesh.withNormals .flat).faces.map (·.map UInt32.toNat) =
          (List.range mesh.faces.length).map
            (fun face => [3 * face, 3 * face + 1, 3 * face + 2]) ∧
        ∀ face ∈ (mesh.withNormals .flat).faces, ∃ normal, ∀ corner ∈ face,
          attributeAt (mesh.withNormals .flat).normals corner.toNat = some normal) := by
  have lacks : mesh.lacksNormals = true := by simp [SourceMesh.lacksNormals, bare, triangles]
  have full : ∀ face ∈ mesh.faces, face.length = 3 := by
    rw [SourceMesh.Faced, triangles] at faced
    exact faced
  have flat : mesh.withNormals .flat = mesh.withFlatNormals := by
    rw [SourceMesh.withNormals.eq_def, if_pos lacks]
  have apart := SourceMesh.withFlatNormals_eq full cornered
  have faces : mesh.withFlatNormals.faces = SourceMesh.numberedFaces mesh.faces.length := apart ▸ rfl
  have primitive : mesh.withFlatNormals.primitive = mesh.primitive := apart ▸ rfl
  have format : vertexFormat mesh.withFlatNormals settings =
      { vertexFormat mesh settings with normal := !settings.disableNormals } := by
    rw [apart, vertexFormat_unshare]
  have buildable : mesh.BuildableIn (vertexFormat mesh settings) skeleton :=
    ⟨faced, cornered, fun _ => known, fun _ => weighted⟩
  have shape := SourceMesh.reshaped_withFlatNormals lacks
  rw [flat, format]
  refine ⟨_, _, buildMesh_eq_ok_iff.mpr ⟨buildable, rfl⟩,
    buildMesh_eq_ok_iff.mpr ⟨shape.buildableIn buildable rfl, rfl⟩, rfl, ?_, fun few => ⟨?_, ?_, ?_⟩⟩
  · rw [length_vertices_expanded (shape.faced_iff.mpr faced), length_vertices_expanded faced, faces,
      primitive, SourceMesh.numberedFaces, List.length_map, List.length_range]
  · exact unlit_expanded filled full cornered few _ _ skeleton settings
  · rw [faces]
    exact SourceMesh.map_numberedFaces few
  · intro face member
    rw [← SourceMesh.length_triangles full cornered] at few faces
    obtain ⟨corners, -, shared⟩ := SourceMesh.exists_normal_of_mem_numberedFaces few (faces ▸ member)
    refine ⟨_, fun corner among => (?_ : _ = _).trans (shared corner among)⟩
    rw [apart]
    simp [attributeAt, SourceMesh.unshare]

/-- Two triangles with a common edge, and a vertex that no face has. -/
def kite : SourceMesh Single where
  positions := #[0, ⟨1, 0, 0⟩, ⟨1, 1, 0⟩, ⟨0, 1, 0⟩, ⟨1, 1, 1⟩]
  uv0 := some #[0, ⟨1, 0⟩, ⟨1, 1⟩, ⟨0, 1⟩, 0]
  faces := [[0, 1, 2], [0, 2, 3]]
  bones := [⟨"spine", 1, [⟨0, 1⟩, ⟨4, 1⟩, ⟨0, 0⟩]⟩, ⟨"spar", 1, [⟨2, 1⟩, ⟨0, -1⟩]⟩,
    ⟨"spine", 1, [⟨0, 1⟩]⟩]

theorem exists_unlit_withNormals_kite :
    let frame : Skeleton := ⟨[⟨"spar", 0, 1⟩, ⟨"spine", 1, 1⟩]⟩
    kite.primitive = .triangles ∧ kite.normals = none ∧ kite.Faced ∧ kite.Cornered ∧ kite.Filled ∧
    kite.Weighted ∧ (∀ bone ∈ kite.bones, bone.name ∈ frame.names) ∧
    ∃ before after, buildMesh kite (vertexFormat kite {}) frame {} = .ok before ∧
      buildMesh (kite.withNormals .flat) (vertexFormat (kite.withNormals .flat) {}) frame {} =
        .ok after ∧
      after.vertices.map unlit = before.vertices.map unlit ∧
      (kite.withNormals .flat).faces.map (·.map UInt32.toNat) = [[0, 1, 2], [3, 4, 5]] := by
  intro frame
  have faced : kite.Faced := by
    unfold SourceMesh.Faced
    decide
  have cornered : kite.Cornered := by simp [SourceMesh.Cornered, kite]
  have filled : kite.Filled := by simp [SourceMesh.Filled, SourceMesh.attributeSizes, kite]
  have weighted : kite.Weighted := by
    unfold SourceMesh.Weighted
    decide
  have known : ∀ bone ∈ kite.bones, bone.name ∈ frame.names := by decide
  obtain ⟨before, after, first, second, -, -, same⟩ :=
    exists_unlit_withNormals rfl rfl faced cornered filled weighted known {}
  obtain ⟨alike, faces, -⟩ := same (by decide)
  exact ⟨rfl, rfl, faced, cornered, filled, weighted, known, before, after, first, second,
    congrArg Mesh.Mesh.vertices alike, faces⟩

end SceneBaker.Build
