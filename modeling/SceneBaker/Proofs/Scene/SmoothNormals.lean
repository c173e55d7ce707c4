import SceneBaker.Scene.Normals

/-! # Smooth normals

A smooth normal sums up the triangles around a place, in the order of the faces, so all vertices at
that place share it. Places are told apart by their bits. That also tells the two zeros apart, which
are equal as numbers: where a seam lies in a coordinate plane, its sides share their normals only if
they agree in the signs of their zeros.
-/

namespace SceneBaker.Number.Single

variable {x y : Single}

/-- Equal numbers of one sign have the same bits. -/
theorem eq_of_numEq (equal : x.numEq y = true) (sign : x.negative = y.negative) : x = y := by
  have same : x.key = y.key := by
    simp only [numEq, Bool.and_eq_true, beq_iff_eq] at equal
    exact equal.2
  have magnitude : x.magnitude = y.magnitude := by
    rw [key, key, sign] at same
    split at same <;> omega
  have bits : x.bits.toNat = y.bits.toNat := by
    have width : Layout.single.signBit = 2 ^ 31 := rfl
    have small := x.bits.toNat_lt
    have small' := y.bits.toNat_lt
    simp only [Single.magnitude, negative, decide_eq_decide, width] at magnitude sign
    omega
  exact congrArg Single.mk (UInt32.toNat_inj.mp bits)

end SceneBaker.Number.Single

namespace SceneBaker.Geometry.Vec3

open Number

variable {a b : Vec3 Single}

/-- Components of the same signs, which includes the signs of zeros. -/
structure SameSigns (a b : Vec3 Single) : Prop where
  x : a.x.negative = b.x.negative
  y : a.y.negative = b.y.negative
  z : a.z.negative = b.z.negative

theorem eq_of_numEq (equal : a.numEq b = true) (signs : a.SameSigns b) : a = b := by
  simp only [numEq, Bool.and_eq_true] at equal
  obtain ⟨⟨x, y⟩, z⟩ := equal
  rw [Vec3.mk.injEq]
  exact ⟨Single.eq_of_numEq x signs.x, Single.eq_of_numEq y signs.y, Single.eq_of_numEq z signs.z⟩

end SceneBaker.Geometry.Vec3

namespace SceneBaker.Scene

open Number SceneBaker.Geometry

/-- Sums by key hold of each key its own terms, in their order. -/
theorem getD_foldl_insert {κ ν : Type} [Hashable κ] [DecidableEq κ] [Zero ν] [Add ν]
    (terms : List (κ × ν)) (sums : Std.HashMap κ ν) (key : κ) :
    (terms.foldl (fun sums term => sums.insert term.1 (sums.getD term.1 0 + term.2)) sums).getD
        key 0 =
      ((terms.filter (·.1 = key)).map Prod.snd).foldl (· + ·) (sums.getD key 0) := by
  induction terms generalizing sums with
  | nil => rfl
  | cons term terms ih =>
    rw [List.foldl_cons, ih, Std.HashMap.getD_insert]
    by_cases own : term.1 = key
    · rw [List.filter_cons_of_pos (by simpa using own), if_pos (by simpa using own), own]
      rfl
    · rw [List.filter_cons_of_neg (by simpa using own), if_neg (by simpa using own)]

namespace SourceMesh

variable {mesh : SourceMesh Single}

/-- The places of all corners of triangles, in the order of the faces, each with the area normal of
its triangle. -/
def areaTerms (mesh : SourceMesh Single) : List (Vec3 Single × Vec3 Single) :=
  mesh.triangles.flatMap fun corners =>
    [corners.1, corners.2.1, corners.2.2].map fun corner =>
      (mesh.position corner, mesh.areaNormal corners)

/-- The sum of the area normals around a place. -/
def placeSum (mesh : SourceMesh Single) (place : Vec3 Single) : Vec3 Single :=
  ((mesh.areaTerms.filter (·.1 = place)).map Prod.snd).foldl (· + ·) 0

/-- The direction of the triangles around a place; zero where there are none. -/
def smoothNormal (mesh : SourceMesh Single) (place : Vec3 Single) : Vec3 Single :=
  (mesh.placeSum place).normalizeOrZero

theorem getD_weldedNormals (mesh : SourceMesh Single) (place : Vec3 Single) :
    mesh.weldedNormals.getD place 0 = mesh.placeSum place := by
  have flat : mesh.weldedNormals = mesh.areaTerms.foldl
      (fun sums term => sums.insert term.1 (sums.getD term.1 0 + term.2)) ∅ := by
    rw [areaTerms, List.foldl_flatMap, weldedNormals]
    rfl
  rw [flat, getD_foldl_insert, Std.HashMap.getD_empty, placeSum]

/-- Every vertex gets the normal of its place. -/
theorem withSmoothNormals_eq (mesh : SourceMesh Single) :
    mesh.withSmoothNormals = { mesh with normals := some (mesh.positions.map mesh.smoothNormal) } := by
  have flat : (0 : Vec3 Single).normalizeOrZero = 0 := by decide +kernel
  rw [withSmoothNormals, SourceMesh.mk.injEq]
  refine ⟨rfl, rfl, rfl, rfl, congrArg some (Array.map_congr_left fun place _ => ?_), rfl, rfl, rfl,
    rfl, rfl, rfl, rfl⟩
  rw [smoothNormal, ← getD_weldedNormals, Std.HashMap.getD_eq_getD_getElem?]
  cases mesh.weldedNormals[place]? with
  | none => exact flat.symm
  | some sum => rfl

end SourceMesh

variable {scene : Scene Single} {mesh : SourceMesh Single} {index : Nat}

/-- A mesh of triangles without normals gets the normals of its places, and stays as it is otherwise. -/
theorem getElem?_generateNormals_smooth (found : scene.meshes[index]? = some mesh)
    (triangles : mesh.primitive = .triangles) (bare : mesh.normals = none) :
    (scene.generateNormals .smooth).meshes[index]? =
      some { mesh with normals := some (mesh.positions.map mesh.smoothNormal) } := by
  have lacks : mesh.lacksNormals = true := by simp [SourceMesh.lacksNormals, bare, triangles]
  rw [Scene.generateNormals, Array.getElem?_map, found, Option.map_some,
    SourceMesh.withNormals.eq_def, if_pos lacks, SourceMesh.withSmoothNormals_eq]

/-- A mesh of triangles without normals gets one smooth normal for every position. It is that of the
place, so vertices whose positions are equal, also in the signs of zeros, have the same. -/
theorem exists_smoothNormal_generateNormals (found : scene.meshes[index]? = some mesh)
    (triangles : mesh.primitive = .triangles) (bare : mesh.normals = none) :
    ∃ normals : Array (Vec3 Single),
      (scene.generateNormals .smooth).meshes[index]? =
        some { mesh with normals := some normals } ∧
      normals.size = mesh.positions.size ∧
      (∀ vertex : Nat, normals[vertex]? = mesh.positions[vertex]?.map mesh.smoothNormal) ∧
      ∀ (v w : Nat) (a b : Vec3 Single), mesh.positions[v]? = some a → mesh.positions[w]? = some b →
        a.numEq b = true → a.SameSigns b → normals[v]? = normals[w]? := by
  refine ⟨mesh.positions.map mesh.smoothNormal, getElem?_generateNormals_smooth found triangles bare,
    Array.size_map, fun _ => Array.getElem?_map, fun v w a b first second equal signs => ?_⟩
  rw [Array.getElem?_map, Array.getElem?_map, first, second, Vec3.eq_of_numEq equal signs]

/-- Two sides of a roof, each with its own copy of the ridge. -/
def roof (ridge : Single) : SourceMesh Single where
  positions := #[0, ⟨0, 1, 0⟩, ⟨-1, 0, -1⟩, ⟨ridge, 0, 0⟩, ⟨ridge, 1, 0⟩, ⟨1, 0, -1⟩]
  faces := [[0, 1, 2], [3, 5, 4]]

theorem exists_smoothNormal_generateNormals_roof :
    (roof 0).primitive = .triangles ∧ (roof 0).normals = none ∧
    ∃ normals : Array (Vec3 Single),
      (({ meshes := #[roof 0] } : Scene Single).generateNormals .smooth).meshes[0]? =
        some { roof 0 with normals := some normals } ∧
      normals.size = 6 ∧ normals[0]? = some ⟨0, 0, 1⟩ ∧ normals[3]? = normals[0]? := by
  have found : ({ meshes := #[roof 0] } : Scene Single).meshes[0]? = some (roof 0) := rfl
  obtain ⟨normals, smooth, size, each, shared⟩ :=
    exists_smoothNormal_generateNormals found rfl rfl
  refine ⟨rfl, rfl, normals, smooth, size, (each 0).trans (by decide +kernel), ?_⟩
  exact shared 3 0 0 0 rfl rfl (by decide) ⟨rfl, rfl, rfl⟩

/-- Mirrored, the ridge has the other zero. Its copies are equal, but neither gets the direction of
the other side. -/
theorem roof_parted :
    (roof (-0)).primitive = .triangles ∧ (roof (-0)).normals = none ∧
    ∃ normals : Array (Vec3 Single),
      (({ meshes := #[roof (-0)] } : Scene Single).generateNormals .smooth).meshes[0]? =
        some { roof (-0) with normals := some normals } ∧
      ((roof (-0)).position 0).numEq ((roof (-0)).position 3) = true ∧
      normals[0]? ≠ normals[3]? := by
  refine ⟨rfl, rfl, _, getElem?_generateNormals_smooth rfl rfl rfl, by decide, ?_⟩
  rw [Array.getElem?_map, Array.getElem?_map]
  decide +kernel

end SceneBaker.Scene
