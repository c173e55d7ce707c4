import SceneBaker.Gltf.Faces
import Mathlib.Data.List.Chain
import Mathlib.Data.List.FinRange

/-! # Faces and orientation

Cutting indices into faces does not look at the indices, so what is said about faces may be said of
positions in the list, which unlike the indices do not repeat. Neighbouring triangles of a strip or a
fan run along the edge that they share in opposite directions, which gives all of them the
orientation of the first one.
-/

namespace SceneBaker.Gltf

variable {α β : Type}

/-! ## Positions in place of indices -/

theorem map_pairs (f : α → β) : ∀ indices : List α,
    pairs (indices.map f) = (pairs indices).map (List.map f)
  | [] | [_] => rfl
  | _ :: _ :: rest => by simp [pairs, map_pairs f rest]

theorem map_triples (f : α → β) : ∀ indices : List α,
    triples (indices.map f) = (triples indices).map (List.map f)
  | [] | [_] | [_, _] => rfl
  | _ :: _ :: _ :: rest => by simp [triples, map_triples f rest]

theorem map_neighbours (f : α → β) : ∀ indices : List α,
    neighbours (indices.map f) = (neighbours indices).map (List.map f)
  | [] | [_] => rfl
  | _ :: second :: rest => by simpa [neighbours] using map_neighbours f (second :: rest)

theorem map_strip (f : α → β) (turned : Bool) : ∀ indices : List α,
    strip turned (indices.map f) = (strip turned indices).map (List.map f)
  | [] | [_] | [_, _] => rfl
  | _ :: second :: third :: rest => by
    have later := map_strip f (!turned) (second :: third :: rest)
    cases turned <;> simpa [strip] using later

theorem map_loop (f : α → β) (indices : List α) :
    loop (indices.map f) = (loop indices).map (List.map f) := by
  match indices with
  | [] | [_] => rfl
  | first :: second :: rest =>
    have along := map_neighbours f (first :: second :: rest)
    simp only [List.map_cons] at along
    simp only [List.map_cons, loop, along, List.getLast?_map, List.map_append]
    cases rest.getLast? <;> rfl

theorem map_fan (f : α → β) (indices : List α) :
    fan (indices.map f) = (fan indices).map (List.map f) := by
  cases indices with
  | nil => rfl
  | cons center rest =>
    simp only [List.map_cons, fan, map_neighbours, List.map_map]
    rfl

/-- Faces follow the indices wherever these are sent. -/
theorem map_faces (f : α → β) (mode : Mode) (indices : List α) :
    faces mode (indices.map f) = (faces mode indices).map (List.map f) := by
  cases mode with
  | points => simp [faces]
  | lines => exact map_pairs f indices
  | lineLoop => exact map_loop f indices
  | lineStrip => exact map_neighbours f indices
  | triangles => exact map_triples f indices
  | triangleStrip => exact map_strip f false indices
  | triangleFan => exact map_fan f indices

/-- The faces of a list by the positions of their corners in it. -/
def places (mode : Mode) (indices : List α) : List (List (Fin indices.length)) :=
  faces mode (List.finRange indices.length)

theorem faces_eq_map_places (mode : Mode) (indices : List α) :
    faces mode indices = (places mode indices).map (List.map indices.get) := by
  rw [places, ← map_faces, List.map_get_finRange]

/-! ## Numbers of corners and of faces -/

/-- All lists but the last one have `count` entries, the last one has some and no more. -/
def Chunked (count : Nat) (chunks : List (List α)) : Prop :=
  (∀ chunk ∈ chunks.dropLast, chunk.length = count) ∧
    ∀ chunk ∈ chunks, 0 < chunk.length ∧ chunk.length ≤ count

theorem Chunked.cons {count : Nat} (positive : 0 < count) {chunk : List α} {chunks : List (List α)}
    (full : chunk.length = count) (later : Chunked count chunks) :
    Chunked count (chunk :: chunks) := by
  constructor
  · cases chunks with
    | nil => simp
    | cons next chunks =>
      rw [List.dropLast_cons_cons]
      exact List.forall_mem_cons.mpr ⟨full, later.1⟩
  · exact List.forall_mem_cons.mpr ⟨⟨full ▸ positive, full.le⟩, later.2⟩

theorem Chunked.of_forall {count : Nat} (positive : 0 < count) {chunks : List (List α)}
    (full : ∀ chunk ∈ chunks, chunk.length = count) : Chunked count chunks :=
  ⟨fun chunk member => full chunk (List.dropLast_subset _ member),
    fun chunk member => ⟨full chunk member ▸ positive, (full chunk member).le⟩⟩

theorem Chunked.single {count : Nat} {chunk : List α} (filled : 0 < chunk.length)
    (short : chunk.length ≤ count) : Chunked count [chunk] :=
  ⟨by simp, by simpa using ⟨filled, short⟩⟩

theorem flatten_pairs : ∀ indices : List α, (pairs indices).flatten = indices
  | [] | [_] => rfl
  | _ :: _ :: rest => by simp [pairs, flatten_pairs rest]

theorem chunked_pairs : ∀ indices : List α, Chunked 2 (pairs indices)
  | [] => .of_forall (by decide) (by simp [pairs])
  | [_] => .single (by simp) (by simp)
  | _ :: _ :: rest => .cons (by decide) rfl (chunked_pairs rest)

theorem flatten_triples : ∀ indices : List α, (triples indices).flatten = indices
  | [] | [_] | [_, _] => rfl
  | _ :: _ :: _ :: rest => by simp [triples, flatten_triples rest]

theorem chunked_triples : ∀ indices : List α, Chunked 3 (triples indices)
  | [] => .of_forall (by decide) (by simp [triples])
  | [_] | [_, _] => .single (by simp) (by simp)
  | _ :: _ :: _ :: rest => .cons (by decide) rfl (chunked_triples rest)

theorem length_neighbours : ∀ indices : List α, (neighbours indices).length = indices.length - 1
  | [] | [_] => rfl
  | _ :: second :: rest => by simp [neighbours, length_neighbours (second :: rest)]

theorem length_of_mem_neighbours : ∀ {indices : List α}, ∀ face ∈ neighbours indices, face.length = 2
  | [] | [_] => nofun
  | _ :: _ :: _ => List.forall_mem_cons.mpr ⟨rfl, length_of_mem_neighbours⟩

theorem length_strip (turned : Bool) : ∀ indices : List α,
    (strip turned indices).length = indices.length - 2
  | [] | [_] | [_, _] => rfl
  | _ :: second :: third :: rest => by
    simp [strip, length_strip (!turned) (second :: third :: rest)]

theorem length_of_mem_strip {turned : Bool} : ∀ {indices : List α},
    ∀ face ∈ strip turned indices, face.length = 3
  | [] | [_] | [_, _] => nofun
  | _ :: second :: third :: rest => by
    refine List.forall_mem_cons.mpr ⟨?_, length_of_mem_strip⟩
    cases turned <;> rfl

theorem length_fan (indices : List α) : (fan indices).length = indices.length - 2 := by
  cases indices with
  | nil => rfl
  | cons center rest =>
    rw [fan, List.length_map, length_neighbours, List.length_cons]
    omega

theorem length_of_mem_fan {indices : List α} : ∀ face ∈ fan indices, face.length = 3 := by
  cases indices with
  | nil => nofun
  | cons center rest =>
    refine List.forall_mem_map.mpr fun edge member => ?_
    rw [List.length_cons, length_of_mem_neighbours edge member]

/-- A loop is a strip that is closed from its last to its first index. -/
theorem loop_eq {indices : List α} (long : 2 < indices.length) : ∃ first last,
    indices.head? = some first ∧ indices.getLast? = some last ∧
      loop indices = neighbours indices ++ [[last, first]] := by
  match indices with
  | first :: second :: third :: rest =>
    refine ⟨first, (third :: rest).getLast (List.cons_ne_nil _ _), rfl, ?_, ?_⟩
    · rw [List.getLast?_cons_cons, List.getLast?_cons_cons, List.getLast?_eq_getLast_of_ne_nil]
    · rw [loop, List.getLast?_eq_getLast_of_ne_nil (List.cons_ne_nil _ _)]
      rfl

theorem loop_eq_neighbours {indices : List α} (short : indices.length ≤ 2) :
    loop indices = neighbours indices := by
  match indices with
  | [] | [_] | [_, _] => rfl

/-! ## Orientation -/

/-- The edges around a face, each from a corner to the next one. -/
def edges (face : List α) : List (α × α) := face.zip (face.rotate 1)

theorem edges_triangle (a b c : α) : edges [a, b, c] = [(a, b), (b, c), (c, a)] := rfl

/-- Two corners are all that the faces share, and the edge between them runs one way around the first
face and the other way around the second. -/
def Adjoin (first second : List α) : Prop :=
  ∃ one other, one ≠ other ∧
    (∀ corner, corner ∈ first ∧ corner ∈ second ↔ corner = one ∨ corner = other) ∧
    (one, other) ∈ edges first ∧ (other, one) ∈ edges second

/-- The next triangle of a strip turns around, so that it goes back along the common edge. -/
theorem adjoin_turned {a b c d : α} (distinct : [a, b, c, d].Nodup) (turned : Bool) :
    Adjoin (if turned then [b, a, c] else [a, b, c]) (if !turned then [c, b, d] else [b, c, d]) := by
  simp only [List.nodup_cons, List.mem_cons, List.not_mem_nil, or_false, not_or] at distinct
  obtain ⟨⟨ab, ac, ad⟩, ⟨bc, bd⟩, cd, -⟩ := distinct
  cases turned with
  | false => exact ⟨b, c, bc, by grind, by simp [edges_triangle], by simp [edges_triangle]⟩
  | true => exact ⟨c, b, Ne.symm bc, by grind, by simp [edges_triangle], by simp [edges_triangle]⟩

theorem isChain_strip (turned : Bool) : ∀ {indices : List α}, indices.Nodup →
    (strip turned indices).IsChain Adjoin
  | [], _ | [_], _ | [_, _], _ => .nil
  | [_, _, _], _ => .singleton _
  | first :: second :: third :: fourth :: rest, distinct => by
    have later := isChain_strip (!turned) (List.nodup_cons.mp distinct).2
    have four : [first, second, third, fourth].Nodup :=
      distinct.sublist (by simp)
    rw [strip] at later ⊢
    rw [strip]
    exact List.isChain_cons_cons.mpr ⟨adjoin_turned four turned, later⟩

/-- Triangles around a center meet along the edges that end there. -/
theorem adjoin_center {center a b c : α} (distinct : [center, a, b, c].Nodup) :
    Adjoin [center, a, b] [center, b, c] := by
  simp only [List.nodup_cons, List.mem_cons, List.not_mem_nil, or_false, not_or] at distinct
  obtain ⟨⟨za, zb, zc⟩, ⟨ab, ac⟩, bc, -⟩ := distinct
  exact ⟨b, center, Ne.symm zb, by grind, by simp [edges_triangle], by simp [edges_triangle]⟩

theorem isChain_around {center : α} : ∀ {rest : List α}, (center :: rest).Nodup →
    ((neighbours rest).map (center :: ·)).IsChain Adjoin
  | [], _ | [_], _ => .nil
  | [_, _], _ => .singleton _
  | first :: second :: third :: rest, distinct => by
    have outer : (center :: second :: third :: rest).Nodup := distinct.sublist (by simp)
    have later := isChain_around outer
    have four : [center, first, second, third].Nodup := distinct.sublist (by simp)
    rw [neighbours, List.map_cons] at later ⊢
    rw [neighbours, List.map_cons]
    exact List.isChain_cons_cons.mpr ⟨adjoin_center four, later⟩

theorem isChain_fan {indices : List α} (distinct : indices.Nodup) : (fan indices).IsChain Adjoin := by
  cases indices with
  | nil => exact .nil
  | cons center rest => exact isChain_around distinct

/-! ## All modes -/

/-- The modes that use every index once. -/
def Mode.lists : Mode → Bool
  | .points | .lines | .triangles => true
  | .lineLoop | .lineStrip | .triangleStrip | .triangleFan => false

/-- The right faces for indices in a mode. -/
structure Assembled (mode : Mode) (indices : List α) : Prop where
  /-- Every corner of a face is the index at its place in the list. -/
  placed : faces mode indices = (places mode indices).map (List.map indices.get)
  given : ∀ face ∈ faces mode indices, face ⊆ indices
  listed : mode.lists = true → (faces mode indices).flatten = indices ∧
    Chunked mode.primitive.corners (faces mode indices)
  whole : mode.lists = false → ∀ face ∈ faces mode indices, face.length = mode.primitive.corners
  joined : mode = .triangleStrip ∨ mode = .triangleFan →
    (faces mode indices).length = indices.length - 2 ∧ (places mode indices).IsChain Adjoin
  along : mode = .lineStrip → (faces mode indices).length = indices.length - 1
  around : mode = .lineLoop → 2 < indices.length →
    (faces mode indices).length = indices.length - 1 + 1 ∧ ∃ first last,
      indices.head? = some first ∧ indices.getLast? = some last ∧
        faces mode indices = faces .lineStrip indices ++ [[last, first]]
  unclosed : mode = .lineLoop → indices.length ≤ 2 →
    (faces mode indices).length = indices.length - 1 ∧
      faces mode indices = faces .lineStrip indices

theorem listed_faces {mode : Mode} (lists : mode.lists = true) (indices : List α) :
    (faces mode indices).flatten = indices ∧
      Chunked mode.primitive.corners (faces mode indices) := by
  cases mode with
  | points =>
    refine ⟨by simp [faces, ← List.flatMap_def], .of_forall (by decide) ?_⟩
    exact List.forall_mem_map.mpr fun _ _ => rfl
  | lines => exact ⟨flatten_pairs indices, chunked_pairs indices⟩
  | triangles => exact ⟨flatten_triples indices, chunked_triples indices⟩
  | lineLoop | lineStrip | triangleStrip | triangleFan => cases lists

theorem length_of_mem_faces {mode : Mode} (strips : mode.lists = false) {indices : List α} :
    ∀ face ∈ faces mode indices, face.length = mode.primitive.corners := by
  cases mode with
  | points | lines | triangles => cases strips
  | lineStrip => exact length_of_mem_neighbours
  | triangleStrip => exact length_of_mem_strip
  | triangleFan => exact length_of_mem_fan
  | lineLoop =>
    rcases Nat.lt_or_ge 2 indices.length with long | short
    · obtain ⟨first, last, -, -, closed⟩ := loop_eq long
      rw [faces, closed]
      refine List.forall_mem_append.mpr ⟨length_of_mem_neighbours, ?_⟩
      exact List.forall_mem_singleton.mpr rfl
    · rw [faces, loop_eq_neighbours short]
      exact length_of_mem_neighbours

theorem isChain_places {mode : Mode} (triangles : mode = .triangleStrip ∨ mode = .triangleFan)
    (indices : List α) : (places mode indices).IsChain Adjoin := by
  have distinct := List.nodup_finRange indices.length
  rcases triangles with rfl | rfl
  · exact isChain_strip false distinct
  · exact isChain_fan distinct

/-- Every mode makes the right faces of every list of indices. -/
theorem assembled_faces (mode : Mode) (indices : List α) : Assembled mode indices where
  placed := faces_eq_map_places mode indices
  given := by
    rw [faces_eq_map_places]
    refine List.forall_mem_map.mpr fun face _ index member => ?_
    obtain ⟨place, -, rfl⟩ := List.mem_map.mp member
    exact List.get_mem ..
  listed lists := listed_faces lists indices
  whole strips := length_of_mem_faces strips
  joined triangles := by
    refine ⟨?_, isChain_places triangles indices⟩
    rcases triangles with rfl | rfl
    · exact length_strip false indices
    · exact length_fan indices
  along := by
    rintro rfl
    exact length_neighbours indices
  around := by
    rintro rfl long
    obtain ⟨first, last, head, tail, closed⟩ := loop_eq long
    refine ⟨?_, first, last, head, tail, closed⟩
    rw [faces, closed, List.length_append, length_neighbours, List.length_singleton]
  unclosed := by
    rintro rfl short
    refine ⟨?_, loop_eq_neighbours short⟩
    rw [faces, loop_eq_neighbours short, length_neighbours]

example : places .triangleStrip ["a", "b", "a", "c", "b"] = [[0, 1, 2], [2, 1, 3], [2, 3, 4]] := by
  decide

end SceneBaker.Gltf
