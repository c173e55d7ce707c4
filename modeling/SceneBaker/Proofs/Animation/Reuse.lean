import SceneBaker.Proofs.Animation.Composition

/-! # Poses that are used again

A composer writes the same nodes at every frame, whatever the tracks hold. A pose that went through
one frame therefore comes out of the next one as a fresh pose does, also where several nodes share an
index or a bone belongs to no node.
-/

namespace SceneBaker.Links

variable {β γ : Type}

/-- Values that are seen through a function on both sides make no difference to a walk. -/
theorem descend_map {f : β → γ} {value : Option β → Nat → β} {other : Option γ → Nat → γ}
    (hom : ∀ inherited position, other (inherited.map f) position = f (value inherited position))
    (links : Links) (gap : Gap) (bound : Nat) (inherited : Option β) (visited : List (Nat × β))
    (position : Nat) :
    links.descend gap other bound (inherited.map f) (visited.map (Prod.map id f)) position =
      ((links.descend gap value bound inherited visited position).map
        (·.map (Prod.map id f))).mapError (·.map (Prod.map id f)) := by
  induction bound generalizing inherited visited position with
  | zero => rfl
  | succ bound ih =>
    cases present : links[position]? with
    | none =>
      cases gap with
      | skip => rw [descend_skip present, descend_skip present]; rfl
      | stop => rw [descend_stop present, descend_stop present]; rfl
    | some children =>
      rw [descend_present present, descend_present present, hom]
      exact Steps.foldlM_hom (fun visited child => ih (some (value inherited position)) visited child)
        children ((position, value inherited position) :: visited)

theorem walk_map {f : β → γ} {value : Option β → Nat → β} {other : Option γ → Nat → γ}
    (hom : ∀ inherited position, other (inherited.map f) position = f (value inherited position))
    (links : Links) (gap : Gap) (root : Nat) :
    links.walk gap other root = (links.walk gap value root).map (Prod.map id f) := by
  have image := descend_map hom links gap (links.size + 1) none [] root
  rw [Option.map_none, List.map_nil] at image
  rw [walk, walk, image]
  cases links.descend gap value (links.size + 1) none [] root with
  | error visited => exact List.map_reverse.symm
  | ok visited => exact List.map_reverse.symm

/-- What a walk hands down has no say in where it goes. -/
theorem map_fst_walk (value : Option β → Nat → β) (other : Option γ → Nat → γ) (links : Links)
    (gap : Gap) (root : Nat) :
    (links.walk gap value root).map (·.1) = (links.walk gap other root).map (·.1) := by
  have bare {δ : Type} (handed : Option δ → Nat → δ) :
      (links.walk gap handed root).map (·.1) =
        (links.walk gap (fun _ _ => ()) root).map (·.1) := by
    have image : links.walk gap (fun _ _ => ()) root =
        (links.walk gap handed root).map (Prod.map id fun _ => ()) :=
      walk_map (fun _ _ => rfl) links gap root
    rw [image, List.map_map]
    rfl
  exact (bare value).trans (bare other).symm

end SceneBaker.Links

namespace SceneBaker.Animation

open Number SceneBaker.Geometry Binary Model

namespace Composer

variable {composer : Composer} {frame first next : Nat} {pose after middle : Pose}

/-- All frames visit the same nodes in the same order. -/
theorem map_fst_worlds (first next : Nat) :
    (composer.worlds first).map (·.1) = (composer.worlds next).map (·.1) := by
  have nodes (visits : List (Nat × DualQuat Single)) :
      (visits.filterMap fun visit =>
        (composer.model.nodes.get? visit.1).map (·, visit.2)).map (·.1) =
        (visits.map (·.1)).filterMap composer.model.nodes.get? := by
    rw [List.map_filterMap, List.filterMap_map]
    simp only [Option.map_map, Function.comp_def, Option.map_id']
  refine (nodes _).trans (Eq.trans ?_ (nodes _).symm)
  rw [Links.map_fst_walk]

theorem places_of_place {node : Node} {world : DualQuat Single}
    (success : composer.place frame pose node world = (after, none)) :
    composer.Places pose node := by
  simp only [place] at success
  split at success
  case isFalse => simp at success
  case isTrue room =>
    refine ⟨room.1, room.2, ?_⟩
    intro flag
    rw [if_pos flag] at success
    split at success
    case h_1 offset slot known present =>
      exact ⟨(Array.getElem?_eq_some_iff.mp known).1, (Array.getElem?_eq_some_iff.mp present).1⟩
    case h_2 => simp at success

/-- Nothing is placed outside a pose without a failure. -/
theorem places_of_placeAll {entries : List (Node × DualQuat Single)}
    (success : composer.placeAll frame entries pose = (after, none)) :
    ∀ entry ∈ entries, composer.Places pose entry.1 := by
  induction entries generalizing pose with
  | nil => simp
  | cons entry entries ih =>
    rw [placeAll] at success
    split at success
    case h_1 placed first =>
      have here := places_of_place first
      obtain rfl : composer.written frame pose entry.1 entry.2 = placed := by
        rw [place_eq entry.2 here] at first
        exact (Prod.mk.inj first).1
      intro later member
      rcases List.mem_cons.mp member with rfl | member
      · exact here
      · exact (places_iff_of_fits (fits_written ..) later.1).mp (ih success later member)
    case h_2 failed stopped =>
      exact (stopped _ success).elim

/-- Composition keeps the size of a pose. -/
theorem fits_of_compose (success : composer.compose frame pose = (after, none)) :
    Fits after pose := by
  rw [compose, placeAll_eq (places_of_placeAll success)] at success
  obtain rfl := (Prod.mk.inj success).1
  exact ⟨size_writeAll, size_writeAll, size_writeAll⟩

/-- A pose that a frame was composed into gives the next frame as it gave it before. -/
theorem compose_compose (success : composer.compose first pose = (middle, none)) (next : Nat) :
    composer.compose next middle = composer.compose next pose := by
  have nodes : (composer.worlds first).map (·.1) = (composer.worlds next).map (·.1) :=
    map_fst_worlds first next
  have before := places_of_placeAll success
  have fits := fits_of_compose success
  have places (entry : Node × DualQuat Single) (member : entry ∈ composer.worlds next) :
      composer.Places pose entry.1 := by
    obtain ⟨other, listed, same⟩ := List.mem_map.mp (nodes ▸ List.mem_map_of_mem member)
    exact same ▸ before other listed
  have later (entry : Node × DualQuat Single) (member : entry ∈ composer.worlds next) :
      composer.Places middle entry.1 :=
    (places_iff_of_fits fits entry.1).mpr (places entry member)
  -- Each node that was written is written again, and a bone node as a bone node.
  have again (entry : Node × DualQuat Single) (member : entry ∈ composer.worlds first) :
      ∃ other ∈ composer.worlds next, other.1 = entry.1 :=
    List.mem_map.mp (nodes ▸ List.mem_map_of_mem member)
  rw [compose, compose, placeAll_eq places, placeAll_eq later]
  rw [compose, placeAll_eq before] at success
  obtain rfl := (Prod.mk.inj success).1
  have covered (entry : Node × DualQuat Single) (member : entry ∈ composer.worlds first) :
      ∃ other ∈ composer.worlds next, other.1.index.toNat = entry.1.index.toNat := by
    obtain ⟨other, listed, same⟩ := again entry member
    exact ⟨other, listed, congrArg (·.index.toNat) same⟩
  congr 2
  case e_fst.e_parent => exact writeAll_writeAll covered
  case e_fst.e_world => exact writeAll_writeAll covered
  case e_fst.e_bone =>
    apply writeAll_writeAll
    intro entry member
    obtain ⟨listed, flag⟩ := List.mem_filter.mp member
    obtain ⟨other, visited, same⟩ := again entry listed
    have flagged : other.1.isBone = true := same ▸ flag
    exact ⟨other, List.mem_filter.mpr ⟨visited, flagged⟩, congrArg (·.index.toNat) same⟩

end Composer

end SceneBaker.Animation
