import SceneBaker.Proofs.Convert.Failure
import SceneBaker.Proofs.Gltf.Walk

/-! # Whether the import of a file ends

The reader refuses many files, but it does not look for nodes that are below themselves. So what
becomes of a file that it accepts rests on the walk over the document: if that ends there is a scene
or a cause, and if it does not there is neither.
-/

namespace SceneBaker.Convert

open Number Files Build Scene Gltf

/-- A source file with a document that has nodes. -/
structure Accepted (store : Store) (path : Path) (loaded : Loaded) : Prop where
  source : isSource path
  loads : Gltf.load store path = .ok loaded
  full : ¬loaded.document.nodes.isEmpty

/-- How the import of a file goes, with what it gives. Without an end it gives nothing, so nothing
is said about the result. -/
inductive Course (store : Store) (path : Path) : Except ConversionError (Scene Single) → Prop
  | foreign (unknown : ¬isSource path) :
      Course store path (.error (.notImported (.unknownType path)))
  | refused {reason : String} (source : isSource path)
      (failed : Gltf.load store path = .error reason) :
      Course store path (.error (.notImported (.unreadable path reason)))
  | empty {loaded : Loaded} (source : isSource path) (loads : Gltf.load store path = .ok loaded)
      (empty : loaded.document.nodes.isEmpty) :
      Course store path (.error .emptyScene)
  | broken {loaded : Loaded} {name : String} (accepted : Accepted store path loaded)
      (ends : loaded.Ends loaded.start) (broken : loaded.Breaks loaded.start) :
      Course store path (.error (.notImported (.noPositions name)))
  | whole {loaded : Loaded} {scene : Scene Single} {visited : List (Nat × Nat)}
      (accepted : Accepted store path loaded)
      (descends : loaded.document.links.Descends loaded.document.nodes.size)
      (walked : loaded.Leads loaded.start ⟨[], visited⟩) (visits : loaded.visits = visited.reverse)
      (imported : loaded.toScene = .ok scene) :
      Course store path (.ok scene)
  | endless {loaded : Loaded} {result : Except ConversionError (Scene Single)}
      (accepted : Accepted store path loaded)
      (cyclic : ¬loaded.document.links.Descends loaded.document.nodes.size)
      (unbroken : ¬loaded.Breaks loaded.start) (endless : ¬loaded.Ends loaded.start) :
      Course store path result

theorem Accepted.course {store : Store} {path : Path} {loaded : Loaded}
    (accepted : Accepted store path loaded) : Course store path loaded.toScene := by
  have scenes := Loaded.exists_toScene_iff accepted.full
  by_cases broken : loaded.Breaks loaded.start
  · cases result : loaded.toScene with
    | ok scene =>
      obtain ⟨entry, visited, unreadable⟩ := Loaded.exists_visit_of_breaks broken
      have readable := scenes.mp ⟨scene, result⟩ entry visited
      cases unreadable.symm.trans readable
    | error cause =>
      obtain ⟨name, rfl⟩ := Loaded.exists_noPositions_of_toScene_eq_error accepted.full result
      exact .broken accepted (Loaded.ends_iff.mpr (.inr broken)) broken
  · by_cases ends : loaded.Ends loaded.start
    · have descends := (Loaded.ends_iff.mp ends).resolve_right broken
      obtain ⟨visited, walked⟩ := ends
      have visits := (Loaded.visits_eq_explore broken).trans walked.explore_eq_reverse
      obtain ⟨scene, imported⟩ : ∃ scene, loaded.toScene = .ok scene := by
        refine scenes.mpr fun entry member => ?_
        rw [visits, List.mem_reverse] at member
        exact walked.readable broken (fun _ member => nomatch member) entry member
      rw [imported]
      exact .whole accepted descends walked visits imported
    · obtain ⟨cyclic, -⟩ := not_or.mp (Loaded.ends_iff.not.mp ends)
      exact .endless accepted cyclic broken ends

theorem importScene_eq {store : Store} {path : Path} {loaded : Loaded} (source : isSource path)
    (loads : Gltf.load store path = .ok loaded) :
    (importScene store path).scene = loaded.toScene := by
  rw [importScene, if_pos source, loads]
  dsimp only
  cases loaded.toScene <;> rfl

/-- The import of a file ends in a scene or in an error, unless the walk over its document has no
end. That walk ends exactly if nothing at or below the top is below itself, or if a node that cannot
be read is met before; the search for nodes that no node has below it always ends. -/
theorem course_importScene (store : Store) (path : Path) :
    Course store path (importScene store path).scene ∧
    (∀ loaded : Loaded, loaded.Ends loaded.start ↔
      loaded.document.links.Descends loaded.document.nodes.size ∨ loaded.Breaks loaded.start) ∧
    ∀ (document : Document) (position : Nat), position ∈ document.parentless ↔
      position < document.nodes.size ∧ ∀ node ∈ document.nodes, position ∉ node.children := by
  refine ⟨?_, fun _ => Loaded.ends_iff, fun _ _ => Document.mem_parentless_iff⟩
  by_cases source : isSource path
  · cases loads : Gltf.load store path with
    | error reason =>
      rw [importScene, if_pos source, loads]
      exact .refused source loads
    | ok loaded =>
      rw [importScene_eq source loads]
      by_cases empty : loaded.document.nodes.isEmpty
      · rw [Loaded.toScene_of_isEmpty empty]
        exact .empty source loads empty
      · exact Accepted.course ⟨source, loads, empty⟩
  · rw [importScene, if_neg source]
    exact .foreign source

/-- A file with one node that is its own child. -/
def ring : Store where
  entries := [(["ring.gltf"], .file (objectText [
    ("asset", objectText [("version", "\"2.0\"")]),
    ("scene", "0"),
    ("scenes", arrayText [objectText [("nodes", arrayText ["0"])]]),
    ("nodes", arrayText [objectText [("name", "\"ring\""), ("children", arrayText ["0"])]])
    ]).toUTF8.toList)]

/-- The document in the file. -/
def ringDocument : Document where
  nodes := #[⟨some "ring", 1, [0], none, none⟩]
  scenes := #[[0]]
  scene := some 0

/-- The reader accepts a node that is its own child, all of its numbers being in range, and the walk
goes down to it without end. -/
theorem ring_endless : isSource "ring.gltf" ∧ ∃ loaded, Gltf.load ring "ring.gltf" = .ok loaded ∧
    (∀ node ∈ loaded.document.nodes, ∀ child ∈ node.children,
      child < loaded.document.nodes.size) ∧
    (∀ root ∈ loaded.document.roots, root < loaded.document.nodes.size) ∧
    ¬loaded.Ends loaded.start := by
  have accepted : (Gltf.load ring "ring.gltf").toOption.map (·.document) = some ringDocument := by
    decide +kernel
  refine ⟨by decide +kernel, ?_⟩
  cases result : Gltf.load ring "ring.gltf" with
  | error reason => simp [result, Except.toOption] at accepted
  | ok loaded =>
    rw [result] at accepted
    have document : loaded.document = ringDocument := Option.some.inj accepted
    refine ⟨loaded, rfl, ?_, ?_, fun ends => ?_⟩
    · rw [document]
      decide +kernel
    · rw [document]
      decide +kernel
    · have bare : ∀ node ∈ loaded.document.nodes, node.mesh = none := by
        rw [document]
        decide +kernel
      have unbroken : ¬loaded.Breaks loaded.start := by
        rintro ⟨position, -, -, -, -, -, unreadable⟩
        rw [Loaded.readable_of_bare bare] at unreadable
        cases unreadable
      have descends := (Loaded.ends_iff.mp ends).resolve_right unbroken
      have links : ringDocument.links = #[[0], [0]] := by decide +kernel
      rw [document, links] at descends
      have top : Links.Above #[[0], [0]] 1 0 := ⟨[0], rfl, List.mem_cons_self⟩
      have itself : Links.Above #[[0], [0]] 0 0 := ⟨[0], rfl, List.mem_cons_self⟩
      exact descends 0 (.single top) (.single itself)

end SceneBaker.Convert
