import SceneBaker.Convert.Batch
import SceneBaker.Proofs.Convert.Failure
import SceneBaker.Proofs.Convert.Paths
import SceneBaker.Proofs.Gltf.Inputs

/-! # Independent conversions

Conversions in one directory are independent if no two of them meet at a place: neither writes where
the other writes or reads. Then each finds the files as if it were the first, and leaves the same
behind in any order. Two sources whose names differ only in their extensions do meet.
-/

namespace SceneBaker.Convert

open Number Files Build Scene Steps

variable {store first second : Store} {settings : Settings}

/-! ## Loading -/

/-- A scene is loaded alike from stores that agree on the files behind it. -/
theorem loadScene_congr {path : Path}
    (same : ∀ input ∈ Gltf.inputs first path, Gltf.Agree first second input) :
    loadScene first path settings = loadScene second path settings := by
  have imports : importScene first path = importScene second path := by
    rw [importScene, importScene, Gltf.load_congr same]
  rw [loadScene, loadScene, imports]

/-! ## Sources that do not meet -/

/-- The effect of converting a source to the model next to it. -/
def sourceEffect (store : Store) (settings : Settings) (source : Path) : Effect :=
  effect store source (outputPath source) settings

/-- The places at which the conversion of a source writes files. -/
def written (store : Store) (settings : Settings) (source : Path) : List (List String) :=
  (sourceEffect store settings source).contents.map (·.1)

/-- The places from which a source is read. -/
def consulted (store : Store) (source : Path) : List (List String) :=
  (Gltf.inputs store source).filterMap store.resolve?

/-- Neither source's conversion writes where the other's writes or reads. -/
structure Apart (store : Store) (settings : Settings) (one other : Path) : Prop where
  both : ∀ place ∈ written store settings one, place ∉ written store settings other
  forward : ∀ place ∈ written store settings one, place ∉ consulted store other
  backward : ∀ place ∈ written store settings other, place ∉ consulted store one

instance (store : Store) (settings : Settings) (one other : Path) :
    Decidable (Apart store settings one other) :=
  decidable_of_iff
    ((∀ place ∈ written store settings one, place ∉ written store settings other) ∧
      (∀ place ∈ written store settings one, place ∉ consulted store other) ∧
      ∀ place ∈ written store settings other, place ∉ consulted store one)
    ⟨fun ⟨both, forward, backward⟩ => ⟨both, forward, backward⟩,
      fun apart => ⟨apart.both, apart.forward, apart.backward⟩⟩

theorem Apart.symm {one other : Path} (apart : Apart store settings one other) :
    Apart store settings other one :=
  ⟨fun place there here => apart.both place here there, apart.backward, apart.forward⟩

theorem vacant_sourceEffect (store : Store) (settings : Settings) (source : Path) :
    store.Vacant (sourceEffect store settings source).contents :=
  vacant_effect store source (outputPath source) settings

/-- What converting sources puts at which places, in order. -/
def allContents (store : Store) (settings : Settings) (done : List Path) :
    List (List String × List UInt8) :=
  done.flatMap fun source => (sourceEffect store settings source).contents

theorem vacant_allContents (store : Store) (settings : Settings) (done : List Path) :
    store.Vacant (allContents store settings done) := by
  induction done with
  | nil => nofun
  | cons source rest ih =>
    rw [allContents, List.flatMap_cons]
    exact (vacant_sourceEffect store settings source).append ih

theorem mem_allContents {done : List Path} {place : List String} :
    place ∈ (allContents store settings done).map (·.1) ↔
      ∃ source ∈ done, place ∈ written store settings source := by
  simp only [allContents, List.map_flatMap, List.mem_flatMap, written]

/-- The effect of a conversion is the same after conversions that do not write what it reads. -/
theorem sourceEffect_putFiles {done : List Path} {source : Path}
    (apart : ∀ other ∈ done, Apart store settings other source) :
    sourceEffect (store.putFiles (allContents store settings done)) settings source =
      sourceEffect store settings source := by
  have vacant := vacant_allContents store settings done
  have same := (Store.isDirectory_putFiles vacant).symm
  refine (effect_congr same (loadScene_congr fun input consults => ?_) _).symm
  refine Store.read_congr same fun place leads => (Store.find?_putFiles_of_not_mem vacant ?_).symm
  intro touched
  obtain ⟨other, among, writes⟩ := mem_allContents.mp touched
  exact (apart other among).forward place writes (List.mem_filterMap.mpr ⟨input, consults, leads⟩)

/-! ## Conversions in order -/

/-- One conversion after others that it is apart from. -/
theorem add_eq {outcome : BatchOutcome} {done : List Path} {source : Path}
    (stored : outcome.store = store.putFiles (allContents store settings done))
    (apart : ∀ other ∈ done, Apart store settings other source) :
    (outcome.add settings source).store =
        store.putFiles (allContents store settings (done ++ [source])) ∧
      (outcome.add settings source).report.results =
        outcome.report.results ++ [(source, (sourceEffect store settings source).status)] := by
  obtain ⟨next, ended⟩ := convertFile_eq outcome.store source (outputPath source) settings
  have still : effect outcome.store source (outputPath source) settings =
      sourceEffect store settings source := by
    rw [stored]
    exact sourceEffect_putFiles apart
  rw [still] at next ended
  constructor
  · rw [BatchOutcome.add, next, stored, allContents, allContents, List.flatMap_append,
      Store.putFiles_append, List.flatMap_singleton]
  · rw [BatchOutcome.add, ended]

/-- Conversions that are apart from each other have the effects that they have on their own. -/
theorem foldl_add_eq {outcome : BatchOutcome} (done : List Path) {rest : List Path}
    (stored : outcome.store = store.putFiles (allContents store settings done))
    (apart : (done ++ rest).Pairwise (Apart store settings)) :
    (rest.foldl (fun outcome source => outcome.add settings source) outcome).store =
        store.putFiles (allContents store settings (done ++ rest)) ∧
      (rest.foldl (fun outcome source => outcome.add settings source) outcome).report.results =
        outcome.report.results ++
          rest.map fun source => (source, (sourceEffect store settings source).status) := by
  induction rest generalizing outcome done with
  | nil => simpa using stored
  | cons source rest ih =>
    have before : ∀ other ∈ done, Apart store settings other source := fun other among =>
      (List.pairwise_append.mp apart).2.2 other among source List.mem_cons_self
    obtain ⟨next, results⟩ := add_eq stored before
    have apart' : ((done ++ [source]) ++ rest).Pairwise (Apart store settings) := by simpa using apart
    obtain ⟨final, report⟩ := ih (done ++ [source]) next apart'
    rw [List.foldl_cons]
    refine ⟨by simpa using final, ?_⟩
    rw [report, results]
    simp

/-- Convert sources in some order. -/
def convertInOrder (store : Store) (settings : Settings) (order : List Path) : BatchOutcome :=
  order.foldl (fun outcome source => outcome.add settings source) { store }

theorem convertInOrder_eq {order : List Path} (apart : order.Pairwise (Apart store settings)) :
    (convertInOrder store settings order).store =
        store.putFiles (allContents store settings order) ∧
      (convertInOrder store settings order).report.results =
        order.map fun source => (source, (sourceEffect store settings source).status) :=
  foldl_add_eq [] rfl apart

/-- The log plays no part in what conversions do. -/
theorem foldl_add_congr {one other : BatchOutcome} (store : other.store = one.store)
    (report : other.report = one.report) (order : List Path) :
    (order.foldl (fun outcome source => outcome.add settings source) other).store =
        (order.foldl (fun outcome source => outcome.add settings source) one).store ∧
      (order.foldl (fun outcome source => outcome.add settings source) other).report =
        (order.foldl (fun outcome source => outcome.add settings source) one).report := by
  induction order generalizing one other with
  | nil => exact ⟨store, report⟩
  | cons source rest ih =>
    refine ih ?_ ?_
    · simp only [BatchOutcome.add, store]
    · simp only [BatchOutcome.add, store, report]

/-- A directory's sources are converted in the order of their paths. -/
theorem convertAll_eq (store : Store) (directory : Path) (settings : Settings) :
    (convertAll store directory settings).store =
        (convertInOrder store settings (sources store directory)).store ∧
      (convertAll store directory settings).report =
        (convertInOrder store settings (sources store directory)).report := by
  simp only [convertAll, convertInOrder]
  apply foldl_add_congr
  · rfl
  · rfl

/-- Of conversions that are apart from each other, the one that writes at a place decides what is
there. -/
theorem find?_allContents {order : List Path} (apart : order.Pairwise (Apart store settings))
    {source : Path} (member : source ∈ order) {place : List String}
    (writes : place ∈ written store settings source) :
    (store.putFiles (allContents store settings order)).find? place =
      (store.putFiles (sourceEffect store settings source).contents).find? place := by
  obtain ⟨front, back, rfl⟩ := List.append_of_mem member
  have own := vacant_sourceEffect store settings source
  have before := vacant_allContents store settings front
  have behind := vacant_allContents store settings back
  have split : allContents store settings (front ++ source :: back) =
      allContents store settings front ++
        ((sourceEffect store settings source).contents ++ allContents store settings back) := by
    rw [allContents, List.flatMap_append, List.flatMap_cons]
    rfl
  have moved := own.congr (Store.isDirectory_putFiles before)
  have later := (behind.congr (Store.isDirectory_putFiles before)).congr
    (Store.isDirectory_putFiles moved)
  have untouched : place ∉ (allContents store settings back).map (·.1) := by
    intro member
    obtain ⟨other, among, there⟩ := mem_allContents.mp member
    have pair := (List.pairwise_cons.mp (List.pairwise_append.mp apart).2.1).1 other among
    exact pair.both place writes there
  rw [split, Store.putFiles_append, Store.putFiles_append,
    Store.find?_putFiles_of_not_mem later untouched]
  exact Store.find?_putFiles_of_mem moved own writes

/-- A place that no conversion writes is as it was. -/
theorem find?_allContents_of_not_written {order : List Path} {place : List String}
    (untouched : ∀ source ∈ order, place ∉ written store settings source) :
    (store.putFiles (allContents store settings order)).find? place = store.find? place := by
  refine Store.find?_putFiles_of_not_mem (vacant_allContents store settings order) fun member => ?_
  obtain ⟨source, among, writes⟩ := mem_allContents.mp member
  exact untouched source among writes

/-- Conversions that are apart from each other can be done in any order. -/
theorem find?_allContents_perm {order others : List Path} (perm : order.Perm others)
    (apart : others.Pairwise (Apart store settings)) (place : List String) :
    (store.putFiles (allContents store settings order)).find? place =
      (store.putFiles (allContents store settings others)).find? place := by
  have apart' : order.Pairwise (Apart store settings) :=
    (perm.pairwise_iff fun together => together.symm).mpr apart
  by_cases touched : ∃ source ∈ order, place ∈ written store settings source
  · obtain ⟨source, member, writes⟩ := touched
    rw [find?_allContents apart' member writes, find?_allContents apart (perm.mem_iff.mp member) writes]
  · have untouched : ∀ source ∈ order, place ∉ written store settings source :=
      fun source member writes => touched ⟨source, member, writes⟩
    rw [find?_allContents_of_not_written untouched,
      find?_allContents_of_not_written fun source member => untouched source (perm.mem_iff.mpr member)]

/-! ## Models of sources -/

/-- A source has a name, which has a stem. -/
theorem exists_stem_of_mem_sources {directory source : Path}
    (member : source ∈ sources store directory) : ∃ stem, source.stem? = some stem := by
  have listed := List.mem_mergeSort.mp member
  have extended := (List.mem_filter.mp listed).2
  rw [isSource, Path.extension?] at extended
  rw [Path.stem?]
  cases named : source.fileName? with
  | none =>
    rw [named] at extended
    cases extended
  | some name => exact ⟨_, rfl⟩

/-- No stem of a model has a slash. -/
theorem avoids_stem (path : Path) : Avoids ['/'] (path.stem?.getD defaultStem) := by
  intro c member slash
  rw [List.mem_singleton.mp slash] at member
  cases stemmed : path.stem? with
  | none =>
    rw [stemmed] at member
    exact absurd member (by decide)
  | some stem =>
    rw [stemmed] at member
    exact Path.slash_not_mem_of_stem? stemmed member

/-- A conversion that succeeds leaves the model next to its source. -/
theorem exists_model_of_success {source : Path} {stem : String}
    (stemmed : source.stem? = some stem)
    (success : (sourceEffect store settings source).status = .success) :
    ∃ scene converted bytes place, (loadScene store source settings).scene = .ok scene ∧
      convert scene settings ((outputPath source).stem?.getD defaultStem) = .ok converted ∧
      converted.model.toBytes = .ok bytes ∧ store.resolve? (outputPath source) = some place ∧
      place ∈ written store settings source ∧
      (store.putFiles (sourceEffect store settings source).contents).find? place =
        some (.file bytes) := by
  obtain ⟨scene, converted, files, loaded, converts, encoded, writable, contents⟩ :=
    exists_of_effect_success success
  have slash : '/' ∈ ['/'] := List.mem_singleton_self _
  have baked := (convert_eq_ok_iff.mp converts).2.1
  have names := namesClip_of_convertClips (by decide) (fun _ => avoids_stem _) baked
  have ends : (outputPath source).Ends (stem ++ "." ++ modelExtension) :=
    Path.ends_withExtension stemmed (by decide) (by decide)
  have extended : ("." ++ modelExtension).toList <:+ (stem ++ "." ++ modelExtension).toList := by
    rw [String.append_assoc, String.toList_append (t := "." ++ modelExtension)]
    exact List.suffix_append ..
  have places := nodup_places_of_outputFiles slash names (nodup_of_convertClips baked).1
    ends.fileName? extended encoded store
  obtain ⟨bytes, clips, model, -, rfl⟩ := outputFiles_eq_ok_iff.mp encoded
  obtain ⟨place, leads, touched, held⟩ := exists_find?_of_nodup writable places List.mem_cons_self
  refine ⟨scene, converted, bytes, place, loaded, converts, model, leads, ?_, ?_⟩
  · rw [written, sourceEffect, contents]
    exact touched
  · rw [sourceEffect, contents]
    exact held

/-- If no two sources of a directory meet, its files end up the same whatever the order in which the
sources are converted, and every model that is reported holds what was converted from its source. -/
theorem independent_of_apart {directory : Path}
    (apart : (sources store directory).Pairwise (Apart store settings)) :
    (∀ order : List Path, order.Perm (sources store directory) →
      (∀ place, (convertInOrder store settings order).store.find? place =
          (convertAll store directory settings).store.find? place) ∧
        (convertInOrder store settings order).report.results.Perm
          (convertAll store directory settings).report.results) ∧
    ∀ source, (source, .success) ∈ (convertAll store directory settings).report.results →
      ∃ scene converted bytes, (loadScene store source settings).scene = .ok scene ∧
        convert scene settings ((outputPath source).stem?.getD defaultStem) = .ok converted ∧
        converted.model.toBytes = .ok bytes ∧
        (convertAll store directory settings).store.read (outputPath source) = .ok bytes := by
  obtain ⟨stored, results⟩ := convertInOrder_eq apart
  rw [(convertAll_eq store directory settings).1, (convertAll_eq store directory settings).2, stored,
    results]
  refine ⟨fun order perm => ?_, fun source reported => ?_⟩
  · have together := (perm.pairwise_iff fun pair => pair.symm).mpr apart
    obtain ⟨stored, results⟩ := convertInOrder_eq together
    rw [stored, results]
    exact ⟨find?_allContents_perm perm apart, perm.map _⟩
  · obtain ⟨other, member, same⟩ := List.mem_map.mp reported
    obtain ⟨rfl, success⟩ := Prod.mk.inj same
    obtain ⟨stem, stemmed⟩ := exists_stem_of_mem_sources member
    obtain ⟨scene, converted, bytes, place, loaded, converts, model, leads, writes, held⟩ :=
      exists_model_of_success stemmed success
    have kept := Store.isDirectory_putFiles
      (vacant_allContents store settings (sources store directory))
    rw [← Store.resolve?_congr kept] at leads
    rw [← find?_allContents apart member writes] at held
    exact ⟨scene, converted, bytes, loaded, converts, model, Store.read_of_find? leads held⟩

/-- A yard with a gate and a hut, each in a document of its own. -/
def yard : Store where
  entries := [
    (["yard"], .directory),
    (["yard", "gate.gltf"], documentFile "gate" ["open"]),
    (["yard", "hut.glb"], documentFile "hut" [])]

theorem independent_of_apart_yard :
    (sources yard "yard").Pairwise (Apart yard {}) ∧
    ["yard/hut.glb", "yard/gate.gltf"].Perm (sources yard "yard") ∧
    (∀ place, (convertInOrder yard {} ["yard/hut.glb", "yard/gate.gltf"]).store.find? place =
      (convertAll yard "yard" {}).store.find? place) ∧
    ("yard/gate.gltf", Status.success) ∈ (convertAll yard "yard" {}).report.results ∧
    ∃ scene converted bytes, (loadScene yard "yard/gate.gltf" {}).scene = .ok scene ∧
      convert scene {} ((outputPath "yard/gate.gltf").stem?.getD defaultStem) = .ok converted ∧
      converted.model.toBytes = .ok bytes ∧
      (convertAll yard "yard" {}).store.read (outputPath "yard/gate.gltf") = .ok bytes := by
  have listed : sources yard "yard" = ["yard/gate.gltf", "yard/hut.glb"] :=
    (List.mergeSort_of_pairwise (by decide +kernel)).trans (by decide +kernel)
  have apart : (sources yard "yard").Pairwise (Apart yard {}) := by
    rw [listed]
    decide +kernel
  have perm : ["yard/hut.glb", "yard/gate.gltf"].Perm (sources yard "yard") := by
    rw [listed]
    exact .swap ..
  have reported :
      ("yard/gate.gltf", Status.success) ∈ (convertAll yard "yard" {}).report.results := by
    rw [(convertAll_eq ..).2, listed]
    decide +kernel
  obtain ⟨ordered, models⟩ := independent_of_apart apart
  exact ⟨apart, perm, (ordered _ perm).1, reported, models _ reported⟩

/-- A gate in two documents whose names differ only in their extensions. -/
def twinGates : Store where
  entries := [
    (["yard"], .directory),
    (["yard", "gate.glb"], documentFile "left" []),
    (["yard", "gate.gltf"], documentFile "right" [])]

/-- Settings that keep nodes without meshes. -/
def allNodes : Settings := { optimizeNodes := false }

/-- Both gates are reported as converted, but only the second one's model is left, or the first one's
if that is converted last. -/
theorem twinGates_collide :
    (convertAll twinGates "yard" allNodes).report.results =
      [("yard/gate.glb", .success), ("yard/gate.gltf", .success)] ∧
    (convertAll twinGates "yard" allNodes).store.read "yard/gate.bbmod" ≠
      (convertInOrder twinGates allNodes ["yard/gate.glb"]).store.read "yard/gate.bbmod" ∧
    (convertAll twinGates "yard" allNodes).store.read "yard/gate.bbmod" ≠
      (convertInOrder twinGates allNodes ["yard/gate.gltf", "yard/gate.glb"]).store.read
        "yard/gate.bbmod" := by
  have listed : sources twinGates "yard" = ["yard/gate.glb", "yard/gate.gltf"] :=
    (List.mergeSort_of_pairwise (by decide +kernel)).trans (by decide +kernel)
  rw [(convertAll_eq ..).1, (convertAll_eq ..).2, listed]
  decide +kernel

end SceneBaker.Convert
