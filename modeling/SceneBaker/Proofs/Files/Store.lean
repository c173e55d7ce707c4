import SceneBaker.Files.Store
import SceneBaker.Proofs.Files.Path

/-! # Writing files

A file is written at the place that its path leads to, which depends on the directories alone. So
files that are written leave the places of all paths as they are, and several files can be seen as
contents for places, the last one counting.
-/

namespace SceneBaker.Files.Store

variable {store first second : Store}

/-! ## Entries -/

/-- Old entries of a place are replaced where they stand. -/
theorem lookup_map_replaced (entries : List (List String × Entry)) (place : List String)
    (entry : Entry) (other : List String) :
    (entries.map fun old => if old.1 == place then (place, entry) else old).lookup other =
      (entries.lookup other).map fun old => if other = place then entry else old := by
  induction entries with
  | nil => rfl
  | cons first rest ih =>
    obtain ⟨key, value⟩ := first
    rw [List.map_cons]
    by_cases wanted : other = key
    · subst wanted
      by_cases here : other = place <;> simp [here]
    · have passed : (other == key) = false := by simpa using wanted
      have replaced : ((if key == place then (place, entry) else (key, value)) :
          List String × Entry).1 = key := by
        by_cases here : key = place <;> simp [here]
      rw [List.lookup_cons, List.lookup_cons, replaced, passed]
      exact ih

/-- The working directory aside, a place holds what was put there last. -/
theorem find?_put {place : List String} (below : place ≠ []) (entry : Entry)
    (other : List String) :
    (store.put place entry).find? other =
      if other = place then some entry else store.find? other := by
  have found : (store.put place entry).entries.lookup other =
      if other = place then some entry else store.entries.lookup other := by
    rw [put]
    split
    case isTrue present =>
      obtain ⟨old, held⟩ := Option.isSome_iff_exists.mp present
      rw [lookup_map_replaced]
      by_cases same : other = place
      · simp [same, held]
      · simp [same]
    case isFalse absent =>
      rw [Option.not_isSome_iff_eq_none] at absent
      rw [List.lookup_append]
      by_cases same : other = place
      · simp [same, absent]
      · have passed : (other == place) = false := by simpa using same
        simp [List.lookup_cons, passed, same]
  by_cases top : other = []
  · rw [top, if_neg below.symm]
    rfl
  · have named : other.isEmpty = false := by simpa using top
    simp only [find?, named, Bool.false_eq_true, if_false, found]

/-- Directories stay where they are as files are written. -/
theorem isDirectory_put {place : List String} (vacant : store.isDirectory place = false)
    (bytes : List UInt8) : (store.put place (.file bytes)).isDirectory = store.isDirectory := by
  have below : place ≠ [] := by
    rintro rfl
    cases vacant
  funext other
  rw [isDirectory, find?_put below]
  split
  case isTrue same => rw [same, vacant]; rfl
  case isFalse => rfl

/-! ## Places -/

theorem follow?_congr (same : first.isDirectory = second.isDirectory) (place parts : List String) :
    first.follow? place parts = second.follow? place parts := by
  induction parts generalizing place with
  | nil => rfl
  | cons part parts ih =>
    rw [follow?, follow?, same]
    simp only [ih]

/-- Directories decide where paths lead. -/
theorem resolve?_congr (same : first.isDirectory = second.isDirectory) (path : Path) :
    first.resolve? path = second.resolve? path := by
  rw [resolve?, resolve?, follow?_congr same]

theorem follow?_append (store : Store) (place front back : List String) :
    store.follow? place (front ++ back) =
      (store.follow? place front).bind fun reached => store.follow? reached back := by
  induction front generalizing place with
  | nil => rfl
  | cons part front ih =>
    rw [List.cons_append, follow?, follow?]
    simp only [ih]
    split_ifs <;> rfl

theorem follow?_blanks {blanks place reached : List String}
    (blank : ∀ part ∈ blanks, part = "" ∨ part = ".")
    (leads : store.follow? place blanks = some reached) : reached = place := by
  induction blanks with
  | nil => exact (Option.some.inj leads).symm
  | cons part blanks ih =>
    obtain ⟨here, later⟩ := List.forall_mem_cons.mp blank
    rw [follow?, if_pos here] at leads
    split at leads
    case isTrue => cases leads
    case isFalse => exact ih later leads

/-- A path leads to a place of its name. -/
theorem getLast?_of_resolve? {path : Path} {name : String} (named : path.fileName? = some name)
    {place : List String} (leads : store.resolve? path = some place) :
    place.getLast? = some name := by
  obtain ⟨plain, front, trimmed⟩ := Path.exists_trimmedParts_eq named
  obtain ⟨blanks, blank, parts⟩ := path.exists_parts_eq
  rw [resolve?] at leads
  split at leads
  case isFalse => cases leads
  case isTrue =>
    rw [parts, trimmed, follow?_append, Option.bind_eq_some_iff] at leads
    obtain ⟨reached, leads, rest⟩ := leads
    obtain rfl := follow?_blanks blank rest
    rw [follow?_append] at leads
    obtain ⟨above, -, leads⟩ := Option.bind_eq_some_iff.mp leads
    rw [follow?, if_neg (not_or.mpr ⟨plain.some, plain.notHere⟩), if_neg plain.notAbove] at leads
    split_ifs at leads
    obtain rfl := Option.some.inj leads
    exact List.getLast?_concat

/-- What is read under a path depends on the directories and on the place that the path leads to. -/
theorem read_congr (same : first.isDirectory = second.isDirectory) {path : Path}
    (held : ∀ place, first.resolve? path = some place → first.find? place = second.find? place) :
    first.read path = second.read path := by
  rw [read, read, ← resolve?_congr same]
  cases leads : first.resolve? path with
  | none => rfl
  | some place => simp only [Option.bind_some, held place leads]

theorem read_of_find? {path : Path} {place : List String} {bytes : List UInt8}
    (leads : store.resolve? path = some place) (held : store.find? place = some (.file bytes)) :
    store.read path = .ok bytes := by
  rw [read, leads, Option.bind_some, held]

/-- The path of a new file in the directory of another. -/
def temporary (path : Path) : Path :=
  let directory := match path.parent? with
    | some parent => if parent = "" then "." else parent
    | none => "."
  Path.join directory temporaryName

/-- The place at which a path lets a file be written, through a new one in its directory. -/
def target? (store : Store) (path : Path) : Option (List String) :=
  if (store.resolve? (temporary path)).isSome then
    (store.resolve? path).filter fun place => !store.isDirectory place
  else none

theorem target?_congr (same : first.isDirectory = second.isDirectory) (path : Path) :
    first.target? path = second.target? path := by
  rw [target?, target?, resolve?_congr same, resolve?_congr same, same]

theorem of_target?_eq_some {path : Path} {place : List String}
    (target : store.target? path = some place) :
    store.resolve? path = some place ∧ store.isDirectory place = false := by
  rw [target?] at target
  split at target
  · obtain ⟨leads, vacant⟩ := Option.filter_eq_some_iff.mp target
    exact ⟨leads, by simpa using vacant⟩
  · cases target

/-- A file that can be written holds its bytes; one that cannot be leaves all as it was. -/
theorem replace_eq (path : Path) (bytes : List UInt8) :
    (∃ place, store.target? path = some place ∧
      store.replace path bytes = .ok (store.put place (.file bytes))) ∨
    (store.target? path = none ∧ ∃ reason, store.replace path bytes = .error reason) := by
  have unfolded : store.replace path bytes =
      if (store.resolve? (temporary path)).isSome then store.write path bytes
      else .error "No such file or directory" := rfl
  rw [unfolded, target?, write]
  by_cases reached : (store.resolve? (temporary path)).isSome
  · rw [if_pos reached, if_pos reached]
    cases leads : store.resolve? path with
    | none => exact .inr ⟨rfl, _, rfl⟩
    | some place =>
      cases occupied : store.isDirectory place with
      | true => exact .inr ⟨by simp [occupied], _, by simp only [occupied, if_true]; rfl⟩
      | false => exact .inl ⟨place, by simp [occupied], by simp [occupied]⟩
  · rw [if_neg reached, if_neg reached]
    exact .inr ⟨rfl, _, rfl⟩

/-! ## Several files -/

/-- The store with contents for places, in order. -/
def putFiles (store : Store) (contents : List (List String × List UInt8)) : Store :=
  contents.foldl (fun store (place, bytes) => store.put place (.file bytes)) store

/-- No place is that of a directory. -/
def Vacant (store : Store) (contents : List (List String × List UInt8)) : Prop :=
  ∀ place ∈ contents.map (·.1), store.isDirectory place = false

variable {contents others : List (List String × List UInt8)}

theorem Vacant.append (front : store.Vacant contents) (back : store.Vacant others) :
    store.Vacant (contents ++ others) := by
  intro place member
  rw [List.map_append] at member
  exact (List.mem_append.mp member).elim (front place) (back place)

theorem Vacant.congr (vacant : first.Vacant contents)
    (same : second.isDirectory = first.isDirectory) : second.Vacant contents := by
  intro place member
  rw [same]
  exact vacant place member

theorem putFiles_append (store : Store) (contents others : List (List String × List UInt8)) :
    store.putFiles (contents ++ others) = (store.putFiles contents).putFiles others :=
  List.foldl_append

theorem isDirectory_putFiles (vacant : store.Vacant contents) :
    (store.putFiles contents).isDirectory = store.isDirectory := by
  induction contents generalizing store with
  | nil => rfl
  | cons content contents ih =>
    obtain ⟨here, later⟩ := List.forall_mem_cons.mp vacant
    have kept := isDirectory_put here content.2
    have still : store.Vacant contents := later
    exact (ih (still.congr kept)).trans kept

/-- A place holds the last content for it, or else what it held before. -/
theorem find?_putFiles (vacant : store.Vacant contents) (place : List String) :
    (store.putFiles contents).find? place =
      ((contents.reverse.lookup place).map Entry.file).or (store.find? place) := by
  induction contents generalizing store with
  | nil => rfl
  | cons content contents ih =>
    obtain ⟨target, bytes⟩ := content
    obtain ⟨here, later⟩ := List.forall_mem_cons.mp vacant
    have below : target ≠ [] := by
      rintro rfl
      cases here
    have still : store.Vacant contents := later
    rw [List.reverse_cons, List.lookup_append]
    refine (ih (still.congr (isDirectory_put here bytes))).trans ?_
    rw [find?_put below]
    cases contents.reverse.lookup place with
    | some found => rfl
    | none =>
      by_cases same : place = target
      · simp [same]
      · have passed : (place == target) = false := by simpa using same
        simp [List.lookup_cons, passed, same]

theorem lookup_reverse_of_not_mem {place : List String} (untouched : place ∉ contents.map (·.1)) :
    contents.reverse.lookup place = none := by
  rw [List.lookup_eq_none_iff]
  intro content member
  have other : place ≠ content.1 := fun same =>
    untouched (same ▸ List.mem_map_of_mem (List.mem_reverse.mp member))
  simpa using other

/-- A place with one content holds it. -/
theorem find?_putFiles_of_nodup (vacant : store.Vacant contents)
    (distinct : (contents.map (·.1)).Nodup) {place : List String} {bytes : List UInt8}
    (member : (place, bytes) ∈ contents) :
    (store.putFiles contents).find? place = some (.file bytes) := by
  have found : contents.reverse.lookup place = some bytes := by
    obtain ⟨front, back, rfl⟩ := List.append_of_mem member
    rw [List.map_append, List.map_cons, List.nodup_append] at distinct
    have last := lookup_reverse_of_not_mem (List.nodup_cons.mp distinct.2.1).1
    rw [List.reverse_append, List.reverse_cons, List.lookup_append, List.lookup_append, last]
    simp
  rw [find?_putFiles vacant, found]
  rfl

/-- Places without new contents are as they were. -/
theorem find?_putFiles_of_not_mem (vacant : store.Vacant contents) {place : List String}
    (untouched : place ∉ contents.map (·.1)) :
    (store.putFiles contents).find? place = store.find? place := by
  rw [find?_putFiles vacant, lookup_reverse_of_not_mem untouched]
  rfl

/-- What a place with new contents holds does not depend on what it held before. -/
theorem find?_putFiles_of_mem (before : first.Vacant contents) (after : second.Vacant contents)
    {place : List String} (touched : place ∈ contents.map (·.1)) :
    (first.putFiles contents).find? place = (second.putFiles contents).find? place := by
  have something : (contents.reverse.lookup place).isSome := by
    obtain ⟨content, member, rfl⟩ := List.mem_map.mp touched
    rw [List.lookup_isSome_iff]
    exact ⟨content, List.mem_reverse.mpr member, beq_self_eq_true _⟩
  obtain ⟨bytes, found⟩ := Option.isSome_iff_exists.mp something
  rw [find?_putFiles before, find?_putFiles after, found]
  rfl

end SceneBaker.Files.Store
