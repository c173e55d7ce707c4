import SceneBaker.Files.Path
import Mathlib.Data.List.Basic
import Mathlib.Data.List.TakeDrop

/-! # Parts of paths

A path is its parts with slashes between them. A path that ends in a plain name has that name, and
what is joined to a directory lies directly in it.
-/

namespace SceneBaker.Files.Path

/-- A part that names a file or a directory. -/
structure Plain (part : String) : Prop where
  some : part ≠ ""
  notHere : part ≠ "."
  notAbove : part ≠ ".."
  whole : '/' ∉ part.toList

/-- A path with a plain name as its last part. -/
def Ends (path : Path) (name : String) : Prop :=
  Plain name ∧ ∃ front, path.parts = front ++ [name]

/-- A path without what means nothing at its end. -/
def tidy (path : Path) : Path :=
  if path.trimmedParts.isEmpty ∧ path.isAbsolute then "/" else ofParts path.trimmedParts

/-! ## Parts -/

theorem toList_ofParts (parts : List String) :
    (ofParts parts).toList = ['/'].intercalate (parts.map String.toList) :=
  String.toList_intercalate

theorem parts_ofParts {parts : List String} (some : parts ≠ [])
    (whole : ∀ part ∈ parts, '/' ∉ part.toList) : (ofParts parts).parts = parts := by
  have separate : ∀ text ∈ parts.map String.toList, '/' ∉ text := by
    simpa only [List.forall_mem_map] using whole
  rw [Path.parts, toList_ofParts, List.splitOn_intercalate _ separate (by simpa using some),
    List.map_map]
  have same : String.ofList ∘ String.toList = id := funext fun _ => String.ofList_toList
  rw [same, List.map_id]

theorem parts_of_whole {part : String} (whole : '/' ∉ part.toList) : parts part = [part] := by
  have alone := parts_ofParts (List.cons_ne_nil part []) (by simpa using whole)
  rwa [show ofParts [part] = part from String.intercalate_singleton] at alone

/-- No piece of a split text has the character at which it was split. -/
theorem not_mem_of_mem_splitOn {separator : Char} {text piece : List Char}
    (member : piece ∈ text.splitOn separator) : separator ∉ piece := by
  induction text generalizing piece with
  | nil =>
    rw [List.splitOn_nil, List.mem_singleton] at member
    rw [member]
    exact List.not_mem_nil
  | cons first rest ih =>
    rw [List.splitOn_cons_eq_if_modifyHead] at member
    split at member
    case isTrue here =>
      rcases List.mem_cons.mp member with rfl | later
      · exact List.not_mem_nil
      · exact ih later
    case isFalse other =>
      obtain ⟨head, tail, split⟩ := List.exists_cons_of_ne_nil (List.splitOn_ne_nil separator rest)
      rw [split] at member ih
      rcases List.mem_cons.mp member with rfl | later
      · have different : separator ≠ first := fun same => other (by simp [same])
        exact List.not_mem_cons_of_ne_of_not_mem different (ih List.mem_cons_self)
      · exact ih (List.mem_cons_of_mem head later)

theorem whole_of_mem_parts {path : Path} {part : String} (member : part ∈ path.parts) :
    '/' ∉ part.toList := by
  obtain ⟨text, split, rfl⟩ := List.mem_map.mp member
  rw [String.toList_ofList]
  exact not_mem_of_mem_splitOn split

theorem parts_append_slash (front back : Path) :
    parts (front ++ "/" ++ back) = front.parts ++ back.parts := by
  have text : (front ++ "/" ++ back).toList = front.toList ++ '/' :: back.toList := by
    simp [String.toList_append]
  rw [parts, text, List.splitOn_append_cons_self, List.map_append, parts, parts]

theorem parts_ne_nil (path : Path) : path.parts ≠ [] := by
  rw [parts, Ne, List.map_eq_nil_iff]
  exact List.splitOn_ne_nil _ _

/-! ## Blank parts -/

theorem dropBlankParts_idem (parts : List String) :
    dropBlankParts (dropBlankParts parts) = dropBlankParts parts := by
  fun_induction dropBlankParts parts with
  | case1 => rfl
  | case2 => rfl
  | case3 only some => rw [dropBlankParts, if_neg some]
  | case4 last rest _ _ ih => exact ih
  | case5 last rest many some => rw [dropBlankParts.eq_3 _ _ many, if_neg some]

theorem dropBlankParts_suffix (parts : List String) : dropBlankParts parts <:+ parts := by
  fun_induction dropBlankParts parts with
  | case1 => exact List.suffix_refl _
  | case2 => exact List.nil_suffix
  | case3 => exact List.suffix_refl _
  | case4 last rest _ _ ih => exact ih.trans (List.suffix_cons ..)
  | case5 => exact List.suffix_refl _

theorem dropBlankParts_plain {name : String} (plain : Plain name) (rest : List String) :
    dropBlankParts (name :: rest) = name :: rest := by
  cases rest with
  | nil => rw [dropBlankParts, if_neg plain.some]
  | cons next rest =>
    rw [dropBlankParts.eq_3 _ _ (List.cons_ne_nil next rest),
      if_neg (not_or.mpr ⟨plain.some, plain.notHere⟩)]

/-- The parts that are dropped mean nothing. -/
theorem exists_blanks_append (reversed : List String) :
    ∃ blanks, (∀ part ∈ blanks, part = "" ∨ part = ".") ∧
      reversed = blanks ++ dropBlankParts reversed := by
  fun_induction dropBlankParts reversed with
  | case1 => exact ⟨[], nofun, rfl⟩
  | case2 => exact ⟨[""], by simp, rfl⟩
  | case3 => exact ⟨[], nofun, rfl⟩
  | case4 last rest _ blank ih =>
    obtain ⟨blanks, others, split⟩ := ih
    exact ⟨last :: blanks, List.forall_mem_cons.mpr ⟨blank, others⟩, congrArg (last :: ·) split⟩
  | case5 => exact ⟨[], nofun, rfl⟩

theorem exists_parts_eq (path : Path) :
    ∃ blanks, (∀ part ∈ blanks, part = "" ∨ part = ".") ∧
      path.parts = path.trimmedParts ++ blanks := by
  obtain ⟨blanks, blank, split⟩ := exists_blanks_append path.parts.reverse
  refine ⟨blanks.reverse, fun part member => blank part (List.mem_reverse.mp member), ?_⟩
  rw [trimmedParts, ← List.reverse_append, ← split, List.reverse_reverse]

/-! ## Pieces -/

/-- What a part of a path means at its position. -/
def piece? (absolute : Bool) (part : String) (position : Nat) : Option Piece :=
  if part = "" then if position = 0 ∧ absolute then some .root else none
  else if part = "." then if position = 0 then some .here else none
  else if part = ".." then some .above
  else some (.name part)

/-- What parts of a path mean. -/
def meaning (absolute : Bool) (parts : List String) : List Piece :=
  parts.zipIdx.filterMap fun (part, position) => piece? absolute part position

theorem pieces_eq (path : Path) : path.pieces = meaning path.isAbsolute path.parts := rfl

theorem getLast?_meaning (absolute : Bool) (front : List String) (last : String) :
    (meaning absolute (front ++ [last])).getLast? =
      (piece? absolute last front.length).or (meaning absolute front).getLast? := by
  rw [meaning, List.zipIdx_append, List.filterMap_append, List.getLast?_append, meaning,
    List.zipIdx_singleton, Nat.zero_add]
  cases means : piece? absolute last front.length <;> simp [means]

theorem piece?_eq_name {absolute : Bool} {part name : String} {position : Nat}
    (means : piece? absolute part position = some (.name name)) :
    part = name ∧ name ≠ "" ∧ name ≠ "." ∧ name ≠ ".." := by
  grind [piece?]

theorem piece?_of_blank {absolute : Bool} {part : String} {position : Nat}
    (blank : part = "" ∨ part = ".") (later : position ≠ 0) : piece? absolute part position = none := by
  grind [piece?]

theorem piece?_of_not_blank {absolute : Bool} {part : String} {position : Nat}
    (some : ¬(part = "" ∨ part = ".")) : (piece? absolute part position).isSome := by
  grind [piece?]

/-! ## Paths with names -/

theorem Ends.trimmedParts_eq {path : Path} {name : String} (ends : Ends path name) :
    path.trimmedParts = path.parts := by
  obtain ⟨plain, front, split⟩ := ends
  rw [trimmedParts, split, List.reverse_append, List.reverse_singleton, List.singleton_append,
    dropBlankParts_plain plain, List.reverse_cons, List.reverse_reverse]

theorem Ends.getLast?_pieces {path : Path} {name : String} (ends : Ends path name) :
    path.pieces.getLast? = some (.name name) := by
  obtain ⟨plain, front, split⟩ := ends
  have means : piece? path.isAbsolute name front.length = some (.name name) := by
    rw [piece?, if_neg plain.some, if_neg plain.notHere, if_neg plain.notAbove]
  rw [pieces_eq, split, getLast?_meaning, means, Option.some_or]

theorem Ends.fileName? {path : Path} {name : String} (ends : Ends path name) :
    path.fileName? = some name := by
  rw [Path.fileName?, ends.getLast?_pieces]

/-- The last piece comes from the last part that means something. -/
theorem exists_dropBlankParts_eq {absolute : Bool} {reversed : List String} {name : String}
    (last : (meaning absolute reversed.reverse).getLast? = some (.name name)) :
    (name ≠ "" ∧ name ≠ "." ∧ name ≠ "..") ∧ ∃ rest, dropBlankParts reversed = name :: rest := by
  fun_induction dropBlankParts reversed with
  | case1 => cases last
  | case2 =>
    rw [List.reverse_singleton, ← List.nil_append [""], getLast?_meaning] at last
    have nothing : (meaning absolute []).getLast? = none := rfl
    rw [nothing, Option.or_none] at last
    exact absurd (piece?_eq_name last).1.symm (piece?_eq_name last).2.1
  | case3 only some =>
    rw [List.reverse_singleton, ← List.nil_append [only], getLast?_meaning] at last
    have nothing : (meaning absolute []).getLast? = none := rfl
    rw [nothing, Option.or_none] at last
    obtain ⟨rfl, plain⟩ := piece?_eq_name last
    exact ⟨plain, [], rfl⟩
  | case4 part rest many blank ih =>
    rw [List.reverse_cons, getLast?_meaning] at last
    have later : rest.reverse.length ≠ 0 := by simpa using many
    rw [piece?_of_blank blank later, Option.none_or] at last
    exact ih last
  | case5 part rest many some =>
    rw [List.reverse_cons, getLast?_meaning,
      Option.or_of_isSome (piece?_of_not_blank some)] at last
    obtain ⟨rfl, plain⟩ := piece?_eq_name last
    exact ⟨plain, rest, rfl⟩

/-- The name of a path is the last of its parts that mean something. -/
theorem exists_trimmedParts_eq {path : Path} {name : String} (named : path.fileName? = some name) :
    Plain name ∧ ∃ front, path.trimmedParts = front ++ [name] := by
  have last : path.pieces.getLast? = some (.name name) := by
    rw [fileName?] at named
    split at named
    case h_1 text last => rw [last, Option.some.inj named]
    case h_2 => cases named
  rw [pieces_eq, ← List.reverse_reverse path.parts] at last
  obtain ⟨⟨some, notHere, notAbove⟩, rest, trimmed⟩ := exists_dropBlankParts_eq last
  have member : name ∈ path.parts := by
    have kept := (dropBlankParts_suffix path.parts.reverse).subset
    rw [trimmed] at kept
    exact List.mem_reverse.mp (kept List.mem_cons_self)
  refine ⟨⟨some, notHere, notAbove, whole_of_mem_parts member⟩, rest.reverse, ?_⟩
  rw [trimmedParts, trimmed, List.reverse_cons]

/-! ## Joining -/

theorem isAbsolute_append {front : Path} (some : front ≠ "") (back : Path) :
    isAbsolute (front ++ back) = front.isAbsolute := by
  have starts : front.toList ≠ [] := by simpa using some
  rw [isAbsolute, isAbsolute, String.toList_append, List.head?_append_of_ne_nil _ starts]

/-- A name below a directory comes last, after parts that mean what the directory's mean. -/
theorem exists_parts_join {name : String} (plain : Plain name) (directory : Path) :
    ∃ above, (directory.join name).parts = above ++ [name] ∧
      dropBlankParts above.reverse = dropBlankParts directory.parts.reverse ∧
      (directory.join name).isAbsolute = directory.isAbsolute := by
  have relative : isAbsolute name = false := by
    have start : name.toList.head? ≠ some '/' := fun first =>
      plain.whole (List.mem_of_mem_head? first)
    simpa [isAbsolute] using start
  rw [join, if_neg (by simp [relative])]
  by_cases none : directory = ""
  · subst none
    rw [if_pos (.inl rfl), String.empty_append]
    exact ⟨[], parts_of_whole plain.whole, rfl, relative⟩
  · by_cases slash : directory.toList.getLast? = some '/'
    · obtain ⟨text, split⟩ := List.getLast?_eq_some_iff.mp slash
      obtain ⟨front, ended⟩ : ∃ front : Path, directory = front ++ "/" := by
        refine ⟨String.ofList text, ?_⟩
        rw [← String.toList_inj, split]
        simp
      have nothing : parts "" = [""] := parts_of_whole (by decide)
      have blank : directory.parts = front.parts ++ [""] := by
        rw [ended, ← String.append_empty (s := front ++ "/"), parts_append_slash, nothing]
      refine ⟨front.parts, ?_, ?_, ?_⟩
      · rw [if_pos (.inr slash), ended, parts_append_slash, parts_of_whole plain.whole]
      · have several : front.parts.reverse ≠ [] := by simpa using front.parts_ne_nil
        rw [blank, List.reverse_append, List.reverse_singleton, List.singleton_append,
          dropBlankParts.eq_3 _ _ several, if_pos (.inl rfl)]
      · rw [if_pos (.inr slash), isAbsolute_append none]
    · rw [if_neg (not_or.mpr ⟨none, slash⟩), parts_append_slash, parts_of_whole plain.whole,
        String.append_assoc, isAbsolute_append none]
      exact ⟨_, rfl, rfl, rfl⟩

theorem ends_join {name : String} (plain : Plain name) (directory : Path) :
    Ends (directory.join name) name := by
  obtain ⟨above, split, -⟩ := exists_parts_join plain directory
  exact ⟨plain, above, split⟩

/-- What is joined to a directory lies in it. -/
theorem parent?_join {name : String} (plain : Plain name) (directory : Path) :
    (directory.join name).parent? = some directory.tidy := by
  obtain ⟨above, split, same, absolute⟩ := exists_parts_join plain directory
  have ends := ends_join plain directory
  have parent : dropBlankParts ((directory.join name).trimmedParts.reverse.drop 1) =
      directory.trimmedParts.reverse := by
    rw [ends.trimmedParts_eq, split, List.reverse_append, List.reverse_singleton,
      List.singleton_append, List.drop_one, List.tail_cons, same, trimmedParts,
      List.reverse_reverse]
  rw [parent?, ends.getLast?_pieces]
  simp only [parent, List.reverse_reverse, absolute]
  rfl

theorem tidy_ofParts {reversed : List String} (whole : ∀ part ∈ reversed, '/' ∉ part.toList)
    (trimmed : dropBlankParts reversed = reversed) :
    (ofParts reversed.reverse).tidy = ofParts reversed.reverse := by
  by_cases none : reversed = []
  · subst none
    rfl
  · have several : reversed.reverse ≠ [] := by simpa using none
    have parts := parts_ofParts several fun part member => whole part (List.mem_reverse.mp member)
    have same : trimmedParts (ofParts reversed.reverse) = reversed.reverse := by
      rw [trimmedParts, parts, List.reverse_reverse, trimmed]
    rw [tidy, same, if_neg (by simp [none])]

/-- The directory of a path has no blank parts at its end. -/
theorem tidy_of_parent? {path directory : Path} (above : path.parent? = some directory) :
    directory.tidy = directory := by
  rw [parent?] at above
  split at above
  case h_3 =>
    obtain rfl := Option.some.inj above
    split
    · decide +kernel
    · refine tidy_ofParts (fun part member => ?_) (dropBlankParts_idem _)
      have kept := List.mem_of_mem_drop ((dropBlankParts_suffix _).subset member)
      rw [trimmedParts, List.reverse_reverse] at kept
      exact whole_of_mem_parts (List.mem_reverse.mp ((dropBlankParts_suffix _).subset kept))
  all_goals cases above

/-! ## Extensions -/

/-- What stands before the extension of a name is part of the name. -/
theorem subset_of_splitName (name : String) : (splitName name).1.toList ⊆ name.toList := by
  rw [splitName]
  split
  · exact List.Subset.refl _
  · exact List.Subset.refl _
  · next extension dot stem _ split =>
    rw [List.span_eq_takeWhile_dropWhile] at split
    have ended : dot :: stem <:+ name.toList.reverse := by
      rw [← (Prod.mk.inj split).2]
      exact List.dropWhile_suffix _
    intro c member
    rw [String.toList_ofList, List.mem_reverse] at member
    exact List.mem_reverse.mp (ended.subset (List.mem_cons_of_mem _ member))

theorem slash_not_mem_of_stem? {path : Path} {stem : String} (stemmed : path.stem? = some stem) :
    '/' ∉ stem.toList := by
  obtain ⟨name, named, rfl⟩ := Option.map_eq_some_iff.mp stemmed
  exact fun member => (exists_trimmedParts_eq named).1.whole (subset_of_splitName name member)

/-- A path gets an extension by changing its name. -/
theorem ends_withExtension {path : Path} {stem extension : String}
    (stemmed : path.stem? = some stem) (long : 2 ≤ extension.length)
    (whole : '/' ∉ extension.toList) :
    (path.withExtension extension).Ends (stem ++ "." ++ extension) := by
  have clear := slash_not_mem_of_stem? stemmed
  have plain : Plain (stem ++ "." ++ extension) := by
    have length : (stem ++ "." ++ extension).length = stem.length + 1 + extension.length := by
      rw [String.length_append, String.length_append]
      rfl
    constructor
    · intro same
      rw [same] at length
      change 0 = _ at length
      omega
    · intro same
      rw [same] at length
      change 1 = _ at length
      omega
    · intro same
      rw [same] at length
      change 2 = _ at length
      omega
    · simp [String.toList_append, clear, whole]
  rw [withExtension, stemmed]
  refine ⟨plain, path.trimmedParts.dropLast, ?_⟩
  apply parts_ofParts (by simp)
  intro part member
  rcases List.mem_append.mp member with front | last
  · have kept := (dropBlankParts_suffix _).subset (List.mem_reverse.mp (List.dropLast_subset _ front))
    exact whole_of_mem_parts (List.mem_reverse.mp kept)
  · rw [List.mem_singleton.mp last]
    exact plain.whole
end SceneBaker.Files.Path
