import SceneBaker.Proofs.Build.Conversion
import Mathlib.Data.List.Perm.Subperm

/-! # File names of clips

A file name that is taken gets the first number that makes it free. There is one: numbered names
differ from each other, and more of them are tried than names are taken. So the file names of a
conversion are all different. None of them has a character that file names may not have, and each
has the extension of animation files.
-/

namespace SceneBaker.Build

open Number Model Animation Scene Steps

/-- Text without certain characters. -/
def Avoids (chars : List Char) (text : String) : Prop := ∀ c ∈ text.toList, c ∉ chars

/-- The name of an animation file, as far as its characters go. -/
structure NamesClip (chars : List Char) (name : String) : Prop where
  avoids : Avoids chars name
  extension : ("." ++ animationExtension).toList <:+ name.toList

-- Looks at the characters of the text, not at all that there are.
instance (chars : List Char) (text : String) : Decidable (Avoids chars text) :=
  List.decidableBAll (· ∉ chars) text.toList

section Characters

variable {chars : List Char}

theorem Avoids.append {first second : String} (front : Avoids chars first)
    (back : Avoids chars second) : Avoids chars (first ++ second) := by
  intro c member
  rw [String.toList_append] at member
  exact (List.mem_append.mp member).elim (front c) (back c)

theorem Avoids.mono {others : List Char} {text : String} (avoids : Avoids others text)
    (fewer : chars ⊆ others) : Avoids chars text :=
  fun c member among => avoids c member (fewer among)

theorem avoids_toString (number : Nat) : Avoids illegalChars (toString number) := by
  intro c member
  rw [Nat.toString_eq_repr, Nat.toList_repr] at member
  have digit := Nat.isDigit_of_mem_toDigits (by decide) (by decide) member
  intro illegal
  have none : (illegalChars.any Char.isDigit) = false := by decide
  exact List.any_eq_false.mp none c illegal digit

theorem avoids_clipFileStem (name : String) (index : Nat) :
    Avoids illegalChars (clipFileStem name index) := by
  rw [clipFileStem]
  split
  · exact Avoids.append (by decide) (avoids_toString index)
  · intro c member
    rw [String.toList_ofList] at member
    obtain ⟨old, -, same⟩ := List.mem_map.mp member
    by_cases illegal : illegalChars.contains old = true
    · rw [if_pos illegal] at same
      rw [← same]
      decide
    · rw [if_neg illegal] at same
      rw [← same]
      simpa using illegal

variable (fewer : chars ⊆ illegalChars) {stem : String}
include fewer

theorem namesClip_of_avoids (avoids : Avoids chars stem) :
    NamesClip chars (stem ++ "." ++ animationExtension) := by
  have dot : Avoids illegalChars "." := by decide
  have extension : Avoids illegalChars animationExtension := by decide
  constructor
  · exact (avoids.append (dot.mono fewer)).append (extension.mono fewer)
  · rw [String.append_assoc, String.toList_append (t := "." ++ animationExtension)]
    exact List.suffix_append ..

/-- A clip's file name has a character that names may not have only if the model's stem does. -/
theorem namesClip_clipFileName {withStem : Bool}
    (avoids : withStem = true → Avoids chars stem) (name : String) (index : Nat) :
    NamesClip chars (clipFileName stem name index withStem) := by
  apply namesClip_of_avoids fewer
  refine Avoids.append ?_ ((avoids_clipFileStem name index).mono fewer)
  have separator : Avoids illegalChars "_" := by decide
  split
  case isTrue given => exact (avoids given).append (separator.mono fewer)
  case isFalse => exact fun c member => absurd member (List.not_mem_nil)

theorem namesClip_numberedName (avoids : Avoids chars stem) (number : Nat) :
    NamesClip chars (numberedName stem number) := by
  have separator : Avoids illegalChars "_" := by decide
  exact namesClip_of_avoids fewer
    ((avoids.append (separator.mono fewer)).append ((avoids_toString number).mono fewer))

omit fewer

theorem isPrefix_dropEndings (ending : List Char) (fuel : Nat) (text : List Char) :
    dropEndings ending fuel text <+: text := by
  induction fuel generalizing text with
  | zero => exact List.prefix_refl text
  | succ fuel ih =>
    rw [dropEndings]
    split
    · exact (ih _).trans (List.take_prefix ..)
    · exact List.prefix_refl text

theorem Avoids.fileStem {fileName : String} (avoids : Avoids chars fileName) :
    Avoids chars (fileStem fileName) := by
  intro c member
  rw [Build.fileStem, String.toList_ofList] at member
  exact avoids c ((isPrefix_dropEndings ..).subset member)

end Characters

/-! ## Free names -/

theorem numberedName_injective (stem : String) : Function.Injective (numberedName stem) := by
  intro first second same
  have front : stem ++ "_" ++ toString first ++ "." ++ animationExtension =
      stem ++ "_" ++ toString second ++ "." ++ animationExtension := same
  rw [String.append_left_inj, String.append_left_inj, String.append_right_inj,
    Nat.toString_eq_repr, Nat.toString_eq_repr] at front
  have digits := congrArg (Nat.ofDigitChars 10 ·.toList 0) front
  simpa only [Nat.toList_repr, Nat.ofDigitChars_toDigits (b := 10) (by decide) (by decide)]
    using digits

/-- Of more numbered names than names are taken, one is free. -/
theorem exists_free (taken : List String) (stem : String) (index : Nat) :
    ∃ count ≤ taken.length, numberedName stem (index + count) ∉ taken := by
  by_contra all
  push Not at all
  have distinct : ((List.range (taken.length + 1)).map
      fun count => numberedName stem (index + count)).Nodup := by
    refine List.nodup_range.map fun first second same => ?_
    exact Nat.add_left_cancel (numberedName_injective stem same)
  have inside : (List.range (taken.length + 1)).map
      (fun count => numberedName stem (index + count)) ⊆ taken := by
    intro name member
    obtain ⟨count, below, rfl⟩ := List.mem_map.mp member
    exact all count (Nat.lt_succ_iff.mp (List.mem_range.mp below))
  have length := (distinct.subperm inside).length_le
  rw [List.length_map, List.length_range] at length
  omega

/-- A taken name gets the first number that makes it free, after at most as many attempts as names
are taken. -/
theorem exists_freeName_eq {taken : List String} {fileName : String} (used : fileName ∈ taken)
    (index : Nat) : ∃ count ≤ taken.length,
      freeName taken fileName index = numberedName (fileStem fileName) (index + count) ∧
      numberedName (fileStem fileName) (index + count) ∉ taken ∧
      ∀ earlier < count, numberedName (fileStem fileName) (index + earlier) ∈ taken := by
  have some := exists_free taken (fileStem fileName) index
  obtain ⟨few, free⟩ := Nat.find_spec some
  have first : (List.range (taken.length + 1)).find? (fun count =>
      !taken.contains (numberedName (fileStem fileName) (index + count))) = Nat.find some := by
    rw [List.find?_range_eq_some]
    refine ⟨by simpa using free, List.mem_range.mpr (Nat.lt_succ_iff.mpr few), ?_⟩
    intro earlier before
    have taken := Nat.find_min some before
    rw [not_and, not_not] at taken
    simpa using taken (before.le.trans few)
  refine ⟨Nat.find some, few, ?_, free, fun earlier before => ?_⟩
  · rw [freeName, if_pos (by simpa using used)]
    simp only [List.find?_map, Function.comp_def, first]
    rfl
  · have taken := Nat.find_min some before
    rw [not_and, not_not] at taken
    exact taken (before.le.trans few)

theorem freeName_of_free {taken : List String} {fileName : String} (free : fileName ∉ taken)
    (index : Nat) : freeName taken fileName index = fileName :=
  if_neg (by simpa using free)

theorem freeName_not_mem (taken : List String) (fileName : String) (index : Nat) :
    freeName taken fileName index ∉ taken := by
  by_cases used : fileName ∈ taken
  · obtain ⟨count, -, same, free, -⟩ := exists_freeName_eq used index
    rwa [same]
  · rwa [freeName_of_free used]

theorem NamesClip.freeName {chars : List Char} (fewer : chars ⊆ illegalChars) {fileName : String}
    (names : NamesClip chars fileName) (taken : List String) (index : Nat) :
    NamesClip chars (freeName taken fileName index) := by
  by_cases used : fileName ∈ taken
  · obtain ⟨count, -, same, -⟩ := exists_freeName_eq used index
    rw [same]
    exact namesClip_numberedName fewer names.avoids.fileStem _
  · rwa [freeName_of_free used]

/-! ## Conversions -/

variable {scene : Scene Single} {settings : Settings} {model : Model} {stem : String}

/-- The clips of a conversion have different file names, none of which was taken before. -/
theorem nodup_of_convertClips {taken : List String} {index : Nat} {clips : List (Clip Single)}
    {made : List ConvertedClip}
    (success : convertClips model settings stem taken index clips = .ok made) :
    (made.map (·.fileName)).Nodup ∧ ∀ clip ∈ made, clip.fileName ∉ taken := by
  induction clips generalizing taken index made with
  | nil =>
    cases success
    exact ⟨List.nodup_nil, nofun⟩
  | cons clip clips ih =>
    obtain ⟨animation, others, -, rest, rfl⟩ := convertClips_cons.mp success
    obtain ⟨distinct, fresh⟩ := ih rest
    constructor
    · refine List.nodup_cons.mpr ⟨fun member => ?_, distinct⟩
      obtain ⟨other, among, same⟩ := List.mem_map.mp member
      exact fresh other among (same ▸ List.mem_cons_self)
    · rw [List.forall_mem_cons]
      exact ⟨freeName_not_mem _ _ _, fun other among => fun used =>
        fresh other among (List.mem_cons_of_mem _ used)⟩

theorem namesClip_of_convertClips {chars : List Char} (fewer : chars ⊆ illegalChars)
    (avoids : settings.namePrefixed = true → Avoids chars stem)
    {taken : List String} {index : Nat} {clips : List (Clip Single)} {made : List ConvertedClip}
    (success : convertClips model settings stem taken index clips = .ok made) :
    ∀ clip ∈ made, NamesClip chars clip.fileName := by
  induction clips generalizing taken index made with
  | nil =>
    cases success
    nofun
  | cons clip clips ih =>
    obtain ⟨animation, others, -, rest, rfl⟩ := convertClips_cons.mp success
    rw [List.forall_mem_cons]
    exact ⟨(namesClip_clipFileName fewer avoids ..).freeName fewer .., ih rest⟩

end SceneBaker.Build
