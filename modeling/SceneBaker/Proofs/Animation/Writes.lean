import Mathlib.Data.List.Nodup

/-! # Writing by key

Entries that are written into an array under their keys overwrite one another in order. With distinct
keys every entry is found under its key, and the rest of the array is as it was.
-/

namespace SceneBaker.Animation

variable {α β : Type} {key : β → Nat} {value : β → α} {entries : List β} {array : Array α}

/-- Write the value of every entry at its key, if the array is that long. -/
def writeAll (key : β → Nat) (value : β → α) (entries : List β) (array : Array α) : Array α :=
  entries.foldl (fun array entry => array.setIfInBounds (key entry) (value entry)) array

@[simp] theorem size_writeAll : (writeAll key value entries array).size = array.size := by
  induction entries generalizing array with
  | nil => rfl
  | cons entry entries ih => exact ih.trans Array.size_setIfInBounds

/-- The last entry with a key decides what is found there. -/
theorem getElem?_writeAll (index : Nat) : (writeAll key value entries array)[index]? =
    array[index]?.map fun old => ((entries.findRev? (key · == index)).map value).getD old := by
  induction entries generalizing array with
  | nil => simp [writeAll]
  | cons entry entries ih =>
    change (writeAll key value entries (array.setIfInBounds (key entry) (value entry)))[index]? = _
    rw [ih, List.findRev?]
    cases entries.findRev? (key · == index) with
    | some later =>
      by_cases same : key entry = index
      · by_cases inside : index < array.size <;> simp [same, inside]
      · simp [same]
    | none =>
      by_cases same : key entry = index
      · by_cases inside : index < array.size <;> simp [same, inside]
      · simp [same]

/-- What is found from the end is an entry that holds the property. -/
theorem of_findRev?_eq_some {p : β → Bool} {entry : β} (found : entries.findRev? p = some entry) :
    entry ∈ entries ∧ p entry = true := by
  rw [List.findRev?_eq_find?_reverse] at found
  exact ⟨List.mem_reverse.mp (List.mem_of_find?_eq_some found), List.find?_some found⟩

theorem exists_findRev? {p : β → Bool} {entry : β} (member : entry ∈ entries)
    (holds : p entry = true) : ∃ last, entries.findRev? p = some last := by
  rw [← Option.isSome_iff_exists, List.findRev?_eq_find?_reverse, List.find?_isSome]
  exact ⟨entry, List.mem_reverse.mpr member, holds⟩

theorem findRev?_key {κ : Type} [BEq κ] [LawfulBEq κ] {key : β → κ}
    (distinct : (entries.map key).Nodup) {entry : β} (member : entry ∈ entries) :
    entries.findRev? (key · == key entry) = some entry := by
  obtain ⟨last, found⟩ := exists_findRev? (p := (key · == key entry)) member (beq_self_eq_true _)
  obtain ⟨listed, same⟩ := of_findRev?_eq_some found
  rw [found, List.inj_on_of_nodup_map distinct listed member (eq_of_beq same)]

theorem findRev?_absent {index : Nat} (absent : ∀ entry ∈ entries, key entry ≠ index) :
    entries.findRev? (key · == index) = none := by
  simpa using absent

theorem getElem?_writeAll_of_mem (distinct : (entries.map key).Nodup) {entry : β}
    (member : entry ∈ entries) (inside : key entry < array.size) :
    (writeAll key value entries array)[key entry]? = some (value entry) := by
  rw [getElem?_writeAll, findRev?_key distinct member, Array.getElem?_eq_getElem inside]
  rfl

theorem getElem?_writeAll_of_absent {index : Nat} (absent : ∀ entry ∈ entries, key entry ≠ index) :
    (writeAll key value entries array)[index]? = array[index]? := by
  rw [getElem?_writeAll, findRev?_absent absent]
  simp

/-- Entries are lost without a trace when all their keys are written again. -/
theorem writeAll_writeAll {γ : Type} {again : γ → Nat} {final : γ → α} {later : List γ}
    (covered : ∀ entry ∈ entries, ∃ other ∈ later, again other = key entry) :
    writeAll again final later (writeAll key value entries array) =
      writeAll again final later array := by
  apply Array.ext_getElem?
  intro index
  simp only [getElem?_writeAll, Option.map_map]
  cases found : later.findRev? (again · == index) with
  | some other => rfl
  | none =>
    have missed : ∀ other ∈ later, again other ≠ index := by simpa using found
    rw [findRev?_absent]
    · rfl
    · intro entry member same
      obtain ⟨other, listed, written⟩ := covered entry member
      exact missed other listed (written.trans same)

end SceneBaker.Animation
