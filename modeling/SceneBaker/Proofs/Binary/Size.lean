import SceneBaker.Proofs.Binary.Recovery

/-! # Sizes of outputs

`output.Takes size` says that an output is complete and has so many bytes. Joined outputs take as
much as their parts.
-/

namespace SceneBaker.Binary.Output

open Number SceneBaker.Geometry

variable {α : Type} {output : Output} {size : Nat}

structure Takes (output : Output) (size : Nat) : Prop where
  complete : output.failure = none
  length : output.bytes.length = size

namespace Takes

protected theorem empty : empty.Takes 0 := ⟨rfl, rfl⟩

protected theorem append {second : Output} {more : Nat} (head : output.Takes size)
    (tail : second.Takes more) : (output ++ second).Takes (size + more) := by
  constructor
  · rw [failure_append, head.complete, tail.complete]
    rfl
  · rw [bytes_append head.complete, List.length_append, head.length, tail.length]

/-- Entries of one size. -/
protected theorem each {encode : α → Output} {entries : List α}
    (each : ∀ entry ∈ entries, (encode entry).Takes size) :
    (Output.each entries encode).Takes (entries.length * size) := by
  induction entries with
  | nil =>
    rw [List.length_nil, Nat.zero_mul]
    exact .empty
  | cons entry entries ih =>
    obtain ⟨first, others⟩ := List.forall_mem_cons.mp each
    rw [List.length_cons, Nat.succ_mul, Nat.add_comm]
    exact first.append (ih others)

/-- An output of no bytes is the empty one. -/
theorem eq_empty (takes : output.Takes 0) : output = .empty := by
  obtain ⟨bytes, failure⟩ := output
  obtain ⟨rfl, none⟩ := takes
  obtain rfl := List.length_eq_zero_iff.mp none
  rfl

end Takes

theorem takes_u32 (value : UInt32) : (u32 value).Takes 4 := ⟨rfl, Reader.length_littleEndian 4 _⟩

theorem takes_single (value : Single) : (single value).Takes 4 := takes_u32 _

theorem takes_dualQuat (value : DualQuat Single) : (dualQuat value).Takes 32 :=
  .each fun part _ => takes_single part

/-- Bytes that were asked for and given are those of a complete output. -/
theorem of_result_eq_ok {bytes : List UInt8} (written : output.result = .ok bytes) :
    output.failure = none ∧ output.bytes = bytes := by
  obtain ⟨own, failure⟩ := output
  cases failure with
  | none => exact ⟨rfl, by simpa [result] using written⟩
  | some cause => simp [result] at written

/-- A complete output is its bytes. -/
theorem ofBytes_bytes (complete : output.failure = none) : ofBytes output.bytes = output := by
  obtain ⟨bytes, failure⟩ := output
  obtain rfl := complete
  rfl

theorem ofBytes_append (first second : List UInt8) :
    ofBytes (first ++ second) = ofBytes first ++ ofBytes second := rfl

/-- Joined outputs are complete if both are. -/
theorem failure_append_eq_none_iff {first second : Output} :
    (first ++ second).failure = none ↔ first.failure = none ∧ second.failure = none := by
  rw [failure_append, Option.or_eq_none_iff]

/-- A list is written completely if each of its entries is. -/
theorem failure_each_eq_none_iff {encode : α → Output} {entries : List α} :
    (each entries encode).failure = none ↔ ∀ entry ∈ entries, (encode entry).failure = none := by
  induction entries with
  | nil => simp [empty, ofBytes]
  | cons entry entries ih =>
    rw [each_cons, failure_append_eq_none_iff, ih, List.forall_mem_cons]

/-- A size is written if it fits its field. -/
theorem failure_count_eq_none_iff {table : Table} :
    (count table size).failure = none ↔ size < 2 ^ 32 := by
  rw [count]
  split
  case isTrue fits => exact iff_of_true rfl fits
  case isFalse large => exact iff_of_false (Option.some_ne_none _) large

end SceneBaker.Binary.Output
