import SceneBaker.Proofs.Binary.Extent

/-! # What values cost

Every value is given a cost, and `reader.Affords credit cost` says that the bytes it takes, together
with some credit, are at least as many. What one reader leaves over is the credit of the next, so a
record pays for its lists with the bytes of their entries.
-/

namespace SceneBaker.Binary.Reader

open Number SceneBaker.Geometry

variable {α β : Type} {reader : Reader α} {credit more : Nat} {cost : α → Nat}

/-- The bytes of a value and the credit cover its cost. -/
def Affords (reader : Reader α) (credit : Nat) (cost : α → Nat) : Prop :=
  ∀ bytes a rest, reader bytes = .ok (a, rest) → cost a + rest.length ≤ credit + bytes.length

namespace Affords

/-- More credit pays for more. -/
theorem frame (affords : reader.Affords credit cost) (more : Nat) :
    reader.Affords (more + credit) fun a => more + cost a := by
  intro bytes a rest accepted
  have paid := affords bytes a rest accepted
  change more + cost a + rest.length ≤ _
  omega

theorem mono {less : α → Nat} (affords : reader.Affords credit cost)
    (cheaper : ∀ a, less a ≤ cost a) : reader.Affords credit less := by
  intro bytes a rest accepted
  have paid := affords bytes a rest accepted
  have saved := cheaper a
  omega

protected theorem pure {a : α} (covered : cost a ≤ credit) :
    (pure a : Reader α).Affords credit cost := by
  intro bytes b rest accepted
  cases accepted
  exact Nat.add_le_add_right covered _

/-- What the first value costs is credit for the second. -/
protected theorem bind {next : α → Reader β} {total : β → Nat} (head : reader.Affords credit cost)
    (tail : ∀ a, (next a).Affords (cost a) total) : (reader >>= next).Affords credit total := by
  intro bytes b rest accepted
  obtain ⟨a, middle, first, second⟩ := bind_eq_ok_iff.mp accepted
  exact (tail a _ _ _ second).trans (head _ _ _ first)

/-- A value that is not counted leaves the credit as it is. -/
theorem skip {next : α → Reader β} {total : β → Nat} (head : reader.Delimited)
    (tail : ∀ a, (next a).Affords credit total) : (reader >>= next).Affords credit total := by
  have kept : reader.Affords credit fun _ => credit := by
    intro bytes a rest accepted
    obtain ⟨used, rfl, -⟩ := head _ _ _ accepted
    rw [List.length_append, Nat.add_comm used.length]
    exact Nat.add_le_add_left (Nat.le_add_right ..) _
  exact kept.bind tail

/-- A value whose cost is put on top of the credit. -/
theorem pay {next : α → Reader β} {total : β → Nat} (head : reader.Affords 0 cost)
    (tail : ∀ a, (next a).Affords (credit + cost a) total) :
    (reader >>= next).Affords credit total :=
  (head.frame credit).bind tail

theorem fail (cause : CodecError) : (Reader.fail cause : Reader α).Affords credit cost :=
  fun _ _ _ accepted => nomatch accepted

theorem ite {condition : Prop} [Decidable condition] {other : Reader α}
    (yes : condition → reader.Affords credit cost) (no : ¬condition → other.Affords credit cost) :
    (if condition then reader else other).Affords credit cost := by
  split
  case isTrue holds => exact yes holds
  case isFalse fails => exact no fails

/-- Entries pay for themselves one by one. -/
theorem times (each : reader.Affords 0 cost) (count : Nat) :
    (Reader.times count reader).Affords 0 fun values => (values.map cost).sum := by
  induction count with
  | zero => exact .pure (by simp)
  | succ count ih =>
    rw [times_succ]
    apply each.pay
    intro first
    apply ih.pay
    intro others
    apply Affords.pure
    rw [List.map_cons, List.sum_cons, Nat.zero_add]

/-- Entries of one cost. -/
theorem times_const {size : Nat} (each : reader.Affords 0 fun _ => size) (count : Nat) :
    (Reader.times count reader).Affords 0 fun values => values.length * size := by
  apply (each.times count).mono
  intro values
  rw [List.map_const', List.sum_replicate_nat]

theorem fail_bind (cause : CodecError) (next : α → Reader β) {total : β → Nat} :
    (Reader.fail cause >>= next).Affords credit total :=
  fun _ _ _ accepted => nomatch accepted

end Affords

/-! ## Numbers and text -/

theorem affords_take (count : Nat) : (take count).Affords 0 fun _ => count := by
  intro bytes front rest accepted
  rw [take] at accepted
  split at accepted
  case h_2 => cases accepted
  case h_1 split =>
    cases accepted
    obtain ⟨rfl, rfl⟩ := eq_append_of_split? split
    rw [List.length_append, Nat.zero_add]

/-- A value that is made of another costs as much. -/
theorem Affords.bind_pure {size : Nat} (affords : reader.Affords 0 fun _ => size) (f : α → β) :
    Affords (do return f (← reader)) 0 fun _ => size :=
  affords.bind fun _ => .pure le_rfl

theorem affords_u32 : u32.Affords 0 fun _ => 4 := ((affords_take 4).bind_pure _).bind_pure _

theorem affords_i32 : i32.Affords 0 fun _ => 4 := affords_u32.bind_pure _

theorem affords_single : single.Affords 0 fun _ => 4 := affords_u32.bind_pure _

theorem affords_double : double.Affords 0 fun _ => 8 := ((affords_take 8).bind_pure _).bind_pure _

theorem affords_vec2 : vec2.Affords 0 fun _ => 8 :=
  affords_single.pay fun _ => affords_single.pay fun _ => .pure le_rfl

theorem affords_vec3 : vec3.Affords 0 fun _ => 12 :=
  affords_single.pay fun _ => affords_single.pay fun _ => affords_single.pay fun _ => .pure le_rfl

theorem affords_vec4 : vec4.Affords 0 fun _ => 16 :=
  affords_single.pay fun _ => affords_single.pay fun _ => affords_single.pay fun _ =>
    affords_single.pay fun _ => .pure le_rfl

theorem affords_quat : quat.Affords 0 fun _ => 16 :=
  affords_single.pay fun _ => affords_single.pay fun _ => affords_single.pay fun _ =>
    affords_single.pay fun _ => .pure le_rfl

theorem affords_dualQuat : dualQuat.Affords 0 fun _ => 32 :=
  affords_quat.pay fun _ => affords_quat.pay fun _ => .pure le_rfl

theorem affords_index (table : Table) : (index table).Affords 0 fun _ => 4 :=
  affords_single.pay fun value => by
    rw [ofExcept.eq_def]
    split
    · exact .pure le_rfl
    · exact .fail _

/-- A text ends with a zero byte. -/
theorem affords_text : text.Affords 0 fun _ => 1 := by
  intro bytes value rest accepted
  obtain ⟨used, rfl, spans⟩ := delimited_text _ _ _ accepted
  have some := List.length_pos_iff.mpr (spans.ne_nil rfl)
  rw [List.length_append, Nat.zero_add]
  exact Nat.add_le_add_right some _

end SceneBaker.Binary.Reader
