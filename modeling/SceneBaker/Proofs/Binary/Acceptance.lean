import SceneBaker.Proofs.Binary.Recovery
import Mathlib.Data.List.TakeWhile

/-! # What accepted bytes promise

`reader.Ensures P` says that every value the reader gives has the property `P`, whatever bytes it
was read from. It is followed through a record field by field, as recovery is.
-/

namespace SceneBaker.Binary.Reader

open Number SceneBaker.Geometry

variable {α β : Type} {reader : Reader α} {P Q : α → Prop}

theorem bind_eq_ok_iff {next : α → Reader β} {bytes rest : List UInt8} {b : β} :
    (reader >>= next) bytes = .ok (b, rest) ↔
      ∃ a middle, reader bytes = .ok (a, middle) ∧ next a middle = .ok (b, rest) := by
  rw [bind_apply]
  cases reader bytes with
  | error cause => simp
  | ok first => simp [Prod.ext_iff]

theorem run_eq_ok_iff {bytes : List UInt8} {a : α} :
    reader.run bytes = .ok a ↔ ∃ rest, reader bytes = .ok (a, rest) := by
  rw [run]
  cases reader bytes <;> simp [Except.map, Prod.ext_iff]

/-- Every value that is read has the property. -/
def Ensures (reader : Reader α) (P : α → Prop) : Prop :=
  ∀ bytes a rest, reader bytes = .ok (a, rest) → P a

namespace Ensures

theorem trivial (reader : Reader α) : reader.Ensures fun _ => True := fun _ _ _ _ => True.intro

theorem mono (holds : reader.Ensures P) (weaker : ∀ a, P a → Q a) : reader.Ensures Q :=
  fun bytes a rest success => weaker a (holds bytes a rest success)

protected theorem pure {a : α} (holds : P a) : (pure a : Reader α).Ensures P := by
  intro bytes b rest success
  cases success
  exact holds

protected theorem bind {next : α → Reader β} {R : β → Prop} (head : reader.Ensures P)
    (tail : ∀ a, P a → (next a).Ensures R) : (reader >>= next).Ensures R := by
  intro bytes b rest success
  obtain ⟨a, middle, first, second⟩ := bind_eq_ok_iff.mp success
  exact tail a (head _ _ _ first) _ _ _ second

/-- Pass over a field of which nothing has to be known. -/
theorem skip {next : α → Reader β} {R : β → Prop} (tail : ∀ a, (next a).Ensures R) :
    (reader >>= next).Ensures R := (trivial reader).bind fun a _ => tail a

theorem fail (cause : CodecError) : (Reader.fail cause : Reader α).Ensures P :=
  fun _ _ _ success => nomatch success

theorem ofExcept {result : Except CodecError α} (holds : ∀ a, result = .ok a → P a) :
    (Reader.ofExcept result).Ensures P := by
  cases result with
  | error cause => exact fail cause
  | ok a => exact .pure (holds a rfl)

theorem ite {condition : Prop} [Decidable condition] {other : Reader α}
    (yes : condition → reader.Ensures P) (no : ¬condition → other.Ensures P) :
    (if condition then reader else other).Ensures P := by
  split
  case isTrue holds => exact yes holds
  case isFalse fails => exact no fails

theorem times (each : reader.Ensures P) (count : Nat) :
    (Reader.times count reader).Ensures fun values =>
      values.length = count ∧ ∀ a ∈ values, P a := by
  induction count with
  | zero => exact .pure (by simp)
  | succ count ih =>
    rw [times_succ]
    refine each.bind fun first holds => ih.bind fun others all => .pure ⟨by simp [all.1], ?_⟩
    simpa [holds] using all.2

end Ensures

theorem ensures_index (table : Table) : (index table).Ensures Storable :=
  .skip fun _ => .ofExcept fun _ accepted => storable_of_indexOf accepted

theorem toUTF8_of_fromUTF8? {bytes : ByteArray} {value : String}
    (decoded : String.fromUTF8? bytes = some value) : value.toUTF8 = bytes := by
  unfold String.fromUTF8? at decoded
  split at decoded
  · cases decoded
    rfl
  · cases decoded

theorem ensures_text : text.Ensures Unbroken := by
  intro bytes value rest success
  rw [text, List.span_eq_takeWhile_dropWhile] at success
  split at success
  case h_1 => cases success
  case h_2 content zero after cut =>
    obtain ⟨front, -⟩ := Prod.mk.inj cut
    split at success
    case h_2 => cases success
    case h_1 decoded encoded =>
      obtain ⟨rfl, -⟩ := Prod.mk.inj (Except.ok.inj success)
      rw [Unbroken, toUTF8_of_fromUTF8? encoded, ← front]
      intro member
      simpa using List.mem_takeWhile_imp member

end SceneBaker.Binary.Reader
