import SceneBaker.Proofs.Binary.Index
import SceneBaker.Binary.Output
import Mathlib.Data.List.TakeDrop

/-! # Recovery

`reader.Recovers output a` says that an output is complete and that the reader takes exactly its
bytes off the front of any data and gives `a`. Outputs that are joined are recovered by readers that
run one after another, so a record is recovered field by field.
-/

namespace SceneBaker.Binary

open Number SceneBaker.Geometry

namespace Output

variable {α : Type}

@[simp] theorem failure_append (first second : Output) :
    (first ++ second).failure = first.failure.or second.failure := by
  change (append first second).failure = _
  cases stopped : first.failure <;> simp [append, stopped]

theorem bytes_append {first : Output} (complete : first.failure = none) (second : Output) :
    (first ++ second).bytes = first.bytes ++ second.bytes := by
  change (append first second).bytes = _
  simp [append, complete]

theorem append_assoc (first second third : Output) :
    first ++ second ++ third = first ++ (second ++ third) := by
  change append (append first second) third = append first (append second third)
  cases stopped : first.failure with
  | none => cases later : second.failure <;> simp [append, stopped, later]
  | some cause => simp [append, stopped]

@[simp] theorem append_empty (output : Output) : output ++ empty = output := by
  change append output empty = output
  cases stopped : output.failure with
  | none =>
    rw [append, stopped]
    exact congrArg₂ Output.mk (List.append_nil _) stopped.symm
  | some cause => simp [append, stopped]

@[simp] theorem empty_append (output : Output) : empty ++ output = output := rfl

@[simp] theorem each_nil (encode : α → Output) : each [] encode = empty := rfl

@[simp] theorem each_cons (encode : α → Output) (entry : α) (entries : List α) :
    each (entry :: entries) encode = encode entry ++ each entries encode := rfl

theorem each_append (encode : α → Output) (first second : List α) :
    each (first ++ second) encode = each first encode ++ each second encode := by
  induction first with
  | nil => rfl
  | cons entry entries ih => simp only [List.cons_append, each_cons, ih, append_assoc]

/-- Entries that each take a byte are no more than the bytes they take together. -/
theorem length_le_each {encode : α → Output} {entries : List α}
    (each : ∀ entry ∈ entries, (encode entry).failure = none ∧ (encode entry).bytes ≠ []) :
    entries.length ≤ (Output.each entries encode).bytes.length := by
  induction entries with
  | nil => exact Nat.zero_le _
  | cons entry entries ih =>
    obtain ⟨complete, some⟩ := each entry List.mem_cons_self
    have rest := ih fun other member => each other (List.mem_cons_of_mem _ member)
    have first := List.length_pos_iff.mpr some
    rw [each_cons, bytes_append complete, List.length_append, List.length_cons]
    omega

theorem result_eq_ok {output : Output} (complete : output.failure = none) :
    output.result = .ok output.bytes := by
  simp [result, complete]

end Output

namespace Reader

variable {α β : Type} {reader : Reader α} {output : Output} {a : α}

theorem bind_apply (reader : Reader α) (next : α → Reader β) (bytes : List UInt8) :
    (reader >>= next) bytes = match reader bytes with
      | .ok (a, rest) => next a rest
      | .error cause => .error cause := rfl

/-- The output is complete, and the reader takes exactly its bytes off the front of any data. -/
structure Recovers (reader : Reader α) (output : Output) (a : α) : Prop where
  complete : output.failure = none
  reads : ∀ rest, reader (output.bytes ++ rest) = .ok (a, rest)

namespace Recovers

protected theorem pure (a : α) : (pure a : Reader α).Recovers .empty a := ⟨rfl, fun _ => rfl⟩

protected theorem bind {next : α → Reader β} {second : Output} {b : β}
    (head : reader.Recovers output a) (tail : (next a).Recovers second b) :
    (reader >>= next).Recovers (output ++ second) b := by
  refine ⟨by simp [head.complete, tail.complete], fun rest => ?_⟩
  rw [Output.bytes_append head.complete, List.append_assoc, bind_apply, head.reads]
  exact tail.reads rest

theorem bind_pure (head : reader.Recovers output a) (f : α → β) :
    (reader >>= fun a => pure (f a)).Recovers output (f a) := by
  rw [← Output.append_empty output]
  exact head.bind (.pure (f a))

theorem map (head : reader.Recovers output a) (f : α → β) :
    (f <$> reader).Recovers output (f a) := head.bind_pure f

/-- A reader that only looks at values in hand takes nothing. -/
theorem skip_bind {next : α → Reader β} {b : β} (head : reader.Recovers .empty a)
    (tail : (next a).Recovers output b) : (reader >>= next).Recovers output b := by
  simpa using head.bind tail

theorem ofExcept {result : Except CodecError α} (success : result = .ok a) :
    (Reader.ofExcept result).Recovers .empty a := by
  subst success
  exact .pure a

/-- A check that passes takes nothing. -/
theorem otherwise {condition : Prop} [Decidable condition] {refused : Reader α}
    (passed : ¬condition) (recovers : reader.Recovers output a) :
    (if condition then refused else reader).Recovers output a := by
  rwa [if_neg passed]

theorem times {encode : β → Output} {f : β → α} {entries : List β}
    (each : ∀ entry ∈ entries, reader.Recovers (encode entry) (f entry)) :
    (Reader.times entries.length reader).Recovers (.each entries encode) (entries.map f) := by
  induction entries with
  | nil => exact .pure []
  | cons entry entries ih =>
    rw [List.length_cons, times_succ]
    exact (each entry List.mem_cons_self).bind
      ((ih fun other member => each other (List.mem_cons_of_mem _ member)).bind_pure _)

/-- The whole output and nothing else. -/
theorem run_bytes (recovers : reader.Recovers output a) : reader output.bytes = .ok (a, []) := by
  simpa using recovers.reads []

theorem congr {b : α} (recovers : reader.Recovers output a) (same : a = b) :
    reader.Recovers output b := same ▸ recovers

end Recovers

/-! ## Numbers -/

theorem length_littleEndian (width number : Nat) :
    (Output.littleEndian width number).length = width := by
  induction width generalizing number with
  | zero => rfl
  | succ width ih => simp [Output.littleEndian, ih]

theorem ofLittleEndian_littleEndian (width number : Nat) :
    ofLittleEndian (Output.littleEndian width number) = number % 256 ^ width := by
  induction width generalizing number with
  | zero => simp [Output.littleEndian, ofLittleEndian, Nat.mod_one]
  | succ width ih =>
    have byte : (UInt8.ofNat number).toNat = number % 256 := UInt8.toNat_ofNat'
    rw [Output.littleEndian, ofLittleEndian, ih, byte, Nat.pow_succ' (n := width), Nat.mod_mul]

theorem split?_append (front rest : List UInt8) :
    split? front.length (front ++ rest) = some (front, rest) := by
  induction front with
  | nil => cases rest <;> rfl
  | cons byte front ih => simp [split?, ih]

theorem recovers_take (bytes : List UInt8) :
    (take bytes.length).Recovers (.ofBytes bytes) bytes := by
  refine ⟨rfl, fun rest => ?_⟩
  simp [take, Output.ofBytes, split?_append]

theorem recovers_unsigned (width : Nat) {number : Nat} (small : number < 256 ^ width) :
    (unsigned width).Recovers (.ofBytes (Output.littleEndian width number)) number := by
  have taken := recovers_take (Output.littleEndian width number)
  rw [length_littleEndian] at taken
  refine (taken.bind_pure ofLittleEndian).congr ?_
  rw [ofLittleEndian_littleEndian, Nat.mod_eq_of_lt small]

theorem recovers_u8 (value : UInt8) : u8.Recovers (.u8 value) value := by
  have read := recovers_unsigned 1 value.toNat_lt
  have bytes : Output.littleEndian 1 value.toNat = [value] := by simp [Output.littleEndian]
  rw [bytes] at read
  exact (read.bind_pure _).congr (by simp)

theorem recovers_bool (value : Bool) : bool.Recovers (.bool value) value := by
  refine ((recovers_u8 _).bind_pure _).congr ?_
  cases value <;> rfl

theorem recovers_u32 (value : UInt32) : u32.Recovers (.u32 value) value :=
  ((recovers_unsigned 4 value.toNat_lt).bind_pure _).congr (by simp)

theorem recovers_i32 (value : Int32) : i32.Recovers (.i32 value) value :=
  ((recovers_u32 _).bind_pure _).congr (by simp)

theorem recovers_single (value : Single) : single.Recovers (.single value) value :=
  (recovers_u32 _).bind_pure _

theorem recovers_double (value : Double) : double.Recovers (.double value) value :=
  ((recovers_unsigned 8 value.bits.toNat_lt).bind_pure _).congr (by simp)

theorem recovers_vec2 (value : Vec2 Single) : vec2.Recovers (.vec2 value) value :=
  (recovers_single _).bind ((recovers_single _).bind (.pure _))

theorem recovers_vec3 (value : Vec3 Single) : vec3.Recovers (.vec3 value) value :=
  (recovers_single _).bind ((recovers_single _).bind ((recovers_single _).bind (.pure _)))

theorem recovers_vec4 (value : Vec4 Single) :
    vec4.Recovers (.each value.toList Output.single) value :=
  (recovers_single _).bind <| (recovers_single _).bind <| (recovers_single _).bind <|
    (recovers_single _).bind (.pure _)

theorem recovers_quat (value : Quat Single) :
    quat.Recovers (.each value.toList Output.single) value :=
  (recovers_single _).bind <| (recovers_single _).bind <| (recovers_single _).bind <|
    (recovers_single _).bind (.pure _)

theorem recovers_dualQuat (value : DualQuat Single) :
    dualQuat.Recovers (.dualQuat value) value := by
  rw [Output.dualQuat, DualQuat.toList, Output.each_append]
  exact (recovers_quat value.real).bind ((recovers_quat value.dual).bind_pure _)

theorem recovers_index {value : UInt32} (storable : Storable value) (table : Table) :
    (index table).Recovers (.index value) value := by
  rw [← Output.append_empty (.index value)]
  exact (recovers_single _).bind (.ofExcept (storable table))

/-- The size of a table that fits its field is read back. -/
theorem recovers_count {size : Nat} (fits : size < 2 ^ 32) (table : Table) :
    u32.Recovers (.count table size) (UInt32.ofNat size) := by
  rw [Output.count, if_pos fits]
  exact recovers_u32 _

/-! ## Text -/

/-- Text without a zero byte. -/
def Unbroken (value : String) : Prop := 0 ∉ value.toUTF8.data.toList

instance (value : String) : Decidable (Unbroken value) := inferInstanceAs (Decidable (¬_))

theorem fromUTF8?_toUTF8 (value : String) : String.fromUTF8? value.toUTF8 = some value := by
  simp [String.fromUTF8?, String.fromUTF8, value.isValidUTF8]

/-- Bytes up to a zero are the text, if they are one. -/
theorem text_of_zero {content : List UInt8} (nonzero : ∀ byte ∈ content, byte ≠ 0)
    (rest : List UInt8) : text (content ++ 0 :: rest) =
      (String.fromUTF8? ⟨content.toArray⟩).elim (.error .malformedText)
        fun value => .ok (value, rest) := by
  have kept : ∀ byte ∈ content, (byte != 0) = true := by simpa using nonzero
  have cut : (content ++ 0 :: rest).span (· != 0) = (content, 0 :: rest) := by
    rw [List.span_eq_takeWhile_dropWhile, List.takeWhile_append_of_pos kept,
      List.dropWhile_append_of_pos kept]
    simp
  simp only [text, cut]
  cases String.fromUTF8? ⟨content.toArray⟩ <;> rfl

theorem recovers_text {value : String} (unbroken : Unbroken value) :
    text.Recovers (.text value) value := by
  refine ⟨rfl, fun rest => ?_⟩
  have nonzero : ∀ byte ∈ value.toUTF8.data.toList, byte ≠ 0 := by
    rintro byte member rfl
    exact unbroken member
  have bytes : (⟨value.toUTF8.data.toList.toArray⟩ : ByteArray) = value.toUTF8 := rfl
  rw [Output.text, Output.ofBytes, List.append_assoc, List.singleton_append, text_of_zero nonzero,
    bytes, fromUTF8?_toUTF8, Option.elim_some]

end Reader

end SceneBaker.Binary
