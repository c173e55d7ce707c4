import SceneBaker.Proofs.Binary.Acceptance

/-! # How far a value reaches

`reader.Spans used a` says that a value takes exactly the bytes `used`: it is the same whatever
follows them, and every shorter front of them is truncated. A delimited reader takes such bytes off
the front of everything that it accepts. Readers that run one after another are delimited if each of
them is, so this too is followed through a record field by field.
-/

namespace SceneBaker.Binary.Reader

open Number SceneBaker.Geometry

variable {α β : Type} {reader : Reader α} {used : List UInt8} {a : α}

/-- Nothing but all of the bytes will do: every shorter front of them is truncated. -/
def Needs (reader : Reader α) (used : List UInt8) : Prop :=
  ∀ front missing, used = front ++ missing → missing ≠ [] → reader front = .error .truncated

/-- The bytes give the value whatever follows them, and no shorter front of them gives any. -/
structure Spans (reader : Reader α) (used : List UInt8) (a : α) : Prop where
  reads : ∀ rest, reader (used ++ rest) = .ok (a, rest)
  needs : reader.Needs used

/-- Everything that is accepted starts with bytes that the value spans. -/
def Delimited (reader : Reader α) : Prop :=
  ∀ bytes a rest, reader bytes = .ok (a, rest) → ∃ used, bytes = used ++ rest ∧ reader.Spans used a

/-- A value that was accepted has its size: any fewer bytes are truncated, and any others may follow
them. -/
theorem Delimited.run_take (delimited : reader.Delimited) {bytes rest : List UInt8}
    (accepted : reader bytes = .ok (a, rest)) :
    ∃ size ≤ bytes.length, rest = bytes.drop size ∧
      (∀ cut < size, reader.run (bytes.take cut) = .error .truncated) ∧
      ∀ suffix, reader.run (bytes.take size ++ suffix) = .ok a := by
  obtain ⟨used, rfl, spans⟩ := delimited _ _ _ accepted
  refine ⟨used.length, by simp, List.drop_left.symm, ?_, ?_⟩
  · intro cut short
    rw [List.take_append_of_le_length short.le, run]
    rw [spans.needs (used.take cut) (used.drop cut) (List.take_append_drop ..).symm ?_]
    · rfl
    · exact List.ne_nil_of_length_pos (by rw [List.length_drop]; omega)
  · intro suffix
    rw [List.take_left, run, spans.reads]
    rfl

/-! ## Laws -/

/-- A cut in the bytes of two readers lies before the end of the first one's or behind it. -/
theorem Needs.bind {next : α → Reader β} {more : List UInt8} (head : reader.Spans used a)
    (tail : (next a).Needs more) : (reader >>= next).Needs (used ++ more) := by
  intro front missing split some
  rcases List.append_eq_append_iff.mp split with ⟨behind, rfl, rfl⟩ | ⟨inside, rfl, rfl⟩
  · rw [bind_apply, head.reads]
    exact tail behind missing rfl some
  · by_cases whole : inside = []
    · subst whole
      have read := head.reads []
      simp only [List.append_nil] at read
      rw [bind_apply, read]
      exact tail [] more rfl some
    · rw [bind_apply, head.needs front inside rfl whole]

theorem Spans.bind {next : α → Reader β} {more : List UInt8} {b : β} (head : reader.Spans used a)
    (tail : (next a).Spans more b) : (reader >>= next).Spans (used ++ more) b := by
  constructor
  · intro rest
    rw [bind_apply, List.append_assoc, head.reads]
    exact tail.reads rest
  · exact Needs.bind head tail.needs

theorem spans_pure (a : α) : (pure a : Reader α).Spans [] a := by
  constructor
  · intro rest
    rfl
  · intro front missing empty some
    exact absurd (List.append_eq_nil_iff.mp empty.symm).2 some

/-- A reader that fails on no bytes at all takes at least one. -/
theorem Spans.ne_nil (spans : reader.Spans used a) (starved : reader [] = .error .truncated) :
    used ≠ [] := by
  rintro rfl
  have read := spans.reads []
  rw [List.append_nil, starved] at read
  cases read

namespace Delimited

protected theorem pure (a : α) : (pure a : Reader α).Delimited := by
  intro bytes b rest accepted
  cases accepted
  exact ⟨[], rfl, spans_pure a⟩

protected theorem bind {next : α → Reader β} (head : reader.Delimited)
    (tail : ∀ a, (next a).Delimited) : (reader >>= next).Delimited := by
  intro bytes b rest accepted
  obtain ⟨a, middle, first, second⟩ := bind_eq_ok_iff.mp accepted
  obtain ⟨used, rfl, spans⟩ := head _ _ _ first
  obtain ⟨more, rfl, others⟩ := tail a _ _ _ second
  exact ⟨used ++ more, (List.append_assoc ..).symm, spans.bind others⟩

theorem bind_pure (head : reader.Delimited) (f : α → β) :
    (reader >>= fun a => pure (f a)).Delimited := head.bind fun a => .pure (f a)

theorem map (head : reader.Delimited) (f : α → β) : (f <$> reader).Delimited := head.bind_pure f

theorem fail (cause : CodecError) : (Reader.fail cause : Reader α).Delimited := by
  intro bytes a rest accepted
  cases accepted

/-- Nothing is read behind a failure. -/
theorem fail_bind (cause : CodecError) (next : α → Reader β) :
    (Reader.fail cause >>= next).Delimited := by
  intro bytes b rest accepted
  cases accepted

theorem ofExcept (result : Except CodecError α) : (Reader.ofExcept result).Delimited := by
  cases result with
  | error cause => exact fail cause
  | ok a => exact .pure a

theorem ite {condition : Prop} [Decidable condition] {other : Reader α} (yes : reader.Delimited)
    (no : other.Delimited) : (if condition then reader else other).Delimited := by
  split
  case isTrue => exact yes
  case isFalse => exact no

theorem times (each : reader.Delimited) (count : Nat) : (Reader.times count reader).Delimited := by
  induction count with
  | zero => exact .pure []
  | succ count ih =>
    rw [times_succ]
    apply each.bind
    intro first
    exact ih.bind_pure _

end Delimited

/-! ## Numbers -/

theorem split?_of_length_lt {count : Nat} {bytes : List UInt8} (short : bytes.length < count) :
    split? count bytes = none := by
  induction count generalizing bytes with
  | zero => exact absurd short (Nat.not_lt_zero _)
  | succ count ih =>
    cases bytes with
    | nil => rfl
    | cons byte bytes =>
      have fewer : bytes.length < count := by
        simp only [List.length_cons] at short
        omega
      rw [split?, ih fewer, Option.map_none]

theorem eq_append_of_split? {count : Nat} {bytes front rest : List UInt8}
    (enough : split? count bytes = some (front, rest)) :
    bytes = front ++ rest ∧ front.length = count := by
  induction count generalizing bytes front with
  | zero =>
    cases enough
    exact ⟨rfl, rfl⟩
  | succ count ih =>
    cases bytes with
    | nil => cases enough
    | cons byte bytes =>
      obtain ⟨⟨others, after⟩, split, same⟩ := Option.map_eq_some_iff.mp enough
      obtain ⟨rfl, rfl⟩ := Prod.mk.inj same
      obtain ⟨rfl, length⟩ := ih split
      exact ⟨rfl, congrArg (· + 1) length⟩

theorem spans_take (bytes : List UInt8) : (take bytes.length).Spans bytes bytes := by
  constructor
  · intro rest
    rw [take, split?_append]
  · intro front missing split some
    have short : front.length < bytes.length := by
      have positive := List.length_pos_iff.mpr some
      rw [split, List.length_append]
      omega
    rw [take, split?_of_length_lt short]

theorem delimited_take (count : Nat) : (take count).Delimited := by
  intro bytes front rest accepted
  rw [take] at accepted
  split at accepted
  case h_2 => cases accepted
  case h_1 taken after split =>
    cases accepted
    obtain ⟨rfl, rfl⟩ := eq_append_of_split? split
    exact ⟨front, rfl, spans_take front⟩

theorem delimited_unsigned (width : Nat) : (unsigned width).Delimited :=
  (delimited_take width).bind_pure _

theorem delimited_u8 : u8.Delimited := (delimited_unsigned 1).bind_pure _

theorem delimited_bool : bool.Delimited := delimited_u8.bind_pure _

theorem delimited_u32 : u32.Delimited := (delimited_unsigned 4).bind_pure _

theorem delimited_i32 : i32.Delimited := delimited_u32.bind_pure _

theorem delimited_single : single.Delimited := delimited_u32.bind_pure _

theorem delimited_double : double.Delimited := (delimited_unsigned 8).bind_pure _

theorem delimited_vec2 : vec2.Delimited :=
  delimited_single.bind fun _ => delimited_single.bind_pure _

theorem delimited_vec3 : vec3.Delimited :=
  delimited_single.bind fun _ => delimited_single.bind fun _ => delimited_single.bind_pure _

theorem delimited_vec4 : vec4.Delimited :=
  delimited_single.bind fun _ => delimited_single.bind fun _ => delimited_single.bind fun _ =>
    delimited_single.bind_pure _

theorem delimited_quat : quat.Delimited :=
  delimited_single.bind fun _ => delimited_single.bind fun _ => delimited_single.bind fun _ =>
    delimited_single.bind_pure _

theorem delimited_dualQuat : dualQuat.Delimited :=
  delimited_quat.bind fun _ => delimited_quat.bind_pure _

theorem delimited_index (table : Table) : (index table).Delimited :=
  delimited_single.bind fun value => .ofExcept (indexOf table value)

/-! ## Text -/

theorem text_of_nonzero {front : List UInt8} (nonzero : ∀ byte ∈ front, byte ≠ 0) :
    text front = .error .truncated := by
  have all : ∀ byte ∈ front, (byte != 0) = true := by simpa using nonzero
  have cut : front.span (· != 0) = (front, []) := by
    rw [List.span_eq_takeWhile_dropWhile, List.takeWhile_eq_self_iff.mpr all,
      List.dropWhile_eq_nil_iff.mpr all]
  rw [text, cut]

/-- A cut in a text leaves no zero byte, so it is truncated before it can be malformed. -/
theorem spans_text {content : List UInt8} (nonzero : ∀ byte ∈ content, byte ≠ 0) {value : String}
    (decoded : String.fromUTF8? ⟨content.toArray⟩ = some value) :
    text.Spans (content ++ [0]) value := by
  constructor
  · intro rest
    rw [List.append_assoc, List.singleton_append, text_of_zero nonzero, decoded, Option.elim_some]
  · intro front missing split some
    apply text_of_nonzero
    intro byte member
    obtain ⟨rest, last, rfl⟩ := List.eq_nil_or_concat missing |>.resolve_left some
    rw [List.concat_eq_append, ← List.append_assoc] at split
    obtain ⟨rfl, -⟩ := List.append_inj' split rfl
    exact nonzero byte (List.mem_append_left _ member)

theorem delimited_text : text.Delimited := by
  intro bytes value rest accepted
  by_cases zero : 0 ∈ bytes
  · obtain ⟨content, after, rfl, absent⟩ := List.eq_append_cons_of_mem zero
    have nonzero : ∀ byte ∈ content, byte ≠ 0 := by
      rintro byte member rfl
      exact absent member
    rw [text_of_zero nonzero] at accepted
    cases encoded : String.fromUTF8? ⟨content.toArray⟩ with
    | none =>
      rw [encoded] at accepted
      cases accepted
    | some decoded =>
      rw [encoded] at accepted
      cases accepted
      exact ⟨content ++ [0], by simp, spans_text nonzero encoded⟩
  · have nonzero : ∀ byte ∈ bytes, byte ≠ 0 := by
      rintro byte member rfl
      exact zero member
    rw [text_of_nonzero nonzero] at accepted
    cases accepted

end SceneBaker.Binary.Reader
