import SceneBaker.Build.Clip
import SceneBaker.Proofs.Number.Arithmetic

/-! # Sampling a track

The keys of a track stand in the order of their times. A time from the first key on falls behind the
last key that is not after it, whatever keys of equal times come before that one, and the value there
is read off this key and the next.
-/

namespace SceneBaker.Build

open Number SceneBaker.Geometry Scene

variable {β : Type} {keys rest : List (Key β)} {previous next here : Key β} {time : Double}
  {position : Nat}

/-- Keys at finite times that do not decrease. -/
structure Timeline (keys : List (Key β)) : Prop where
  finite : ∀ key ∈ keys, key.time.isFinite = true
  sorted : keys.Pairwise (·.time ≤ ·.time)

theorem Timeline.tail (timed : Timeline (previous :: rest)) : Timeline rest :=
  ⟨fun key member => timed.finite key (List.mem_cons_of_mem _ member), timed.sorted.tail⟩

/-- The last key that is not after a time. -/
structure Reached (keys : List (Key β)) (time : Double) (position : Nat) (here : Key β) : Prop where
  present : keys[position]? = some here
  reached : here.time ≤ time
  last : ∀ later key, keys[later]? = some key → key.time ≤ time → later ≤ position

/-- A key in front is not the last one reached if another is. -/
theorem Reached.cons (reached : Reached rest time position here) :
    Reached (previous :: rest) time (position + 1) here where
  present := reached.present
  reached := reached.reached
  last
  | 0, _, _, _ => Nat.zero_le _
  | later + 1, key, found, before => Nat.succ_le_succ (reached.last later key found before)

/-- The first key is the last one reached if the second is ahead. -/
theorem Reached.first (timed : Timeline (previous :: next :: rest)) (reached : previous.time ≤ time)
    (ahead : time < next.time) : Reached (previous :: next :: rest) time 0 previous where
  present := rfl
  reached := reached
  last
  | 0, _, _, _ => le_rfl
  | later + 1, key, found, before => by
    have order : next.time.key ≤ key.time.key := by
      have found : (next :: rest)[later]? = some key := found
      rcases List.mem_cons.mp (List.mem_of_getElem? found) with rfl | member
      · exact le_rfl
      · exact ((List.pairwise_cons.mp timed.sorted.tail).1 key member).2.2
    have above := ahead.2.2
    have below := before.2.2
    omega

theorem Reached.only (reached : previous.time ≤ time) : Reached [previous] time 0 previous where
  present := rfl
  reached := reached
  last
  | 0, _, _, _ => le_rfl

/-- Of keys at different times the last one reached at a key's time is the key. -/
theorem Reached.eq_of_mem (strict : keys.Pairwise (·.time < ·.time)) {key : Key β}
    (member : key ∈ keys) (number : key.time ≤ key.time)
    (reached : Reached keys key.time position here) : here = key := by
  obtain ⟨own, found⟩ := List.getElem?_of_mem member
  have before := reached.last own key found number
  rcases before.lt_or_eq with earlier | rfl
  · have present := reached.present
    rw [List.getElem?_eq_some_iff] at found present
    obtain ⟨inside, rfl⟩ := found
    obtain ⟨inside', rfl⟩ := present
    have up := (List.pairwise_iff_getElem.mp strict own position inside inside' earlier).2.2
    have down := reached.reached.2.2
    omega
  · exact Option.some.inj (reached.present.symm.trans found)

variable [Blend β]

/-- The value at a time behind a key: the key's own on the key and behind the last one, otherwise
blended with the next key's, unless the part of the way to it rounds to nothing. -/
def between (time : Double) (here : Key β) (next? : Option (Key β)) : β :=
  match next? with
  | none => here.value
  | some next =>
    if time.numEq here.time then here.value
    else
      let quotient := (time - here.time) / (next.time - here.time)
      if quotient ≤ 0 then here.value else Blend.blend here.value next.value quotient.toSingle

/-- The times of two keys around a time differ, so that the way from one to the other can be divided
by; on the earlier one none of it is gone. -/
theorem sampleFrom_cons_of_lt (finite : time.isFinite = true)
    (finitePrevious : previous.time.isFinite = true) (finiteNext : next.time.isFinite = true)
    (reached : previous.time ≤ time) (ahead : time < next.time) :
    sampleFrom time previous (next :: rest) = between time previous (some next) := by
  have apart : previous.time < next.time := by
    rw [Double.lt_iff_key finitePrevious finiteNext]
    exact reached.2.2.trans_lt ahead.2.2
  have span : 0 < next.time - previous.time := Double.zero_lt_sub finitePrevious finiteNext apart
  simp only [sampleFrom, between, if_pos ahead, if_pos span]
  by_cases same : time.numEq previous.time = true
  · have gone : (time - previous.time).magnitude = 0 :=
      Double.magnitude_sub_of_key_eq finite finitePrevious
        ((Double.numEq_iff_key finite finitePrevious).mp same)
    have none : (time - previous.time) / (next.time - previous.time) ≤ 0 := by
      rw [Double.div_of_magnitude_eq_zero gone span]
      exact Double.le_zero_of_magnitude_eq_zero gone
    rw [if_pos none, if_pos same]
  · rw [if_neg same]

/-- The search stops at the last key that is not after the time. -/
theorem exists_reached_sampleFrom (timed : Timeline (previous :: rest)) (finite : time.isFinite = true)
    (reached : previous.time ≤ time) :
    ∃ position here, Reached (previous :: rest) time position here ∧
      sampleFrom time previous rest = between time here (previous :: rest)[position + 1]? := by
  induction rest generalizing previous with
  | nil => exact ⟨0, previous, .only reached, rfl⟩
  | cons next rest ih =>
    have finitePrevious := timed.finite previous List.mem_cons_self
    have finiteNext := timed.tail.finite next List.mem_cons_self
    by_cases ahead : time < next.time
    · exact ⟨0, previous, .first timed reached ahead,
        sampleFrom_cons_of_lt finite finitePrevious finiteNext reached ahead⟩
    · have behind : next.time ≤ time := by
        rw [Double.lt_iff_key finite finiteNext] at ahead
        exact (Double.le_iff_key finiteNext finite).mpr (not_lt.mp ahead)
      obtain ⟨position, here, found, value⟩ := ih timed.tail behind
      refine ⟨position + 1, here, found.cons, ?_⟩
      rw [sampleFrom, if_neg ahead, value]
      rfl

theorem sample?_of_le {nonempty : keys ≠ []}
    (early : time ≤ (keys.head nonempty).time ∨ keys.length = 1) :
    sample? time keys = some (keys.head nonempty).value := by
  match keys, nonempty, early with
  | [only], _, _ => rfl
  | first :: second :: rest, _, .inl early => exact congrArg some (if_pos early)

theorem exists_reached_sample? (timed : Timeline keys) {nonempty : keys ≠ []}
    (finite : time.isFinite = true)
    (late : ¬(time ≤ (keys.head nonempty).time ∨ keys.length = 1)) :
    ∃ position here, Reached keys time position here ∧
      sample? time keys = some (between time here keys[position + 1]?) := by
  match keys, nonempty, late with
  | [only], _, late => exact absurd (.inr rfl) late
  | first :: second :: rest, _, late =>
    have above : ¬time ≤ first.time := fun early => late (.inl early)
    have behind : first.time ≤ time := by
      have finiteFirst := timed.finite first List.mem_cons_self
      rw [Double.le_iff_key finite finiteFirst] at above
      exact (Double.le_iff_key finiteFirst finite).mpr (not_le.mp above).le
    obtain ⟨position, here, found, value⟩ := exists_reached_sampleFrom timed finite behind
    exact ⟨position, here, found, (congrArg some (if_neg above)).trans (congrArg some value)⟩

theorem between_self (finite : here.time.isFinite = true) (next? : Option (Key β)) :
    between here.time here next? = here.value := by
  cases next? with
  | none => rfl
  | some next => exact if_pos ((Double.numEq_iff_key finite finite).mpr rfl)

theorem sample?_of_mem (timed : Timeline keys) (strict : keys.Pairwise (·.time < ·.time))
    {key : Key β} (member : key ∈ keys) : sample? key.time keys = some key.value := by
  have finite := timed.finite key member
  have number := (Double.le_iff_key finite finite).mpr le_rfl
  have nonempty := List.ne_nil_of_mem member
  by_cases early : key.time ≤ (keys.head nonempty).time ∨ keys.length = 1
  · have first : keys.head nonempty = key := by
      match keys, nonempty, strict, member, early with
      | _ :: _, _, _, .head _, _ => rfl
      | [only], _, _, .tail _ later, _ => nomatch later
      | first :: second :: rest, _, strict, .tail _ later, .inl early =>
        have up := ((List.pairwise_cons.mp strict).1 key later).2.2
        have down := early.2.2
        exact absurd up (not_lt.mpr down)
    rw [sample?_of_le early, first]
  · obtain ⟨position, here, reached, value⟩ := exists_reached_sample? timed finite early
    obtain rfl := reached.eq_of_mem strict member number
    rw [value, between_self finite]

/-- A track with keys shows its first key up to the time of that key and if it has no other; from
there on it shows what lies behind the last key that is not after the time. At the times of keys at
different times it shows these. -/
theorem sample?_reached (timed : Timeline keys) (nonempty : keys ≠ []) (finite : time.isFinite = true) :
    (time ≤ (keys.head nonempty).time ∨ keys.length = 1 →
      sample? time keys = some (keys.head nonempty).value) ∧
    (¬(time ≤ (keys.head nonempty).time ∨ keys.length = 1) →
      ∃ position here, Reached keys time position here ∧
        sample? time keys = some (between time here keys[position + 1]?)) ∧
    (keys.Pairwise (·.time < ·.time) → ∀ key ∈ keys, sample? key.time keys = some key.value) :=
  ⟨sample?_of_le, exists_reached_sample? timed finite,
    fun strict _ member => sample?_of_mem timed strict member⟩

/-- Of two keys at one time the second one counts. -/
example : sample? 1 [⟨0, ⟨0, 0, 0⟩⟩, ⟨1, ⟨1, 0, 0⟩⟩, ⟨1, (⟨0, 1, 0⟩ : Vec3 Single)⟩] =
    some ⟨0, 1, 0⟩ := by
  decide +kernel

/-- A jump at ten ticks between two slides. -/
def leap : List (Key (Vec3 Single)) :=
  [⟨0, ⟨0, 0, 0⟩⟩, ⟨.ofNat 10, ⟨1, 0, 0⟩⟩, ⟨.ofNat 10, ⟨0, 1, 0⟩⟩, ⟨.ofNat 20, ⟨0, 1, 1⟩⟩]

theorem sample?_reached_leap : Timeline leap ∧ leap ≠ [] ∧ (Double.ofNat 15).isFinite = true ∧
    ∃ position here, Reached leap (.ofNat 15) position here ∧
      sample? (.ofNat 15) leap = some (between (.ofNat 15) here leap[position + 1]?) := by
  have timed : Timeline leap := by constructor <;> decide +kernel
  have nonempty : leap ≠ [] := by decide
  have finite : (Double.ofNat 15).isFinite = true := by decide +kernel
  have late : ¬(.ofNat 15 ≤ (leap.head (by decide)).time ∨ leap.length = 1) := by decide +kernel
  obtain ⟨-, reaches, -⟩ := sample?_reached timed nonempty finite
  exact ⟨timed, nonempty, finite, reaches late⟩

end SceneBaker.Build
