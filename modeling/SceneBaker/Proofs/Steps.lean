import Mathlib.Data.List.Forall2

/-! # Steps that may fail

A sequence of steps succeeds if every step does.
-/

namespace SceneBaker.Steps

variable {ε α β : Type}

theorem bind_eq_ok_iff {result : Except ε α} {next : α → Except ε β} {b : β} :
    result >>= next = .ok b ↔ ∃ a, result = .ok a ∧ next a = .ok b := by
  cases result with
  | error cause => simp [bind, Except.bind]
  | ok a => simp [bind, Except.bind]

/-- Two steps fail with the cause of the first that fails. -/
theorem bind_eq_error_iff {result : Except ε α} {next : α → Except ε β} {cause : ε} :
    result >>= next = .error cause ↔
      result = .error cause ∨ ∃ a, result = .ok a ∧ next a = .error cause := by
  cases result with
  | error other => simp [bind, Except.bind]
  | ok a => simp [bind, Except.bind]

theorem map_eq_ok_iff {result : Except ε α} {f : α → β} {b : β} :
    result.map f = .ok b ↔ ∃ a, result = .ok a ∧ f a = b := by
  cases result <;> simp [Except.map]

theorem map_eq_error_iff {result : Except ε α} {f : α → β} {cause : ε} :
    result.map f = .error cause ↔ result = .error cause := by
  cases result <;> simp [Except.map]

theorem mapError_eq_ok_iff {ε' : Type} {result : Except ε α} {f : ε → ε'} {a : α} :
    result.mapError f = .ok a ↔ result = .ok a := by
  cases result <;> simp [Except.mapError]

theorem toOption_eq_some_iff {result : Except ε α} {a : α} :
    result.toOption = some a ↔ result = .ok a := by
  cases result <;> simp [Except.toOption]

/-- A step without a result. -/
theorem then_eq_ok_iff {result : Except ε Unit} {next : Unit → Except ε β} {b : β} :
    result >>= next = .ok b ↔ result = .ok () ∧ next () = .ok b := by
  simp only [bind_eq_ok_iff]
  exact ⟨fun ⟨(), first, second⟩ => ⟨first, second⟩, fun ⟨first, second⟩ => ⟨(), first, second⟩⟩

theorem forM_eq_ok_iff {check : α → Except ε Unit} {entries : List α} :
    entries.forM check = .ok () ↔ ∀ entry ∈ entries, check entry = .ok () := by
  induction entries with
  | nil => simp [List.forM, pure, Except.pure]
  | cons first rest ih =>
    rw [List.forM, then_eq_ok_iff, List.forall_mem_cons, ih]

theorem forM_congr {check other : α → Except ε Unit} {entries : List α}
    (same : ∀ entry ∈ entries, check entry = other entry) :
    entries.forM check = entries.forM other := by
  induction entries with
  | nil => rfl
  | cons first rest ih =>
    obtain ⟨here, later⟩ := List.forall_mem_cons.mp same
    rw [List.forM, List.forM, here, ih later]

/-- The results of a traversal are those of its entries, one by one. -/
theorem mapM_eq_ok_iff {step : α → Except ε β} {entries : List α} {results : List β} :
    entries.mapM step = .ok results ↔
      List.Forall₂ (fun entry result => step entry = .ok result) entries results := by
  induction entries generalizing results with
  | nil => simp [pure, Except.pure, eq_comm]
  | cons entry entries ih =>
    rw [List.mapM_cons, bind_eq_ok_iff, List.forall₂_cons_left_iff]
    simp only [bind_eq_ok_iff, ih]
    constructor
    · rintro ⟨first, here, others, rest, made⟩
      exact ⟨first, others, here, rest, (Except.ok.inj made).symm⟩
    · rintro ⟨first, others, here, rest, rfl⟩
      exact ⟨first, here, others, rest, rfl⟩

/-- Steps that succeed one by one succeed together. -/
theorem mapM_eq_ok_map {step : α → Except ε β} {f : α → β} {entries : List α}
    (each : ∀ entry ∈ entries, step entry = .ok (f entry)) :
    entries.mapM step = .ok (entries.map f) := by
  rw [mapM_eq_ok_iff, List.forall₂_map_right_iff, List.forall₂_same]
  exact each

/-- Entries have results, one by one, if each has one. -/
theorem exists_forall₂_iff {R : α → β → Prop} {entries : List α} :
    (∃ results, List.Forall₂ R entries results) ↔ ∀ entry ∈ entries, ∃ result, R entry result := by
  induction entries with
  | nil => simp
  | cons entry entries ih => simp [List.forall₂_cons_left_iff, ← ih]

/-- A traversal succeeds if every step does. -/
theorem exists_mapM_eq_ok_iff {step : α → Except ε β} {entries : List α} :
    (∃ results, entries.mapM step = .ok results) ↔
      ∀ entry ∈ entries, ∃ result, step entry = .ok result := by
  simp only [mapM_eq_ok_iff, exists_forall₂_iff]

/-- A traversal fails with the cause of the first step that fails. -/
theorem mapM_eq_error_iff {step : α → Except ε β} {entries : List α} {cause : ε} :
    entries.mapM step = .error cause ↔ ∃ before entry after, entries = before ++ entry :: after ∧
      (∀ earlier ∈ before, ∃ result, step earlier = .ok result) ∧ step entry = .error cause := by
  induction entries with
  | nil => simp [pure, Except.pure]
  | cons first rest ih =>
    rw [List.mapM_cons, bind_eq_error_iff]
    constructor
    · rintro (here | ⟨made, success, later⟩)
      · exact ⟨[], first, rest, rfl, by simp, here⟩
      · rcases bind_eq_error_iff.mp later with there | ⟨_, -, ⟨⟩⟩
        obtain ⟨before, entry, after, rfl, earlier, failed⟩ := ih.mp there
        exact ⟨first :: before, entry, after, rfl,
          List.forall_mem_cons.mpr ⟨⟨made, success⟩, earlier⟩, failed⟩
    · rintro ⟨before, entry, after, split, earlier, failed⟩
      cases before with
      | nil =>
        obtain ⟨rfl, rfl⟩ := List.cons.inj split
        exact .inl failed
      | cons _ before =>
        obtain ⟨rfl, rfl⟩ := List.cons.inj split
        obtain ⟨⟨made, success⟩, earlier⟩ := List.forall_mem_cons.mp earlier
        exact .inr ⟨made, success,
          bind_eq_error_iff.mpr (.inl (ih.mpr ⟨before, entry, after, rfl, earlier, failed⟩))⟩

theorem exists_of_mapM_eq_error {step : α → Except ε β} {entries : List α} {cause : ε}
    (failed : entries.mapM step = .error cause) : ∃ entry ∈ entries, step entry = .error cause := by
  obtain ⟨before, entry, after, rfl, -, failed⟩ := mapM_eq_error_iff.mp failed
  exact ⟨entry, by simp, failed⟩

/-- Every result is that of an entry. -/
theorem exists_of_mem_forall₂ {R : α → β → Prop} {entries : List α} {results : List β}
    (related : List.Forall₂ R entries results) {result : β} (member : result ∈ results) :
    ∃ entry ∈ entries, R entry result := by
  induction related with
  | nil => cases member
  | cons here _ ih =>
    rcases List.mem_cons.mp member with rfl | later
    · exact ⟨_, List.mem_cons_self, here⟩
    · obtain ⟨entry, listed, there⟩ := ih later
      exact ⟨entry, List.mem_cons_of_mem _ listed, there⟩

theorem foldlM_congr {step other : β → α → Except ε β} {entries : List α}
    (same : ∀ entry ∈ entries, ∀ state, step state entry = other state entry) (start : β) :
    entries.foldlM step start = entries.foldlM other start := by
  induction entries generalizing start with
  | nil => rfl
  | cons first rest ih =>
    obtain ⟨here, later⟩ := List.forall_mem_cons.mp same
    rw [List.foldlM_cons, List.foldlM_cons, here]
    exact congrArg _ (funext fun next => ih later next)

/-- A fold and its image, whose states and failures are those of the fold seen through two
functions. -/
theorem foldlM_hom {ε' γ : Type} {f : β → γ} {g : ε → ε'} {step : β → α → Except ε β}
    {other : γ → α → Except ε' γ}
    (hom : ∀ state entry, other (f state) entry = ((step state entry).map f).mapError g)
    (entries : List α) (start : β) :
    entries.foldlM other (f start) = ((entries.foldlM step start).map f).mapError g := by
  induction entries generalizing start with
  | nil => rfl
  | cons first rest ih =>
    rw [List.foldlM_cons, List.foldlM_cons, hom]
    cases step start first with
    | error cause => rfl
    | ok next => exact ih next

/-- What every step of a fold preserves holds at its end. -/
theorem of_foldlM_eq_ok {step : β → α → Except ε β} {P : β → Prop} {entries : List α}
    {start final : β} (kept : ∀ state entry next, P state → step state entry = .ok next → P next)
    (holds : P start) (success : entries.foldlM step start = .ok final) : P final := by
  induction entries generalizing start with
  | nil =>
    cases success
    exact holds
  | cons entry entries ih =>
    rw [List.foldlM_cons, bind_eq_ok_iff] at success
    obtain ⟨next, first, rest⟩ := success
    exact ih (kept start entry next holds first) rest

end SceneBaker.Steps
