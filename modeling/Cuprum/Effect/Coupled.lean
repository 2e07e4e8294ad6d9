import Cuprum.Effect.Program

namespace Cuprum.Effect

variable {ε σ τ ρ α β : Type}

/-- A computation on a part of the state. -/
def zoom (view : σ → τ) (update : τ → σ → σ) (program : Program τ ε α) : Program σ ε α :=
  fun state =>
    match program (view state) with
    | .ok value part => .ok value (update part state)
    | .error error part => .error error (update part state)

theorem zoom_ok {view : σ → τ} {update : τ → σ → σ} {program : Program τ ε α} {state : σ}
    {value : α} {part : τ} (ran : program (view state) = .ok value part) :
    zoom view update program state = .ok value (update part state) := by
  unfold zoom
  rw [ran]

theorem zoom_error {view : σ → τ} {update : τ → σ → σ} {program : Program τ ε α} {state : σ}
    {error : ε} {part : τ} (ran : program (view state) = .error error part) :
    zoom view update program state = .error error (update part state) := by
  unfold zoom
  rw [ran]

theorem left_zoom (view : σ → τ) (update : τ → σ → σ) (program : Program τ ε α)
    (state : σ) :
    left (zoom view update program) state = update (left program (view state)) state := by
  unfold left zoom
  cases program (view state) <;> rfl

theorem outcome_zoom (view : σ → τ) (update : τ → σ → σ) (program : Program τ ε α)
    (state : σ) : outcome (zoom view update program) state = outcome program (view state) := by
  unfold outcome zoom
  cases program (view state) <;> rfl

theorem Ends.zoom {view : σ → τ} {update : τ → σ → σ} {program : Program τ ε α}
    {returned : α → σ → Prop} {raised : ε → σ → Prop} {state : σ}
    (ends : Ends program (fun value part => returned value (update part state))
      (fun error part => raised error (update part state)) (view state)) :
    Ends (Effect.zoom view update program) returned raised state := by
  unfold Ends Effect.zoom at *
  cases ran : program (view state) with
  | ok value part =>
      rw [ran] at ends
      exact ends
  | error error part =>
      rw [ran] at ends
      exact ends

/-- Two computations that come to one end, in related states. -/
def SameEnd (related : σ → τ → Prop) :
    EStateM.Result ε σ α → EStateM.Result ε τ α → Prop
  | .ok value state, .ok other counterpart => value = other ∧ related state counterpart
  | .error error state, .error other counterpart => error = other ∧ related state counterpart
  | _, _ => False

theorem SameEnd.mono {related wider : σ → τ → Prop} {result : EStateM.Result ε σ α}
    {other : EStateM.Result ε τ α} (same : SameEnd related result other)
    (widens : ∀ state counterpart, related state counterpart → wider state counterpart) :
    SameEnd wider result other := by
  cases result with
  | ok value state =>
      cases other with
      | ok _ counterpart => exact ⟨same.1, widens state counterpart same.2⟩
      | error => exact same.elim
  | error error state =>
      cases other with
      | ok => exact same.elim
      | error _ counterpart => exact ⟨same.1, widens state counterpart same.2⟩

theorem SameEnd.left {related : σ → τ → Prop} {program : Program σ ε α}
    {other : Program τ ε α} {state : σ} {counterpart : τ}
    (same : SameEnd related (program state) (other counterpart)) :
    related (Effect.left program state) (Effect.left other counterpart) := by
  unfold Effect.left
  cases ran : program state with
  | ok value after =>
      cases met : other counterpart with
      | ok result final =>
          rw [ran, met] at same
          exact same.2
      | error error final =>
          rw [ran, met] at same
          exact same.elim
  | error error after =>
      cases met : other counterpart with
      | ok result final =>
          rw [ran, met] at same
          exact same.elim
      | error worse final =>
          rw [ran, met] at same
          exact same.2

/-- From related states the computations come to one end, unless the first one raises
astray. -/
def Coupled (related : σ → τ → Prop) (stray : σ → Prop) (program : Program σ ε α)
    (other : Program τ ε α) : Prop :=
  ∀ state counterpart, related state counterpart →
    SameEnd related (program state) (other counterpart) ∨
      ∃ error after, program state = .error error after ∧ stray after

namespace Coupled

variable {related : σ → τ → Prop} {stray : σ → Prop}

theorem returns (value : α) :
    Coupled related stray (pure value : Program σ ε α) (pure value) :=
  fun _ _ relates => .inl ⟨rfl, relates⟩

theorem raises (error : ε) :
    Coupled related stray (throw error : Program σ ε α) (throw error) :=
  fun _ _ relates => .inl ⟨rfl, relates⟩

theorem branch {condition : Prop} [Decidable condition] {first second : Program σ ε α}
    {third fourth : Program τ ε α} (holds : Coupled related stray first third)
    (fails : Coupled related stray second fourth) :
    Coupled related stray (if condition then first else second)
      (if condition then third else fourth) := by
  split
  · exact holds
  · exact fails

theorem bind {program : Program σ ε α} {other : Program τ ε α}
    {next : α → Program σ ε β} {later : α → Program τ ε β}
    (first : Coupled related stray program other)
    (second : ∀ value, Coupled related stray (next value) (later value)) :
    Coupled related stray (program >>= next) (other >>= later) := by
  intro state counterpart relates
  rw [run_bind, run_bind]
  rcases first state counterpart relates with same | ⟨error, after, ran, strays⟩
  · cases ran : program state with
    | ok value after =>
        cases counter : other counterpart with
        | ok result final =>
            rw [ran, counter] at same
            obtain ⟨rfl, relates⟩ := same
            exact second value after final relates
        | error error final =>
            rw [ran, counter] at same
            exact same.elim
    | error error after =>
        cases counter : other counterpart with
        | ok result final =>
            rw [ran, counter] at same
            exact same.elim
        | error worse final =>
            rw [ran, counter] at same
            exact .inl same
  · rw [ran]
    exact .inr ⟨error, after, rfl, strays⟩

theorem handle {program : Program σ ε α} {other : Program τ ε α}
    {handler : ε → Program σ ε α} {counter : ε → Program τ ε α}
    (body : Coupled related stray program other)
    (handled : ∀ error, Coupled related stray (handler error) (counter error))
    (lost : ∀ error state, stray state →
      ∃ worse after, handler error state = .error worse after ∧ stray after) :
    Coupled related stray (tryCatch program handler) (tryCatch other counter) := by
  intro state counterpart relates
  rw [run_tryCatch, run_tryCatch]
  rcases body state counterpart relates with same | ⟨error, after, ran, strays⟩
  · cases ran : program state with
    | ok value after =>
        cases met : other counterpart with
        | ok result final =>
            rw [ran, met] at same
            exact .inl same
        | error error final =>
            rw [ran, met] at same
            exact same.elim
    | error error after =>
        cases met : other counterpart with
        | ok result final =>
            rw [ran, met] at same
            exact same.elim
        | error worse final =>
            rw [ran, met] at same
            obtain ⟨rfl, relates⟩ := same
            exact handled error after final relates
  · rw [ran]
    exact .inr (lost error after strays)

end Coupled

/-- From related states the computations come to one end, unless the first one ends
astray. -/
def Parted (related : σ → τ → Prop) (stray : σ → Prop) (program : Program σ ε α)
    (other : Program τ ε α) : Prop :=
  ∀ state counterpart, related state counterpart →
    SameEnd related (program state) (other counterpart) ∨ stray (left program state)

namespace Parted

variable {related : σ → τ → Prop} {stray : σ → Prop}

theorem of_coupled {program : Program σ ε α} {other : Program τ ε α}
    (coupled : Coupled related stray program other) : Parted related stray program other := by
  intro state counterpart relates
  refine (coupled state counterpart relates).imp_right ?_
  rintro ⟨error, after, ran, strays⟩
  rw [left, ran]
  exact strays

/-- A handler that leaves a stray state astray may end as it likes. -/
theorem handle {program : Program σ ε α} {other : Program τ ε α}
    {handler : ε → Program σ ε α} {counter : ε → Program τ ε α}
    (body : Coupled related stray program other)
    (handled : ∀ error, Coupled related stray (handler error) (counter error))
    (kept : ∀ error state, stray state → stray (left (handler error) state)) :
    Parted related stray (tryCatch program handler) (tryCatch other counter) := by
  intro state counterpart relates
  unfold left
  rw [run_tryCatch, run_tryCatch]
  rcases body state counterpart relates with same | ⟨error, after, ran, strays⟩
  · cases ran : program state with
    | ok value after =>
        cases met : other counterpart with
        | ok result final =>
            rw [ran, met] at same
            exact .inl same
        | error error final =>
            rw [ran, met] at same
            exact same.elim
    | error error after =>
        cases met : other counterpart with
        | ok result final =>
            rw [ran, met] at same
            exact same.elim
        | error worse final =>
            rw [ran, met] at same
            obtain ⟨rfl, relates⟩ := same
            exact of_coupled (handled error) after final relates
  · rw [ran]
    exact .inr (kept error after strays)

theorem bind {program : Program σ ε α} {other : Program τ ε α}
    {next : α → Program σ ε β} {later : α → Program τ ε β}
    (first : Parted related stray program other)
    (second : ∀ value, Parted related stray (next value) (later value))
    (kept : ∀ value state, stray state → stray (left (next value) state)) :
    Parted related stray (program >>= next) (other >>= later) := by
  intro state counterpart relates
  have parts := first state counterpart relates
  unfold left at parts ⊢
  rw [run_bind, run_bind]
  cases ran : program state with
  | ok value after =>
      rw [ran] at parts
      cases met : other counterpart with
      | ok result final =>
          rw [met] at parts
          rcases parts with ⟨rfl, relates⟩ | strays
          · exact second value after final relates
          · exact .inr (kept value after strays)
      | error error final =>
          rw [met] at parts
          exact .inr (kept value after (parts.resolve_left id))
  | error error after =>
      rw [ran] at parts
      cases met : other counterpart with
      | ok result final =>
          rw [met] at parts
          exact .inr (parts.resolve_left id)
      | error worse final =>
          rw [met] at parts
          exact parts

end Parted

end Cuprum.Effect
