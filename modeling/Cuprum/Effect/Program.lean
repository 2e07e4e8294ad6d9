import Mathlib.Logic.Basic

namespace Cuprum.Effect

variable {ε σ α β : Type}

/-- A computation that may raise, and whose writes outlive the raise.  A raise in
the last clause of its `tryFinally` replaces the one under way. -/
abbrev Program (σ ε α : Type) := EStateM ε σ α

theorem run_bind (program : Program σ ε α) (next : α → Program σ ε β) (state : σ) :
    (program >>= next) state =
      match program state with
      | .ok value after => next value after
      | .error error after => .error error after :=
  rfl

theorem run_tryCatch (program : Program σ ε α) (handler : ε → Program σ ε α)
    (state : σ) :
    tryCatch program handler state =
      match program state with
      | .ok value after => .ok value after
      | .error error after => handler error after := by
  change EStateM.tryCatch program handler state = _
  unfold EStateM.tryCatch
  cases program state <;> rfl

theorem run_tryFinally (program : Program σ ε α) (last : Program σ ε β) (state : σ) :
    tryFinally program last state =
      match program state with
      | .ok value after =>
          match last after with
          | .ok _ final => .ok value final
          | .error error final => .error error final
      | .error error after =>
          match last after with
          | .ok _ final => .error error final
          | .error worse final => .error worse final := by
  cases ran : program state with
  | ok value after =>
      cases ended : last after <;>
        simp only [tryFinally, tryFinally', Functor.map, EStateM.map, ran, ended]
  | error error after =>
      cases ended : last after <;>
        simp only [tryFinally, tryFinally', Functor.map, EStateM.map, ran, ended]

/-- The state left behind, however the computation ends. -/
def left (program : Program σ ε α) (state : σ) : σ :=
  match program state with
  | .ok _ after => after
  | .error _ after => after

theorem left_tryFinally (program : Program σ ε α) (last : Program σ ε β) (state : σ) :
    left (tryFinally program last) state = left last (left program state) := by
  unfold left
  rw [run_tryFinally]
  cases ran : program state with
  | ok value after => cases ended : last after <;> simp only [ended]
  | error error after => cases ended : last after <;> simp only [ended]

/-- Where the computation can end from a state: by returning into `returned`, by
raising into `raised`. -/
def Ends (program : Program σ ε α) (returned : α → σ → Prop)
    (raised : ε → σ → Prop) (state : σ) : Prop :=
  match program state with
  | .ok value after => returned value after
  | .error error after => raised error after

/-- The program comes to its end whatever befalls its caller, and then raises the
interruption the caller is left with in place of its own outcome.  An interruption
that the program's own failure has displaced is not one the caller is left with. -/
def shielded (interruption : Option ε) (program : Program σ ε α) : Program σ ε α :=
  match interruption with
  | none => program
  | some error => fun state => .error error (left program state)

/-- A step that raises what its environment answers, if it answers anything. -/
def attempt (answer : Option ε) : Program σ ε Unit :=
  match answer with
  | none => pure ()
  | some error => throw error

theorem left_get_bind (next : σ → Program σ ε β) (state : σ) :
    left (get >>= next) state = left (next state) state :=
  rfl

theorem ends_left_iff {program : Program σ ε α} {holds : σ → Prop} {state : σ} :
    Ends program (fun _ => holds) (fun _ => holds) state ↔ holds (left program state) := by
  unfold Ends left
  cases program state <;> rfl

/-- What holds wherever the program ends, and is not about its end. -/
theorem of_ends {program : Program σ ε α} {holds : Prop} {state : σ}
    (ends : Ends program (fun _ _ => holds) (fun _ _ => holds) state) : holds :=
  ends_left_iff.mp ends

/-- What the computation comes to, without the state it leaves. -/
def outcome (program : Program σ ε α) (state : σ) : Except ε α :=
  match program state with
  | .ok value _ => .ok value
  | .error error _ => .error error

theorem outcome_eq {program : Program σ ε α} {state : σ} {target : Except ε α}
    (ends : Ends program (fun value _ => target = .ok value)
      (fun error _ => target = .error error) state) : outcome program state = target := by
  unfold Ends at ends
  unfold outcome
  cases ran : program state with
  | ok value after =>
      rw [ran] at ends
      exact ends.symm
  | error error after =>
      rw [ran] at ends
      exact ends.symm

theorem Ends.of_outcome {program : Program σ ε α} {returned : α → σ → Prop}
    {raised : ε → σ → Prop} {state : σ} {value : α} (ends : Ends program returned raised state)
    (came : outcome program state = .ok value) : ∃ after, returned value after := by
  unfold Ends at ends
  unfold outcome at came
  cases ran : program state with
  | ok result after =>
      rw [ran] at ends came
      cases came
      exact ⟨after, ends⟩
  | error error after =>
      rw [ran] at came
      cases came

theorem outcome_map (program : Program σ ε α) (apply : α → β) (state : σ) :
    outcome (apply <$> program) state = (outcome program state).map apply := by
  unfold outcome
  simp only [Functor.map, EStateM.map]
  cases program state <;> rfl

/-- What a computation comes to is what is known of its outcome. -/
theorem ends_of_outcome {program : Program σ ε α} {state : σ} :
    Ends program (fun value _ => outcome program state = .ok value)
      (fun error _ => outcome program state = .error error) state := by
  unfold Ends outcome
  cases program state <;> rfl

theorem ends_iff {program : Program σ ε α} {returned : α → σ → Prop}
    {raised : ε → σ → Prop} {condition : Prop} {state : σ}
    (ends : Ends program (fun value after => returned value after ↔ condition)
      (fun error after => raised error after ↔ condition) state) :
    Ends program returned raised state ↔ condition := by
  unfold Ends at ends ⊢
  cases ran : program state with
  | ok value after => rwa [ran] at ends
  | error error after => rwa [ran] at ends

namespace Ends

variable {returned : α → σ → Prop} {raised : ε → σ → Prop} {state : σ}

theorem mono {program : Program σ ε α} {wider : α → σ → Prop}
    {worse : ε → σ → Prop} (ends : Ends program returned raised state)
    (returns : ∀ value after, returned value after → wider value after)
    (raises : ∀ error after, raised error after → worse error after) :
    Ends program wider worse state := by
  unfold Ends at ends ⊢
  cases ran : program state with
  | ok value after =>
      rw [ran] at ends
      exact returns value after ends
  | error error after =>
      rw [ran] at ends
      exact raises error after ends

/-- What follows from either end holds of the state left behind. -/
@[elab_as_elim]
theorem holds_left {program : Program σ ε α} {holds : σ → Prop}
    (ends : Ends program returned raised state)
    (returns : ∀ value after, returned value after → holds after)
    (raises : ∀ error after, raised error after → holds after) :
    holds (left program state) :=
  ends_left_iff.mp (ends.mono returns raises)

theorem of_eq {program other : Program σ ε α} {later : σ} (same : program state = other later)
    (ends : Ends other returned raised later) : Ends program returned raised state := by
  unfold Ends
  rw [same]
  exact ends

theorem of_ok {program : Program σ ε α} {value : α} {after : σ}
    (ran : program state = .ok value after) (holds : returned value after) :
    Ends program returned raised state := by
  unfold Ends
  rw [ran]
  exact holds

theorem of_error {program : Program σ ε α} {error : ε} {after : σ}
    (ran : program state = .error error after) (holds : raised error after) :
    Ends program returned raised state := by
  unfold Ends
  rw [ran]
  exact holds

theorem both {program : Program σ ε α} {also : α → σ → Prop} {worse : ε → σ → Prop}
    (ends : Ends program returned raised state) (others : Ends program also worse state) :
    Ends program (fun value after => returned value after ∧ also value after)
      (fun error after => raised error after ∧ worse error after) state := by
  unfold Ends at ends others ⊢
  cases ran : program state with
  | ok value after =>
      rw [ran] at ends others
      exact ⟨ends, others⟩
  | error error after =>
      rw [ran] at ends others
      exact ⟨ends, others⟩

theorem returns {value : α} (holds : returned value state) :
    Ends (pure value : Program σ ε α) returned raised state :=
  holds

theorem raises {error : ε} (holds : raised error state) :
    Ends (throw error : Program σ ε α) returned raised state :=
  holds

theorem updates {update : σ → σ} {updated : Unit → σ → Prop}
    (holds : updated () (update state)) :
    Ends (modify update : Program σ ε Unit) updated raised state :=
  holds

theorem reads {read : σ → σ → Prop} (holds : read state state) :
    Ends (get : Program σ ε σ) read raised state :=
  holds

theorem attempt {answer : Option ε} {answered : Unit → σ → Prop}
    (returns : answer = none → answered () state)
    (raises : ∀ error, answer = some error → raised error state) :
    Ends (attempt answer) answered raised state := by
  cases answer with
  | none => exact returns rfl
  | some error => exact raises error rfl

theorem branch {condition : Prop} [Decidable condition] {first second : Program σ ε α}
    (holds : condition → Ends first returned raised state)
    (fails : ¬condition → Ends second returned raised state) :
    Ends (if condition then first else second) returned raised state := by
  by_cases decided : condition
  · rw [if_pos decided]
    exact holds decided
  · rw [if_neg decided]
    exact fails decided

theorem map {program : Program σ ε α} {apply : α → β} {mapped : β → σ → Prop}
    (ends : Ends program (fun value => mapped (apply value)) raised state) :
    Ends (apply <$> program) mapped raised state := by
  unfold Ends at ends ⊢
  cases ran : program state with
  | ok value after =>
      simp only [ran, Functor.map, EStateM.map] at ends ⊢
      exact ends
  | error error after =>
      simp only [ran, Functor.map, EStateM.map] at ends ⊢
      exact ends

theorem bind {program : Program σ ε α} {next : α → Program σ ε β}
    {settled : β → σ → Prop}
    (ends : Ends program (fun value => Ends (next value) settled raised) raised state) :
    Ends (program >>= next) settled raised state := by
  unfold Ends at ends ⊢
  rw [run_bind]
  cases ran : program state with
  | ok value after => simpa only [ran] using ends
  | error error after => simpa only [ran] using ends

theorem handle {program : Program σ ε α} {handler : ε → Program σ ε α}
    (ends : Ends program returned
      (fun error => Ends (handler error) returned raised) state) :
    Ends (tryCatch program handler) returned raised state := by
  unfold Ends at ends ⊢
  rw [run_tryCatch]
  cases ran : program state with
  | ok value after => simpa only [ran] using ends
  | error error after => simpa only [ran] using ends

/-- A last clause is met from both ends of its body. -/
theorem ensure {program : Program σ ε α} {last : Program σ ε β}
    (ends : Ends program
      (fun value => Ends last (fun _ => returned value) raised)
      (fun error => Ends last (fun _ => raised error) raised) state) :
    Ends (tryFinally program last) returned raised state := by
  unfold Ends at ends ⊢
  rw [run_tryFinally]
  cases ran : program state with
  | ok value after =>
      simp only [ran] at ends ⊢
      cases ended : last after <;> simpa only [ended] using ends
  | error error after =>
      simp only [ran] at ends ⊢
      cases ended : last after <;> simpa only [ended] using ends

theorem shield {program : Program σ ε α} {interruption : Option ε}
    (ends : Ends program returned raised state)
    (interrupts : ∀ error, interruption = some error → raised error (left program state)) :
    Ends (shielded interruption program) returned raised state := by
  cases interruption with
  | none => exact ends
  | some error => exact interrupts error rfl

end Ends

end Cuprum.Effect
