import Mathlib.Data.List.Induction
import Mathlib.Data.Option.Basic

namespace Cuprum.Transition

universe u v

variable {σ : Type u} {ε : Type v}

/-- A system that takes one atomic step for each event it allows.  What it does
not decide itself, which party moves and what the outside answers, is part of
the event. -/
structure System (σ : Type u) (ε : Type v) where
  initial : σ
  next : σ → ε → Option σ

namespace System

variable (system : System σ ε)

def exec (state : σ) : List ε → Option σ
  | [] => some state
  | event :: events => (system.next state event).bind (exec · events)

@[simp] theorem exec_nil (state : σ) : system.exec state [] = some state := rfl

theorem exec_cons (state : σ) (event : ε) (events : List ε) :
    system.exec state (event :: events) =
      (system.next state event).bind (system.exec · events) :=
  rfl

theorem exec_append (state : σ) (first second : List ε) :
    system.exec state (first ++ second) =
      (system.exec state first).bind (system.exec · second) := by
  induction first generalizing state with
  | nil => rfl
  | cons event first induction =>
      rw [List.cons_append, exec_cons, exec_cons]
      cases system.next state event with
      | none => rfl
      | some after => exact induction after

theorem exec_invariant {invariant : σ → Prop}
    (preserved : ∀ {state event after}, invariant state →
      system.next state event = some after → invariant after)
    {state after : σ} {events : List ε} (holds : invariant state)
    (runs : system.exec state events = some after) : invariant after := by
  induction events generalizing state with
  | nil =>
      cases runs
      exact holds
  | cons event events induction =>
      rw [exec_cons, Option.bind_eq_some_iff] at runs
      obtain ⟨middle, step, rest⟩ := runs
      exact induction (preserved holds step) rest

/-- What holds of a run and its end, from one step of the run to the next. -/
theorem exec_history {holds : List ε → σ → Prop} (initially : holds [] system.initial)
    (preserved : ∀ {events state event after},
      system.exec system.initial events = some state → holds events state →
        system.next state event = some after → holds (events ++ [event]) after)
    {events : List ε} {state : σ} (runs : system.exec system.initial events = some state) :
    holds events state := by
  induction events using List.reverseRecOn generalizing state with
  | nil =>
      cases runs
      exact initially
  | append_singleton events event induction =>
      rw [exec_append, Option.bind_eq_some_iff] at runs
      obtain ⟨middle, before, last⟩ := runs
      rw [exec_cons, Option.bind_eq_some_iff] at last
      obtain ⟨after, step, rest⟩ := last
      cases rest
      exact preserved before (induction before) step

/-- A run took an event in a state on its way. -/
def Took (events : List ε) (event : ε) (before : σ) : Prop :=
  ∃ front back, events = front ++ event :: back ∧
    system.exec system.initial front = some before

theorem not_took_nil (event : ε) (before : σ) : ¬ system.Took [] event before := by
  intro took
  obtain ⟨front, back, split, _⟩ := took
  cases front <;> cases split

theorem took_concat {events : List ε} {state : σ}
    (runs : system.exec system.initial events = some state) (last event : ε) (before : σ) :
    system.Took (events ++ [last]) event before ↔
      system.Took events event before ∨ event = last ∧ before = state := by
  constructor
  · intro took
    obtain ⟨front, back, split, reached⟩ := took
    rcases List.eq_nil_or_concat back with rfl | ⟨back, final, rfl⟩
    · obtain ⟨rfl, same⟩ := List.append_inj' split rfl
      cases same
      exact .inr ⟨rfl, Option.some.inj (reached.symm.trans runs)⟩
    · rw [List.concat_eq_append, ← List.cons_append, ← List.append_assoc] at split
      obtain ⟨rfl, _⟩ := List.append_inj' split rfl
      exact .inl ⟨front, back, rfl, reached⟩
  · intro either
    rcases either with ⟨front, back, rfl, reached⟩ | ⟨rfl, rfl⟩
    · exact ⟨front, back ++ [last], by simp, reached⟩
    · exact ⟨events, [], rfl, runs⟩

/-- Where a step keeps a property exactly under a condition, a run keeps it throughout
exactly under the condition at each of its steps. -/
theorem exec_throughout_iff {holds : σ → Prop} {condition : σ → ε → Prop}
    (initially : holds system.initial)
    (exact_step : ∀ {state event after}, holds state →
      system.next state event = some after → (condition state event ↔ holds after))
    {events : List ε} {state : σ} (runs : system.exec system.initial events = some state) :
    (∀ front back middle, events = front ++ back →
      system.exec system.initial front = some middle → holds middle) ↔
        ∀ event before, system.Took events event before → condition before event := by
  constructor
  · intro throughout event before took
    obtain ⟨front, back, split, reached⟩ := took
    rw [split, exec_append, reached, Option.bind_some, exec_cons,
      Option.bind_eq_some_iff] at runs
    obtain ⟨after, step, _⟩ := runs
    apply (exact_step (throughout front _ before split reached) step).mpr
    apply throughout (front ++ [event]) back after
    · rw [split, List.append_assoc]
      rfl
    · rw [exec_append, reached, Option.bind_some, exec_cons, step]
      rfl
  · intro met front
    induction front using List.reverseRecOn with
    | nil =>
        intro back middle _ reached
        cases reached
        exact initially
    | append_singleton front event induction =>
        intro back middle split reached
        rw [exec_append, Option.bind_eq_some_iff] at reached
        obtain ⟨before, earlier, last⟩ := reached
        rw [exec_cons, Option.bind_eq_some_iff] at last
        obtain ⟨after, step, rest⟩ := last
        cases rest
        rw [List.append_assoc] at split
        have kept := induction ([event] ++ back) before split earlier
        exact (exact_step kept step).mp (met event before ⟨front, back, split, earlier⟩)

/-! An event that raises a count is known by the count it found. -/

section Count

variable {count : σ → Nat} {raises : ε → Prop}

theorem Took.count_lt (monotone : ∀ {state event after},
      system.next state event = some after → count state ≤ count after)
    (grows : ∀ {state event after}, raises event →
      system.next state event = some after → count state < count after)
    {events : List ε} {state : σ} (runs : system.exec system.initial events = some state)
    {event : ε} {before : σ} (took : system.Took events event before)
    (raised : raises event) : count before < count state := by
  revert took
  apply system.exec_history ?_ ?_ runs
  · intro took
    exact absurd took (system.not_took_nil _ _)
  · intro events state last after earlier induction step took
    rcases (system.took_concat earlier last event before).mp took with old | ⟨rfl, rfl⟩
    · exact Nat.lt_of_lt_of_le (induction old) (monotone step)
    · exact grows raised step

theorem Took.unique (monotone : ∀ {state event after},
      system.next state event = some after → count state ≤ count after)
    (grows : ∀ {state event after}, raises event →
      system.next state event = some after → count state < count after)
    {events : List ε} {state : σ} (runs : system.exec system.initial events = some state)
    {event other : ε} {before earlier : σ} (took : system.Took events event before)
    (again : system.Took events other earlier) (raised : raises event)
    (raises_ : raises other) (same : count before = count earlier) :
    event = other ∧ before = earlier := by
  revert took again
  refine @exec_history _ _ system (fun events _ => system.Took events event before →
    system.Took events other earlier → event = other ∧ before = earlier) ?_ ?_ _ _ runs
  · intro took
    exact absurd took (system.not_took_nil _ _)
  · intro events state last after reached induction step took again
    rcases (system.took_concat reached last _ _).mp took with old | ⟨rfl, rfl⟩
    · rcases (system.took_concat reached last _ _).mp again with older | ⟨rfl, rfl⟩
      · exact induction old older
      · have below := Took.count_lt system monotone grows reached old raised
        omega
    · rcases (system.took_concat reached _ _ _).mp again with older | ⟨rfl, rfl⟩
      · have below := Took.count_lt system monotone grows reached older raises_
        omega
      · exact ⟨rfl, rfl⟩

end Count

def Reachable (state : σ) : Prop :=
  ∃ events, system.exec system.initial events = some state

theorem Reachable.invariant {system : System σ ε} {invariant : σ → Prop}
    (initially : invariant system.initial)
    (preserved : ∀ {state event after}, invariant state →
      system.next state event = some after → invariant after)
    {state : σ} (reachable : system.Reachable state) : invariant state := by
  obtain ⟨events, runs⟩ := reachable
  exact system.exec_invariant preserved initially runs

theorem Reachable.exec {system : System σ ε} {state after : σ} {events : List ε}
    (reachable : system.Reachable state)
    (runs : system.exec state events = some after) : system.Reachable after := by
  obtain ⟨before, reached⟩ := reachable
  refine ⟨before ++ events, ?_⟩
  rw [exec_append, reached]
  exact runs

/-- The runs of a system whose every step is allowed in the state it is taken in. -/
def guarded (allowed : σ → ε → Bool) : System σ ε where
  initial := system.initial
  next state event := if allowed state event then system.next state event else none

theorem guarded_next {allowed : σ → ε → Bool} {state after : σ} {event : ε} :
    (system.guarded allowed).next state event = some after ↔
      allowed state event = true ∧ system.next state event = some after := by
  change (if allowed state event then system.next state event else none) = some after ↔ _
  split
  · rename_i holds
    simp only [holds, true_and]
  · rename_i fails
    simp only [fails, reduceCtorEq, false_and]

/-- Where a step keeps a property exactly if it is allowed, a run keeps it throughout
exactly if all its steps are. -/
theorem exec_guarded_iff {allowed : σ → ε → Bool} {holds : σ → Prop}
    (exact_step : ∀ {state event after}, holds state →
      system.next state event = some after → (allowed state event = true ↔ holds after))
    {state after : σ} {events : List ε} (initially : holds state)
    (runs : system.exec state events = some after) :
    (∀ front back middle, events = front ++ back →
      system.exec state front = some middle → holds middle) ↔
        (system.guarded allowed).exec state events = some after := by
  induction events generalizing state with
  | nil =>
      cases runs
      constructor
      · intro _
        rfl
      · intro _ front back middle split reached
        obtain ⟨rfl, _⟩ := List.append_eq_nil_iff.mp split.symm
        cases reached
        exact initially
  | cons event events induction =>
      rw [exec_cons, Option.bind_eq_some_iff] at runs
      obtain ⟨next, step, rest⟩ := runs
      rw [exec_cons, Option.bind_eq_some_iff]
      constructor
      · intro throughout
        have kept : holds next := by
          apply throughout [event] events next rfl
          rw [exec_cons, step]
          rfl
        refine ⟨next, (guarded_next system).mpr ⟨(exact_step initially step).mpr kept, step⟩,
          (induction kept rest).mp ?_⟩
        intro front back middle split reached
        apply throughout (event :: front) back middle (congrArg (event :: ·) split)
        rw [exec_cons, step]
        exact reached
      · rintro ⟨middle, taken, further⟩
        obtain ⟨permitted, same⟩ := (guarded_next system).mp taken
        cases step.symm.trans same
        have kept := (exact_step initially step).mp permitted
        intro front back last split reached
        cases front with
        | nil =>
            cases reached
            exact initially
        | cons first front =>
            obtain ⟨rfl, tail⟩ := List.cons.inj split
            rw [exec_cons, step] at reached
            exact (induction kept rest).mpr further front back last tail reached

/-- However a party goes on with steps of its own, it comes to the goal, and until
then it is never stuck. -/
inductive Inevitable (own : ε → Bool) (goal : σ → Prop) : σ → Prop
  | reached {state : σ} (holds : goal state) : Inevitable own goal state
  | forced {state : σ}
      (possible : ∃ event, own event = true ∧ (system.next state event).isSome = true)
      (ahead : ∀ event after, own event = true → system.next state event = some after →
        Inevitable own goal after) : Inevitable own goal state

/-- Progress whose steps all lower a rank leads to the goal. -/
theorem inevitable_of_rank {own : ε → Bool} {goal invariant : σ → Prop} (rank : σ → Nat)
    (progress : ∀ {state}, invariant state → ¬ goal state →
      ∃ event, own event = true ∧ (system.next state event).isSome = true)
    (lowers : ∀ {state event after}, invariant state → own event = true →
      system.next state event = some after → invariant after ∧ rank after < rank state)
    {state : σ} (holds : invariant state) : system.Inevitable own goal state := by
  induction bound : rank state using Nat.strongRecOn generalizing state with
  | ind bound induction =>
      by_cases reached : goal state
      · exact .reached reached
      · apply Inevitable.forced (progress holds reached)
        intro event after owned step
        obtain ⟨kept, lower⟩ := lowers holds owned step
        rw [bound] at lower
        exact induction (rank after) lower kept rfl

end System

end Cuprum.Transition
