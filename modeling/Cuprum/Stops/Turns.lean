import Cuprum.Stops.Steps

namespace Cuprum.Stops

open Teardown (Process GroupProbe Signal SignalAnswer)
open Transition (System)

variable {Execution Error : Type}

/-- What a step does to the handle. -/
inductive Steps (process : Process Execution) (state : State) : Event Error → State → Prop
  | calls (index : Nat) (role : Role) (fresh : state.callers index = none) :
      Steps process state (.call index role) (state.move index { role, phase := role.entry })
  | spared (index : Nat) (caller : Caller) (present : state.callers index = some caller)
      (expires : caller.role.expires = true) (phase : caller.phase = .called)
      (recorded : state.settlement = .done true) :
      Steps process state (.look index) (state.move index { caller with phase := .ended })
  | findsExited (index : Nat) (caller : Caller) (present : state.callers index = some caller)
      (expires : caller.role.expires = true) (phase : caller.phase = .called) :
      Steps process state (.look index)
        (state.ensureTask.move index { caller with phase := .settling })
  | expires (index : Nat) (caller : Caller) (present : state.callers index = some caller)
      (expires : caller.role.expires = true) (phase : caller.phase = .called) :
      Steps process state (.look index)
        (state.ensureTask.move index { caller with phase := .queued })
  | acquires (index : Nat) (caller : Caller) (present : state.callers index = some caller)
      (phase : caller.phase = .queued) (free : state.holder = none) :
      Steps process state (.acquire index)
        ((state.hold (some index)).move index { caller with phase := .stopping .asking })
  | advances (index : Nat) (caller : Caller) (present : state.callers index = some caller)
      (stage after : Stage) (phase : caller.phase = .stopping stage) (move : Move Error)
      (sent : List Signal)
      (advanced : advance process state.child stage move = some (after, sent)) :
      Steps process state (.advance index move)
        ((state.send sent).move index { caller with phase := .stopping after })
  | releases (index : Nat) (caller : Caller) (present : state.callers index = some caller)
      (phase : caller.phase = .stopping .finished) (locks : caller.role.takesLock = true) :
      Steps process state (.release index) ((state.hold none).move index caller.released)
  | leaves (index : Nat) (caller : Caller) (present : state.callers index = some caller)
      (phase : caller.phase = .stopping .finished) (locks : caller.role.takesLock = false) :
      Steps process state (.release index) (state.move index caller.released)
  | settles (index : Nat) (caller : Caller) (present : state.callers index = some caller)
      (phase : caller.phase = .stopped) :
      Steps process state (.settle index)
        (state.ensureTask.move index { caller with phase := .settling })
  | finishes (index : Nat) (caller : Caller) (present : state.callers index = some caller)
      (phase : caller.phase = .settling) (recorded : Bool)
      (done : state.settlement = .done recorded) :
      Steps process state (.finish index) (state.move index { caller with phase := .ended })
  | cancels (index : Nat) (caller : Caller) (present : state.callers index = some caller)
      (phase : caller.phase ≠ .ended) :
      Steps process state (.cancel index) (state.move index caller.cancel)
  | waits : Steps process state .wait state.ensureTask
  | reaps (waiting : state.settlement = .waiting) (published : state.child.isPublished = true) :
      Steps process state .reap { state with
        settlement := .tearing (if process.ownsGroup then .asking else .finished) }
  | tears (stage after : Stage) (tearing : state.settlement = .tearing stage)
      (move : Move Error) (sent : List Signal)
      (advanced : advance process state.child stage move = some (after, sent)) :
      Steps process state (.tear move) { state.send sent with settlement := .tearing after }
  | records (tearing : state.settlement = .tearing .finished) (recorded : Bool) :
      Steps process state (.record recorded) { state with settlement := .done recorded }
  | exits (child : state.child = .running) :
      Steps process state .exit { state with child := .exited }
  | collects (child : state.child = .exited) :
      Steps process state .collect { state with child := .collected }
  | publishes (child : state.child = .collected) :
      Steps process state .publish { state with child := .published }

section Inversion

variable {process : Process Execution} {state after : State}

theorem steps_of_look {index : Nat} {caller : Caller} {positive : Bool}
    (present : state.callers index = some caller) (role : caller.role = .expire positive)
    (phase : caller.phase = .called) :
    Steps process state (.look index : Event Error) (state.look index caller positive) := by
  have expires : caller.role.expires = true := by
    rw [role]
    rfl
  unfold State.look
  split
  · exact .spared index caller present expires phase ‹_›
  · split
    · exact .findsExited index caller present expires phase
    · exact .expires index caller present expires phase

theorem steps_of_next {event : Event Error} (step : next process state event = some after) :
    Steps process state event after := by
  cases event with
  | call index role =>
      cases fresh : state.callers index with
      | none =>
          simp only [next, fresh, Option.some.injEq] at step
          cases step
          exact .calls index role fresh
      | some caller => simp only [next, fresh, reduceCtorEq] at step
  | look index =>
      cases present : state.callers index with
      | none => simp only [next, present, reduceCtorEq] at step
      | some caller =>
          simp only [next, present] at step
          split at step
          case h_1 positive role phase =>
            cases step
            exact steps_of_look present role phase
          case h_2 => cases step
  | acquire index =>
      cases present : state.callers index with
      | none => simp only [next, present, reduceCtorEq] at step
      | some caller =>
          simp only [next, present, Option.ite_none_right_eq_some, Option.some.injEq] at step
          obtain ⟨⟨phase, free⟩, rfl⟩ := step
          exact .acquires index caller present phase free
  | advance index move =>
      cases present : state.callers index with
      | none => simp only [next, present, reduceCtorEq] at step
      | some caller =>
          simp only [next, present] at step
          split at step
          case h_1 stage phase =>
            obtain ⟨⟨onward, sent⟩, advanced, rfl⟩ := Option.map_eq_some_iff.mp step
            exact .advances index caller present stage onward phase move sent advanced
          case h_2 => cases step
  | release index =>
      cases present : state.callers index with
      | none => simp only [next, present, reduceCtorEq] at step
      | some caller =>
          simp only [next, present, Option.ite_none_right_eq_some, Option.some.injEq] at step
          obtain ⟨phase, rfl⟩ := step
          unfold State.release
          cases locks : caller.role.takesLock with
          | false => exact .leaves index caller present phase locks
          | true => exact .releases index caller present phase locks
  | settle index =>
      cases present : state.callers index with
      | none => simp only [next, present, reduceCtorEq] at step
      | some caller =>
          simp only [next, present, Option.ite_none_right_eq_some, Option.some.injEq] at step
          obtain ⟨phase, rfl⟩ := step
          exact .settles index caller present phase
  | finish index =>
      cases present : state.callers index with
      | none => simp only [next, present, reduceCtorEq] at step
      | some caller =>
          cases done : state.settlement with
          | done recorded =>
              simp only [next, present, done, Option.ite_none_right_eq_some,
                Option.some.injEq] at step
              obtain ⟨phase, rfl⟩ := step
              exact .finishes index caller present phase recorded done
          | idle | waiting | tearing => simp only [next, present, done, reduceCtorEq] at step
  | cancel index =>
      cases present : state.callers index with
      | none => simp only [next, present, reduceCtorEq] at step
      | some caller =>
          simp only [next, present, Option.ite_none_left_eq_some, Option.some.injEq] at step
          obtain ⟨phase, rfl⟩ := step
          exact .cancels index caller present phase
  | wait =>
      cases step
      exact .waits
  | reap =>
      simp only [next, Option.ite_none_right_eq_some, Option.some.injEq] at step
      obtain ⟨⟨waiting, published⟩, rfl⟩ := step
      exact .reaps waiting published
  | tear move =>
      cases tearing : state.settlement with
      | tearing stage =>
          simp only [next, tearing] at step
          obtain ⟨⟨onward, sent⟩, advanced, rfl⟩ := Option.map_eq_some_iff.mp step
          exact .tears stage onward tearing move sent advanced
      | idle | waiting | done => simp only [next, tearing, reduceCtorEq] at step
  | record recorded =>
      simp only [next, Option.ite_none_right_eq_some, Option.some.injEq] at step
      obtain ⟨tearing, rfl⟩ := step
      exact .records tearing recorded
  | exit =>
      simp only [next, Option.ite_none_right_eq_some, Option.some.injEq] at step
      obtain ⟨child, rfl⟩ := step
      exact .exits child
  | collect =>
      simp only [next, Option.ite_none_right_eq_some, Option.some.injEq] at step
      obtain ⟨child, rfl⟩ := step
      exact .collects child
  | publish =>
      simp only [next, Option.ite_none_right_eq_some, Option.some.injEq] at step
      obtain ⟨child, rfl⟩ := step
      exact .publishes child

end Inversion

/-- What an escalation does in one step, and what it has found for that. -/
inductive Advances (process : Process Execution) (child : Child) :
    Stage → Move Error → Stage → List Signal → Prop
  | asks (group : GroupProbe) (answer : SignalAnswer Error)
      (reached : reaches process child group answer = true) :
      Advances process child .asking (.probes group answer) .grace [.terminate]
  | spares (group : GroupProbe) (answer : SignalAnswer Error)
      (missed : reaches process child group answer = false) (stage : Stage)
      (probing : stage = .asking ∨ stage = .elapsed) :
      Advances process child stage (.probes group answer) .finished []
  | elapses : Advances process child .grace .elapses .elapsed []
  | forces (group : GroupProbe) (answer : SignalAnswer Error)
      (reached : reaches process child group answer = true) :
      Advances process child .elapsed (.probes group answer) .forced [.kill]
  | settles (published : child.isPublished = true) (stage : Stage)
      (pending : stage = .grace ∨ stage = .forced) :
      Advances process child stage .settles .finished []

theorem advances_of_advance {process : Process Execution} {child : Child}
    {stage after : Stage} {move : Move Error} {sent : List Signal}
    (advanced : advance process child stage move = some (after, sent)) :
    Advances process child stage move after sent := by
  cases stage with
  | asking =>
      cases move with
      | probes group answer =>
          cases reached : reaches process child group answer <;>
            simp only [advance, reached, Bool.false_eq_true, if_true, if_false] at advanced <;>
            cases advanced
          · exact .spares group answer reached .asking (.inl rfl)
          · exact .asks group answer reached
      | elapses | settles => cases advanced
  | grace =>
      cases move with
      | probes => cases advanced
      | elapses =>
          cases advanced
          exact .elapses
      | settles =>
          simp only [advance, Option.ite_none_right_eq_some] at advanced
          obtain ⟨published, same⟩ := advanced
          cases same
          exact .settles published .grace (.inl rfl)
  | elapsed =>
      cases move with
      | probes group answer =>
          cases reached : reaches process child group answer <;>
            simp only [advance, reached, Bool.false_eq_true, if_true, if_false] at advanced <;>
            cases advanced
          · exact .spares group answer reached .elapsed (.inr rfl)
          · exact .forces group answer reached
      | elapses | settles => cases advanced
  | forced =>
      cases move with
      | probes | elapses => cases advanced
      | settles =>
          simp only [advance, Option.ite_none_right_eq_some] at advanced
          obtain ⟨published, same⟩ := advanced
          cases same
          exact .settles published .forced (.inr rfl)
  | finished => cases move <;> cases advanced

theorem Role.takesLock_of_expires {role : Role} (expires : role.expires = true) :
    role.takesLock = true := by
  cases role with
  | expire => rfl
  | terminate | leave | kill => cases expires

def Phase.early : Phase → Bool
  | .called | .queued | .stopping .asking | .stopping .grace => true
  | _ => false

def Settlement.pastExit : Settlement → Bool
  | .idle | .waiting => false
  | .tearing _ | .done _ => true

/-! What is asked of one caller. -/

section Callers

variable {state : State} {index other : Nat} {caller : Caller} {property : Caller → Bool}

def State.has (state : State) (property : Caller → Bool) (index : Nat) : Bool :=
  (state.callers index).any property

theorem State.has_of_present (present : state.callers index = some caller) :
    state.has property index = property caller := by
  rw [State.has, present]
  rfl

theorem State.has_of_fresh (fresh : state.callers index = none) :
    state.has property index = false := by
  rw [State.has, fresh]
  rfl

theorem State.present_of_has (has : state.has property index = true) :
    ∃ caller, state.callers index = some caller ∧ property caller = true :=
  (Option.any_eq_true property (state.callers index)).mp has

theorem State.has_move (state : State) (index other : Nat) (caller : Caller) :
    (state.move index caller).has property other =
      if other = index then property caller else state.has property other := by
  simp only [State.has, State.move, Function.update_apply]
  split
  · rfl
  · rfl

end Callers

namespace Caller

variable {caller : Caller}

def inTurn (caller : Caller) : Bool := caller.role.takesLock && caller.stops

/-- A call that promises the child's end has returned or raised. -/
def gone (caller : Caller) : Bool := !caller.role.expires && decide (caller.phase = .ended)

/-- The caller stands where only a stop under the lock can stand. -/
def strays (caller : Caller) : Bool := !caller.role.takesLock && caller.phase.early

theorem strays_entry (role : Role) : strays { role, phase := role.entry } = false := by
  cases role <;> rfl

theorem strays_of_takesLock (locks : caller.role.takesLock = true) :
    caller.strays = false := by
  rw [strays, locks]
  rfl

theorem strays_of_late (late : caller.phase.early = false) : caller.strays = false := by
  rw [strays, late, Bool.and_false]

theorem strays_released (caller : Caller) : caller.released.strays = false := by
  obtain ⟨role, phase, cancelled⟩ := caller
  cases role <;> cases cancelled <;> rfl

theorem inTurn_entry (role : Role) : inTurn { role, phase := role.entry } = false := by
  cases role <;> rfl

theorem gone_entry (role : Role) : gone { role, phase := role.entry } = false := by
  cases role <;> rfl

theorem inTurn_of_unstopped (stops : caller.stops = false) : caller.inTurn = false := by
  rw [inTurn, stops, Bool.and_false]

theorem stops_of_phase {stage : Stage} (phase : caller.phase = .stopping stage) :
    caller.stops = true := by
  rw [Caller.stops, phase]

theorem stops_of_outside
    (outside : caller.phase = .called ∨ caller.phase = .queued ∨ caller.phase = .stopped ∨
      caller.phase = .settling) : caller.stops = false := by
  rcases outside with phase | phase | phase | phase <;> rw [Caller.stops, phase]

theorem inTurn_released (caller : Caller) : caller.released.inTurn = false := by
  obtain ⟨role, phase, cancelled⟩ := caller
  cases role <;> cases cancelled <;> rfl

theorem inTurn_cancel (caller : Caller) : caller.cancel.inTurn = caller.inTurn := by
  unfold Caller.cancel
  split
  · rename_i leaves
    rw [Bool.and_eq_true, Bool.not_eq_true'] at leaves
    rw [inTurn_of_unstopped leaves.2]
    exact inTurn_of_unstopped rfl
  · rfl

theorem gone_released (caller : Caller) : caller.released.gone = false := by
  obtain ⟨role, phase, cancelled⟩ := caller
  cases role <;> cases cancelled <;> rfl

theorem gone_cancel (caller : Caller) : caller.cancel.gone = caller.gone := by
  unfold Caller.cancel
  split
  · rename_i leaves
    rw [Bool.and_eq_true] at leaves
    simp only [gone, leaves.1, Bool.not_true, Bool.false_and]
  · rfl

theorem gone_of_expires (expires : caller.role.expires = true) : caller.gone = false := by
  rw [gone, expires]
  rfl

theorem strays_cancel (along : caller.strays = false) : caller.cancel.strays = false := by
  unfold Caller.cancel
  split
  · exact strays_of_late rfl
  · exact along

theorem gone_of_phase (phase : caller.phase ≠ .ended) : caller.gone = false := by
  simp only [gone, phase, decide_false, Bool.and_false]

end Caller

/-- A kill neither waits for the lock nor asks the child to go. -/
def State.Straight (state : State) : Prop :=
  ∀ index, state.has Caller.strays index = false

/-- The lock is held by the caller that stops the child under it. -/
def State.Turned (state : State) : Prop :=
  ∀ index, state.holder = some index ↔ state.has Caller.inTurn index = true

section Straight

variable {process : Process Execution} {state after : State} {event : Event Error}
  {index : Nat} {caller : Caller}

theorem State.Straight.move (straight : state.Straight) (along : caller.strays = false) :
    (state.move index caller).Straight := by
  intro other
  rw [State.has_move]
  split
  · exact along
  · exact straight other

theorem State.Straight.takesLock (straight : state.Straight)
    (present : state.callers index = some caller) (early : caller.phase.early = true) :
    caller.role.takesLock = true := by
  have along := straight index
  rw [State.has_of_present present, Caller.strays, early, Bool.and_true] at along
  rwa [Bool.not_eq_false'] at along

theorem Steps.straight (steps : Steps process state event after)
    (straight : state.Straight) : after.Straight := by
  cases steps with
  | calls index role => exact straight.move (Caller.strays_entry role)
  | spared index caller present expires phase =>
      exact straight.move (Caller.strays_of_late rfl)
  | findsExited index caller present expires phase =>
      have kept : state.ensureTask.Straight := straight
      exact kept.move (Caller.strays_of_late rfl)
  | expires index caller present expires phase =>
      have kept : state.ensureTask.Straight := straight
      apply kept.move
      have locks := Role.takesLock_of_expires expires
      exact Caller.strays_of_takesLock locks
  | acquires index caller present phase free =>
      have kept : (state.hold (some index)).Straight := straight
      apply kept.move
      have locks := straight.takesLock present (by rw [phase]; rfl)
      exact Caller.strays_of_takesLock locks
  | advances index caller present stage onward phase move sent advanced =>
      have kept : (state.send sent).Straight := straight
      apply kept.move
      cases advances_of_advance advanced with
      | asks =>
          have locks := straight.takesLock present (by rw [phase]; rfl)
          exact Caller.strays_of_takesLock locks
      | spares | elapses | forces | settles => exact Caller.strays_of_late rfl
  | releases index caller present phase locks =>
      have kept : (state.hold none).Straight := straight
      exact kept.move
        (Caller.strays_released caller)
  | leaves index caller present phase locks =>
      exact straight.move (Caller.strays_released caller)
  | settles index caller present phase =>
      have kept : state.ensureTask.Straight := straight
      exact kept.move (Caller.strays_of_late rfl)
  | finishes index caller present phase recorded done =>
      exact straight.move (Caller.strays_of_late rfl)
  | cancels index caller present phase =>
      apply straight.move
      have along := straight index
      rw [State.has_of_present present] at along
      exact Caller.strays_cancel along
  | waits | reaps | tears | records | exits | collects | publishes => exact straight

end Straight

section Turned

variable {process : Process Execution} {state after : State} {event : Event Error}
  {index : Nat} {caller moved : Caller}

theorem State.Turned.move (turned : state.Turned)
    (same : moved.inTurn = state.has Caller.inTurn index) :
    (state.move index moved).Turned := by
  intro other
  rw [State.has_move]
  split
  · rename_i here
    rw [here, same]
    exact turned index
  · exact turned other

theorem State.Turned.moveOutside (turned : state.Turned)
    (present : state.callers index = some caller) (before : caller.stops = false)
    (outside : moved.stops = false) : (state.move index moved).Turned := by
  apply turned.move
  rw [State.has_of_present present, Caller.inTurn_of_unstopped before,
    Caller.inTurn_of_unstopped outside]

theorem Steps.turned (steps : Steps process state event after) (straight : state.Straight)
    (turned : state.Turned) : after.Turned := by
  cases steps with
  | calls index role fresh =>
      apply turned.move
      rw [Caller.inTurn_entry, State.has_of_fresh fresh]
  | spared index caller present expires phase =>
      exact turned.moveOutside present (Caller.stops_of_outside (.inl phase)) rfl
  | findsExited index caller present expires phase
  | expires index caller present expires phase =>
      have kept : state.ensureTask.Turned := turned
      exact kept.moveOutside present
        (Caller.stops_of_outside (.inl phase)) rfl
  | acquires index caller present phase free =>
      intro other
      rw [State.has_move]
      split
      · rename_i here
        rw [here]
        have locks := straight.takesLock present (by rw [phase]; rfl)
        exact ⟨fun _ => by rw [Caller.inTurn, locks]; rfl, fun _ => rfl⟩
      · rename_i elsewhere
        have idle := turned other
        rw [free] at idle
        constructor
        · intro same
          exact absurd (Option.some.inj same).symm elsewhere
        · intro has
          exact absurd (idle.mpr has) (Option.some_ne_none other).symm
  | advances index caller present stage onward phase move sent advanced =>
      have kept : (state.send sent).Turned := turned
      apply kept.move
      have here : (state.send sent).has Caller.inTurn index = caller.inTurn :=
        State.has_of_present present
      rw [here, Caller.inTurn, Caller.inTurn, Caller.stops_of_phase phase]
      rfl
  | releases index caller present phase locks =>
      intro other
      rw [State.has_move]
      split
      · rw [Caller.inTurn_released]
        constructor <;> intro same <;> cases same
      · rename_i elsewhere
        have holds : state.holder = some index := by
          apply (turned index).mpr
          rw [State.has_of_present present, Caller.inTurn, locks, Caller.stops_of_phase phase]
          rfl
        constructor
        · intro same
          cases same
        · intro has
          have other := (turned other).mpr has
          rw [holds] at other
          exact absurd (Option.some.inj other).symm elsewhere
  | leaves index caller present phase locks =>
      apply turned.move
      rw [State.has_of_present present, Caller.inTurn_released, Caller.inTurn, locks]
      rfl
  | settles index caller present phase =>
      have kept : state.ensureTask.Turned := turned
      exact kept.moveOutside present
        (Caller.stops_of_outside (.inr (.inr (.inl phase)))) rfl
  | finishes index caller present phase recorded done =>
      exact turned.moveOutside present (Caller.stops_of_outside (.inr (.inr (.inr phase)))) rfl
  | cancels index caller present phase =>
      apply turned.move
      rw [State.has_of_present present, Caller.inTurn_cancel]
  | waits | reaps | tears | records | exits | collects | publishes => exact turned

end Turned

/-- Nothing of the settlement is behind the child's exit before that is seen, and
no call that promises it is over. -/
structure State.Awaited (state : State) : Prop where
  settlement : state.settlement.pastExit = true → state.child.isPublished = true
  gone : ∀ index, state.has Caller.gone index = true → state.child.isPublished = true

section Awaited

variable {process : Process Execution} {state after : State} {event : Event Error}
  {index : Nat} {caller : Caller}

theorem State.Awaited.move (awaited : state.Awaited) (stays : caller.gone = false) :
    (state.move index caller).Awaited where
  settlement := awaited.settlement
  gone other gone := by
    rw [State.has_move] at gone
    split at gone
    · rw [stays] at gone
      cases gone
    · exact awaited.gone other gone

/-- Behind a published return code nothing is awaited any more. -/
theorem State.awaited_of_published (published : state.child.isPublished = true) :
    state.Awaited :=
  ⟨fun _ => published, fun _ _ => published⟩

theorem State.Awaited.ofUnpublished (awaited : state.Awaited)
    (unpublished : state.child.isPublished = false) (child : Child) :
    State.Awaited { state with child } where
  settlement past := by
    rw [awaited.settlement past] at unpublished
    cases unpublished
  gone index gone := by
    rw [awaited.gone index gone] at unpublished
    cases unpublished

theorem State.Awaited.ensureTask (awaited : state.Awaited) : state.ensureTask.Awaited where
  settlement past := by
    apply awaited.settlement
    cases settlement : state.settlement with
    | idle => simp [State.ensureTask, settlement, Settlement.ensure, Settlement.pastExit] at past
    | waiting | tearing | done =>
        simpa [State.ensureTask, settlement, Settlement.ensure] using past
  gone := awaited.gone

theorem Steps.awaited (steps : Steps process state event after) (awaited : state.Awaited) :
    after.Awaited := by
  cases steps with
  | calls index role => exact awaited.move (Caller.gone_entry role)
  | spared index caller present expires => exact awaited.move (Caller.gone_of_expires expires)
  | findsExited | expires | settles =>
      exact awaited.ensureTask.move (Caller.gone_of_phase (fun ended => by cases ended))
  | acquires index caller =>
      have held : (state.hold (some index)).Awaited := ⟨awaited.settlement, awaited.gone⟩
      exact held.move (Caller.gone_of_phase (fun ended => by cases ended))
  | advances index caller present stage onward phase move sent =>
      have told : (state.send sent).Awaited := ⟨awaited.settlement, awaited.gone⟩
      exact told.move (Caller.gone_of_phase (fun ended => by cases ended))
  | releases index caller =>
      have free : (state.hold none).Awaited := ⟨awaited.settlement, awaited.gone⟩
      exact free.move (Caller.gone_released caller)
  | leaves index caller => exact awaited.move (Caller.gone_released caller)
  | finishes index caller present phase recorded done =>
      apply State.awaited_of_published
      apply awaited.settlement
      rw [done]
      rfl
  | cancels index caller present phase =>
      apply awaited.move
      rw [Caller.gone_cancel]
      exact Caller.gone_of_phase phase
  | waits => exact awaited.ensureTask
  | reaps waiting published => exact State.awaited_of_published published
  | tears stage onward tearing =>
      apply State.awaited_of_published
      apply awaited.settlement
      rw [tearing]
      rfl
  | records tearing =>
      apply State.awaited_of_published
      apply awaited.settlement
      rw [tearing]
      rfl
  | exits child =>
      have unpublished : state.child.isPublished = false := by
        rw [child]
        rfl
      exact awaited.ofUnpublished unpublished _
  | collects child =>
      have unpublished : state.child.isPublished = false := by
        rw [child]
        rfl
      exact awaited.ofUnpublished unpublished _
  | publishes => exact State.awaited_of_published rfl

end Awaited

end Cuprum.Stops
