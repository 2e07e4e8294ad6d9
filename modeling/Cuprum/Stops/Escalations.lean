import Cuprum.Stops.Signals

namespace Cuprum.Stops

open Teardown (Process GroupProbe Signal SignalAnswer)
open Transition (System)

variable {Execution Error : Type}

/-- The caller has taken its turn, and its escalation still has something to do. -/
def Caller.escalates (caller : Caller) : Bool :=
  caller.inTurn && decide (caller.phase ≠ .stopping .finished)

def Settlement.escalates : Settlement → Bool
  | .tearing stage => decide (stage ≠ .finished)
  | .idle | .waiting | .done _ => false

/-- An escalation is a caller's, or the settlement's own. -/
def State.escalates (state : State) : Option Nat → Bool
  | some index => state.has Caller.escalates index
  | none => state.settlement.escalates

/-- What the stops of one handle promise, however they interleave. -/
structure State.EscalatesOnce (Error : Type) (process : Process Execution) (state : State) :
    Prop where
  oneAtATime : ∀ first second, state.escalates first = true →
    state.escalates second = true → first = second
  keepsTurn : ∀ (event : Event Error) after index, next process state event = some after →
    state.holder = some index → after.holder ≠ some index →
      event = .release index ∧
        ∃ caller, state.callers index = some caller ∧ caller.phase = .stopping .finished
  once : process.target = .child → Once state.signals
  outlasts : ∀ index caller, state.callers index = some caller →
    caller.role.expires = false → caller.phase = .ended → state.child ≠ .running

/-- Nobody signals a child whose exit a forced stop waits for, and the settlement and
the holder of the lock do not escalate beside each other. -/
structure Apart (process : Process Execution) (state : State) (event : Event Error) :
    Prop where
  uncompelled : process.target = .child → event.probes = true →
    state.child.wasCollected = false → ∀ index, state.has Caller.compels index = false
  alone : ∀ index, event = .acquire index → state.settlement.escalates = false
  unopposed : event = .reap → process.ownsGroup = true →
    ∀ index, state.has Caller.escalates index = false

/-- What is known of every reachable state. -/
structure State.Sound (process : Process Execution) (state : State) : Prop where
  straight : state.Straight
  turned : state.Turned
  awaited : state.Awaited
  sent : process.target = .child → state.Sent

section Sound

variable {process : Process Execution} {state after : State} {event : Event Error}

theorem sound_initial : State.Sound process {} where
  straight _ := rfl
  turned _ := by
    constructor <;> intro holds <;> cases holds
  awaited :=
    { settlement := fun past => by cases past
      gone := fun _ gone => by cases gone }
  sent _ :=
    { asked := fun told => by cases told
      killed := fun told => by cases told
      compelled := fun _ compels => by cases compels }

theorem Steps.sound (steps : Steps process state event after) (sound : state.Sound process) :
    after.Sound process where
  straight := steps.straight sound.straight
  turned := steps.turned sound.straight sound.turned
  awaited := steps.awaited sound.awaited
  sent direct := steps.sent direct sound.straight sound.awaited (sound.sent direct)

theorem State.Sound.outlasts (sound : state.Sound process) {index : Nat} {caller : Caller}
    (present : state.callers index = some caller) (expires : caller.role.expires = false)
    (ended : caller.phase = .ended) : state.child ≠ .running := by
  intro running
  have published : state.child.isPublished = true := by
    apply sound.awaited.gone index
    rw [State.has_of_present present, Caller.gone, expires, decide_eq_true ended]
    rfl
  rw [running] at published
  cases published

theorem State.Sound.keepsTurn (sound : state.Sound process) {index : Nat}
    (steps : Steps process state event after) (holds : state.holder = some index)
    (lost : after.holder ≠ some index) :
    event = .release index ∧
      ∃ caller, state.callers index = some caller ∧ caller.phase = .stopping .finished := by
  cases steps with
  | releases other caller present phase locks =>
      have turn : state.has Caller.inTurn other = true := by
        rw [State.has_of_present present, Caller.inTurn, locks, Caller.stops_of_phase phase]
        rfl
      have same := (sound.turned other).mpr turn
      rw [holds] at same
      cases same
      exact ⟨rfl, caller, present, phase⟩
  | acquires other caller present phase free =>
      rw [free] at holds
      cases holds
  | calls | spared | findsExited | expires | advances | leaves | settles | finishes
  | cancels | waits | reaps | tears | records | exits | collects | publishes =>
      exact absurd holds lost

end Sound

namespace Caller

variable {caller : Caller}

theorem escalates_of_idle (idle : caller.inTurn = false) : caller.escalates = false := by
  rw [escalates, idle]
  rfl

theorem escalates_cancel (caller : Caller) :
    caller.cancel.escalates = true → caller.escalates = true := by
  intro escalates
  rw [Caller.escalates, Bool.and_eq_true] at escalates ⊢
  rw [inTurn_cancel] at escalates
  refine ⟨escalates.1, ?_⟩
  have stops : caller.stops = true := (Bool.and_eq_true _ _ ▸ escalates.1).2
  simpa only [Caller.cancel, stops, Bool.not_true, Bool.and_false, Bool.false_eq_true,
    if_false] using escalates.2

end Caller

/-- The settlement and the lock's holder do not escalate beside each other. -/
def State.Parted (state : State) : Prop :=
  state.settlement.escalates = true → ∀ index, state.has Caller.escalates index = false

section Parted

variable {process : Process Execution} {state after : State} {event : Event Error}
  {other : Nat}

theorem State.Turned.oneAtATime_iff (turned : state.Turned) :
    (∀ first second, state.escalates first = true → state.escalates second = true →
      first = second) ↔ state.Parted := by
  constructor
  · intro one settles index
    rw [← Bool.not_eq_true]
    intro escalates
    cases one none (some index) settles escalates
  · intro parted first second escalates again
    have held {index : Nat} (escalates : state.has Caller.escalates index = true) :
        state.holder = some index := by
      obtain ⟨caller, present, escalates⟩ := State.present_of_has escalates
      apply (turned index).mpr
      rw [State.has_of_present present]
      rw [Caller.escalates, Bool.and_eq_true] at escalates
      exact escalates.1
    have apart {index : Nat} (settles : state.settlement.escalates = true)
        (escalates : state.has Caller.escalates index = true) : False := by
      rw [parted settles index] at escalates
      cases escalates
    cases first with
    | none =>
        cases second with
        | none => rfl
        | some index => exact (apart escalates again).elim
    | some index =>
        cases second with
        | none => exact (apart again escalates).elim
        | some other => rw [← held escalates, ← held again]

theorem Steps.begins (steps : Steps process state event after)
    (escalates : after.has Caller.escalates other = true) :
    state.has Caller.escalates other = true ∨ event = .acquire other := by
  have idle {index : Nat} {moved : Caller} {state : State} (inTurn : moved.inTurn = false)
      (escalates : (state.move index moved).has Caller.escalates other = true) :
      state.has Caller.escalates other = true :=
    State.has_of_move (Caller.escalates_of_idle inTurn) escalates
  cases steps with
  | calls index role => exact .inl (idle (Caller.inTurn_entry role) escalates)
  | spared | findsExited | expires | settles | finishes =>
      exact .inl (idle (Caller.inTurn_of_unstopped rfl) escalates)
  | acquires index caller =>
      rw [State.has_move] at escalates
      split at escalates
      · rename_i here
        rw [here]
        exact .inr rfl
      · exact .inl escalates
  | advances index caller present stage onward phase move sent advanced =>
      left
      rw [State.has_move] at escalates
      split at escalates
      · rename_i here
        rw [here, State.has_of_present present]
        rw [Caller.escalates, Bool.and_eq_true] at escalates ⊢
        refine ⟨?_, ?_⟩
        · rw [Caller.inTurn, Caller.stops_of_phase phase]
          exact escalates.1
        · rw [phase]
          cases advances_of_advance advanced with
          | asks | elapses | forces => rfl
          | spares group answer missed stage probing | settles published stage probing =>
              rcases probing with rfl | rfl <;> rfl
      · exact escalates
  | releases index caller | leaves index caller =>
      exact .inl (idle (Caller.inTurn_released caller) escalates)
  | cancels index caller present =>
      left
      rw [State.has_move] at escalates
      split at escalates
      · rename_i here
        rw [here, State.has_of_present present]
        exact caller.escalates_cancel escalates
      · exact escalates
  | waits | reaps | tears | records | exits | collects | publishes => exact .inl escalates

theorem Steps.tearsDown (steps : Steps process state event after)
    (escalates : after.settlement.escalates = true) :
    state.settlement.escalates = true ∨ event = .reap ∧ process.ownsGroup = true := by
  have ensured (ensured : state.settlement.ensure.escalates = true) :
      state.settlement.escalates = true := by
    cases settlement : state.settlement with
    | idle =>
        rw [settlement] at ensured
        cases ensured
    | waiting | tearing | done =>
        rw [settlement] at ensured
        exact ensured
  cases steps with
  | findsExited | expires | settles | waits => exact .inl (ensured escalates)
  | reaps =>
      cases owns : process.ownsGroup with
      | true => exact .inr ⟨rfl, rfl⟩
      | false =>
          rw [owns] at escalates
          cases escalates
  | tears stage onward tearing move sent advanced =>
      left
      rw [tearing]
      cases advances_of_advance advanced with
      | asks | elapses | forces => rfl
      | spares | settles => cases escalates
  | records => cases escalates
  | calls | spared | acquires | advances | releases | leaves | finishes | cancels | exits
  | collects | publishes => exact .inl escalates

theorem Steps.parted_iff (steps : Steps process state event after)
    (straight : state.Straight) (parted : state.Parted) :
    ((∀ index, event = .acquire index → state.settlement.escalates = false) ∧
      (event = .reap → process.ownsGroup = true →
        ∀ index, state.has Caller.escalates index = false)) ↔ after.Parted := by
  constructor
  · rintro ⟨alone, unopposed⟩ settles other
    rw [← Bool.not_eq_true]
    intro escalates
    rcases steps.tearsDown settles with before | ⟨reaped, owns⟩
    · rcases steps.begins escalates with earlier | acquired
      · rw [parted before other] at earlier
        cases earlier
      · rw [alone other acquired] at before
        cases before
    · rcases steps.begins escalates with earlier | acquired
      · rw [unopposed reaped owns other] at earlier
        cases earlier
      · rw [reaped] at acquired
        cases acquired
  · intro parted
    constructor
    · rintro index rfl
      cases steps with
      | acquires _ caller present phase free =>
          rw [← Bool.not_eq_true]
          intro settles
          have quiet := parted settles index
          rw [State.has_move, if_pos rfl, Caller.escalates, Caller.inTurn] at quiet
          rw [straight.takesLock present (by rw [phase]; rfl)] at quiet
          cases quiet
    · rintro rfl owns
      cases steps with
      | reaps =>
          apply parted
          rw [owns]
          rfl

end Parted

section Run

variable {process : Process Execution} {state after : State} {event : Event Error}

theorem State.Sound.escalatesOnce_iff (sound : state.Sound process) :
    state.EscalatesOnce Error process ↔
      state.Parted ∧ (process.target = .child → Once state.signals) := by
  constructor
  · intro promised
    exact ⟨sound.turned.oneAtATime_iff.mp promised.oneAtATime, promised.once⟩
  · rintro ⟨parted, once⟩
    refine ⟨sound.turned.oneAtATime_iff.mpr parted, ?_, once, ?_⟩
    · intro event after index step holds lost
      exact sound.keepsTurn (steps_of_next step) holds lost
    · intro index caller present expires ended
      exact sound.outlasts present expires ended

theorem Steps.apart_iff (steps : Steps process state event after)
    (sound : state.Sound process) (parted : state.Parted)
    (once : process.target = .child → Once state.signals) :
    Apart process state event ↔
      after.Parted ∧ (process.target = .child → Once after.signals) := by
  have parts := steps.parted_iff sound.straight parted
  have told (direct : process.target = .child) :=
    (steps.sends direct sound.awaited).once_iff (sound.sent direct) sound.turned
      sound.straight (once direct)
  constructor
  · intro apart
    exact ⟨parts.mp ⟨apart.alone, apart.unopposed⟩,
      fun direct => (told direct).mp (apart.uncompelled direct)⟩
  · rintro ⟨kept, sent⟩
    obtain ⟨alone, unopposed⟩ := parts.mpr kept
    exact ⟨fun direct => (told direct).mpr (sent direct), alone, unopposed⟩

def handleAfter (process : Process Execution) (events : List (Event Error)) : Option State :=
  (handle process).exec {} events

theorem sound_of_handleAfter {events : List (Event Error)}
    (runs : handleAfter process events = some state) : state.Sound process :=
  (handle process).exec_invariant
    (fun sound step => (steps_of_next step).sound sound) sound_initial runs

end Run

/-- A handle escalates its child once, in every state of a run, exactly if each step of
the run stands apart. -/
theorem escalates_once_iff (process : Process Execution) {events : List (Event Error)}
    {state : State} (runs : handleAfter process events = some state) :
    (∀ front back middle, events = front ++ back →
      handleAfter process front = some middle → middle.EscalatesOnce Error process) ↔
      ∀ event before, (handle process).Took events event before →
        Apart process before event := by
  have kept := @System.exec_throughout_iff _ _ (handle process : System State (Event Error))
    (fun state => state.Sound process ∧ state.EscalatesOnce Error process) (Apart process)
    ⟨sound_initial, sound_initial.escalatesOnce_iff.mpr
      ⟨fun settles => (by cases settles), fun _ => once_nil⟩⟩ ?_ events state runs
  · rw [← kept]
    constructor
    · intro promised front back middle split reached
      exact ⟨sound_of_handleAfter reached, promised front back middle split reached⟩
    · intro promised front back middle split reached
      exact (promised front back middle split reached).2
  · rintro state event after ⟨sound, promised⟩ step
    have steps := steps_of_next step
    have sound' := steps.sound sound
    obtain ⟨parted, once⟩ := sound.escalatesOnce_iff.mp promised
    rw [steps.apart_iff sound parted once, ← sound'.escalatesOnce_iff]
    exact ⟨fun promised => ⟨sound', promised⟩, fun kept => kept.2⟩

/-- A child in the group of its parent. -/
def inheriting : Process Unit := ⟨some 7, .all false, none⟩

/-- A termination that its caller gives up in the grace, with an expired wait queued
behind it. -/
def abandonedStop : List (Event Unit) :=
  [.call 0 .terminate, .call 1 (.expire true), .acquire 0, .look 1,
    .advance 0 (.probes .members .returned), .cancel 0, .advance 0 .elapses,
    .advance 0 (.probes .members .returned), .exit, .collect, .publish, .reap,
    .advance 0 .settles, .release 0, .acquire 1, .advance 1 (.probes .members .returned),
    .release 1, .settle 0, .record true, .finish 0]

theorem escalates_once_iff_abandonedStop :
    ∃ state, handleAfter inheriting abandonedStop = some state ∧
      state.signals = [.terminate, .kill] ∧
      ((∀ front back middle, abandonedStop = front ++ back →
        handleAfter inheriting front = some middle → middle.EscalatesOnce Unit inheriting) ↔
        ∀ event before, (handle inheriting).Took abandonedStop event before →
          Apart inheriting before event) :=
  ⟨_, rfl, rfl, escalates_once_iff inheriting rfl⟩

/-- A kill waits for no lock, so two of them make the child go twice. -/
theorem kills_take_no_turn :
    ∃ state, handleAfter inheriting
        ([.call 0 .kill, .call 1 .kill, .advance 0 (.probes .members .returned),
          .advance 1 (.probes .members .returned)] : List (Event Unit)) = some state ∧
      state.signals = [.kill, .kill] ∧ ¬ state.EscalatesOnce Unit inheriting := by
  refine ⟨_, rfl, rfl, ?_⟩
  intro promised
  exact absurd (promised.once rfl).kill (by decide)

/-! The stops that take the lock keep to one escalation between them. -/

section Locked

variable {process : Process Execution} {state after : State} {event : Event Error}
  {index : Nat} {caller moved : Caller}

def Caller.lockless (caller : Caller) : Bool := !caller.role.takesLock

theorem Caller.role_released (caller : Caller) : caller.released.role = caller.role := by
  obtain ⟨role, phase, cancelled⟩ := caller
  cases role <;> cases cancelled <;> rfl

theorem Caller.role_cancel (caller : Caller) : caller.cancel.role = caller.role := by
  unfold Caller.cancel
  split <;> rfl

def State.Locked (state : State) : Prop :=
  ∀ index, state.has Caller.lockless index = false

theorem State.Locked.move (locked : state.Locked)
    (present : state.callers index = some caller) (same : moved.role = caller.role) :
    (state.move index moved).Locked := by
  intro other
  rw [State.has_move]
  split
  · have kept := locked index
    rw [State.has_of_present present] at kept
    rw [Caller.lockless, same]
    exact kept
  · exact locked other

theorem Steps.locked (steps : Steps process state event after)
    (unkilled : ∀ index, event ≠ .call index .kill) (locked : state.Locked) :
    after.Locked := by
  cases steps with
  | calls index role =>
      intro other
      rw [State.has_move]
      split
      · cases role with
        | kill => exact absurd rfl (unkilled index)
        | terminate | leave | expire => rfl
      · exact locked other
  | spared index caller present | finishes index caller present =>
      exact locked.move present rfl
  | findsExited index caller present | expires index caller present
  | settles index caller present =>
      have kept : state.ensureTask.Locked := locked
      exact kept.move present rfl
  | acquires index caller present =>
      have kept : (state.hold (some index)).Locked := locked
      exact kept.move present rfl
  | advances index caller present stage onward phase move sent =>
      have kept : (state.send sent).Locked := locked
      exact kept.move present rfl
  | releases index caller present =>
      have kept : (state.hold none).Locked := locked
      exact kept.move present caller.role_released
  | leaves index caller present => exact locked.move present caller.role_released
  | cancels index caller present => exact locked.move present caller.role_cancel
  | waits | reaps | tears | records | exits | collects | publishes => exact locked

theorem State.Locked.inTurn (locked : state.Locked)
    (present : state.callers index = some caller) (stops : caller.stops = true) :
    state.has Caller.inTurn index = true := by
  have locks := locked index
  rw [State.has_of_present present, Caller.lockless, Bool.not_eq_false'] at locks
  rw [State.has_of_present present, Caller.inTurn, locks, stops]
  rfl

/-- Under the lock nobody signals a child that another has made go. -/
theorem Steps.apart_of_locked (steps : Steps process state event after)
    (sound : state.Sound process) (locked : state.Locked) (owns : process.ownsGroup = false)
    (settling : state.settlement.escalates = false) : Apart process state event where
  alone _ _ := settling
  unopposed _ owned := by
    rw [owns] at owned
    cases owned
  uncompelled _ probes _ := by
    intro other
    rw [← Bool.not_eq_true]
    intro compels
    cases steps with
    | advances index caller present stage onward phase move sent advanced =>
        have turn := locked.inTurn present (Caller.stops_of_phase phase)
        obtain ⟨forcing, found, compelling⟩ := State.present_of_has compels
        have forced := Caller.compels_pressing.stops compelling
        have again := locked.inTurn found forced
        have same : some other = some index := by
          rw [← (sound.turned other).mpr again, (sound.turned index).mpr turn]
        cases same
        rw [present] at found
        cases found
        rw [Caller.compels, decide_eq_true_eq, phase] at compelling
        cases compelling
        cases advances_of_advance advanced with
        | spares group answer missed stage probing =>
            rcases probing with asking | elapsed
            · cases asking
            · cases elapsed
        | settles => cases probes
    | calls | spared | findsExited | expires | acquires | releases | leaves | settles
    | finishes | cancels | waits | reaps | tears | records | exits | collects | publishes =>
        cases probes

/-- What holds of the handle while only stops under the lock have come to it. -/
structure State.Single (process : Process Execution) (state : State) : Prop where
  sound : state.Sound process
  locked : state.Locked
  settling : state.settlement.escalates = false
  once : Once state.signals

theorem Steps.single (steps : Steps process state event after)
    (owns : process.ownsGroup = false) (unkilled : ∀ index, event ≠ .call index .kill)
    (single : state.Single process) : after.Single process := by
  have direct : process.target = .child := by rw [Process.target, owns]
  have parted : state.Parted := by
    intro settles
    rw [single.settling] at settles
    cases settles
  have apart := steps.apart_of_locked single.sound single.locked owns single.settling
  have kept := (steps.apart_iff single.sound parted fun _ => single.once).mp apart
  refine ⟨steps.sound single.sound, steps.locked unkilled single.locked, ?_, kept.2 direct⟩
  rw [← Bool.not_eq_true]
  intro settles
  rcases steps.tearsDown settles with before | ⟨_, owned⟩
  · rw [single.settling] at before
    cases before
  · rw [owns] at owned
    cases owned

/-- Without a kill, and with no group to tear down, every run keeps to one escalation. -/
theorem escalatesOnce_of_unkilled (owns : process.ownsGroup = false)
    {events : List (Event Error)} (unkilled : ∀ index, Event.call index .kill ∉ events)
    (runs : handleAfter process events = some state) :
    state.EscalatesOnce Error process := by
  have single : state.Single process := by
    revert unkilled
    refine @System.exec_history _ _ (handle process) (fun events state =>
      (∀ index, Event.call index .kill ∉ events) → state.Single process) ?_ ?_ _ _ runs
    · intro _
      exact ⟨sound_initial, fun _ => rfl, rfl, once_nil⟩
    · intro events state event after _ induction step unkilled
      apply (steps_of_next step).single owns
      · rintro index rfl
        exact unkilled index (List.mem_append_right _ (List.mem_singleton_self _))
      · apply induction
        intro index called
        exact unkilled index (List.mem_append_left _ called)
  apply single.sound.escalatesOnce_iff.mpr
  refine ⟨?_, fun _ => single.once⟩
  intro settles
  rw [single.settling] at settles
  cases settles

theorem escalatesOnce_of_unkilled_abandonedStop :
    ∃ state, handleAfter inheriting abandonedStop = some state ∧
      state.signals = [.terminate, .kill] ∧ state.EscalatesOnce Unit inheriting :=
  ⟨_, rfl, rfl, @escalatesOnce_of_unkilled Unit Unit inheriting _ rfl abandonedStop
    (fun _ => by simp [abandonedStop]) rfl⟩

end Locked

end Cuprum.Stops
