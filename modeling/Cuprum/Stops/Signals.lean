import Cuprum.Stops.Turns

namespace Cuprum.Stops

open Teardown (Process GroupProbe Signal SignalAnswer SignalTarget Deed GroupTeardownReport
  Finding)
open Effect
open Transition (System)

variable {Execution Error : Type}

/-- One escalation's worth of signals: at most one of each, and none that asks the child
to go after one that has made it. -/
structure Once (signals : List Signal) : Prop where
  terminate : signals.count .terminate ≤ 1
  kill : signals.count .kill ≤ 1
  ordered : signals.Pairwise fun earlier later => ¬ (earlier = .kill ∧ later = .terminate)

instance (signals : List Signal) : Decidable (Once signals) :=
  decidable_of_iff
    (signals.count .terminate ≤ 1 ∧ signals.count .kill ≤ 1 ∧
      signals.Pairwise fun earlier later => ¬ (earlier = .kill ∧ later = .terminate))
    ⟨fun ⟨terminate, kill, ordered⟩ => ⟨terminate, kill, ordered⟩,
      fun once => ⟨once.terminate, once.kill, once.ordered⟩⟩

section Once

variable {signals : List Signal}

theorem once_nil : Once [] := ⟨Nat.zero_le 1, Nat.zero_le 1, List.Pairwise.nil⟩

/-- Nothing may follow a kill, and a request only what was no request. -/
theorem once_terminate_iff (once : Once signals) (unasked : .terminate ∉ signals) :
    Once (signals ++ [.terminate]) ↔ .kill ∉ signals := by
  constructor
  · intro sent killed
    have ordered := (List.pairwise_append.mp sent.ordered).2.2
    exact ordered .kill killed .terminate (List.mem_singleton_self _) ⟨rfl, rfl⟩
  · intro spared
    refine ⟨?_, ?_, ?_⟩
    · rw [List.count_append, List.count_eq_zero.mpr unasked]
      decide
    · rw [List.count_append, List.count_eq_zero.mpr spared]
      decide
    · refine List.pairwise_append.mpr ⟨once.ordered, List.pairwise_singleton _ _, ?_⟩
      intro earlier present later _ clash
      rw [clash.1] at present
      exact spared present

theorem once_kill_iff (once : Once signals) :
    Once (signals ++ [.kill]) ↔ .kill ∉ signals := by
  constructor
  · intro sent killed
    have counted := sent.kill
    rw [List.count_append] at counted
    have before := List.count_pos_iff.mpr killed
    have last : [Signal.kill].count .kill = 1 := rfl
    omega
  · intro spared
    refine ⟨?_, ?_, ?_⟩
    · rw [List.count_append]
      exact once.terminate
    · rw [List.count_append, List.count_eq_zero.mpr spared]
      decide
    · refine List.pairwise_append.mpr ⟨once.ordered, List.pairwise_singleton _ _, ?_⟩
      intro earlier _ later last clash
      rw [List.mem_singleton.mp last] at clash
      cases clash.2

end Once

section Probe

variable (process : Process Execution) (deeds : List (Deed Error Execution))

theorem reportGroupTeardown_returns (report : GroupTeardownReport) (error : Option Error) :
    Ends (process.reportGroupTeardown report error) (fun _ _ => True) (fun _ _ => False)
      deeds := by
  unfold Process.reportGroupTeardown
  apply Ends.bind
  refine Ends.of_ok rfl ?_
  unfold Process.emitEvent
  cases process.observation with
  | none => exact Ends.returns trivial
  | some execution => exact Ends.of_ok rfl trivial

theorem membersRemainToSignal_returns (finding : Finding) :
    Ends (process.membersRemainToSignal finding)
      (fun remain _ => remain = decide (process.settlementOf finding = .members))
      (fun _ _ => False) deeds := by
  unfold Process.membersRemainToSignal
  apply Ends.bind
  refine Ends.of_ok rfl ?_
  apply Ends.bind
  cases Teardown.unsignalableReport (process.settlementOf finding) process.pid with
  | none => exact Ends.of_ok rfl (Ends.returns rfl)
  | some report =>
      refine (reportGroupTeardown_returns process _ report none).mono ?_ fun _ _ raises => raises
      exact fun _ _ _ => Ends.returns rfl

theorem signalTargetOrReport_returns (signal : Signal) (answer : SignalAnswer Error) :
    Ends (process.signalTargetOrReport signal answer)
      (fun delivered _ => delivered = delivers answer) (fun _ _ => False) deeds := by
  unfold Process.signalTargetOrReport
  apply Ends.bind
  refine Ends.of_ok rfl ?_
  cases answer with
  | returned => exact Ends.returns rfl
  | noSuchProcess => exact Ends.returns rfl
  | refused error =>
      apply Ends.bind
      refine (reportGroupTeardown_returns process _ _ (some error)).mono ?_ fun _ _ raises => raises
      exact fun _ _ _ => Ends.returns rfl

/-- A probe and the signal behind it are one step of the teardown's own program. -/
theorem reaches_eq_outcome (child : Child) (group : GroupProbe) (signal : Signal)
    (answer : SignalAnswer Error) :
    outcome (do
      if ← process.membersRemainToSignal ⟨child.isPublished, group⟩ then
        process.signalTargetOrReport signal (signalAnswer process child answer)
      else pure false) deeds = .ok (reaches process child group answer) := by
  apply outcome_eq
  apply Ends.bind
  refine (membersRemainToSignal_returns process deeds _).mono ?_ fun _ _ raises => raises.elim
  intro remain probed found
  rw [found, reaches]
  split
  · rename_i remains
    refine (signalTargetOrReport_returns process probed signal _).mono ?_
      fun _ _ raises => raises.elim
    intro delivered _ same
    rw [same, remains, Bool.true_and]
  · rename_i settled
    rw [Bool.not_eq_true] at settled
    apply Ends.returns
    rw [settled, Bool.false_and]

end Probe

/-! A child that is signalled by itself. -/

section Direct

variable {process : Process Execution} {state after : State} {event : Event Error}
  {child : Child} {index : Nat} {caller : Caller}

/-- The return code and the collected status leave no choice to a probe of the child. -/
theorem reaches_child (direct : process.target = .child) (child : Child)
    (group : GroupProbe) (answer : SignalAnswer Error) :
    reaches process child group answer = !child.wasCollected := by
  cases child <;>
    simp [reaches, Process.settlementOf, signalAnswer, delivers, direct,
      Child.isPublished, Child.wasCollected]

theorem Child.wasCollected_of_isPublished (published : child.isPublished = true) :
    child.wasCollected = true := by
  cases child with
  | published => rfl
  | running | exited | collected => cases published

theorem sent_of_published {stage onward : Stage} {move : Move Error} {sent : List Signal}
    (direct : process.target = .child) (published : child.isPublished = true)
    (advances : Advances process child stage move onward sent) : sent = [] := by
  cases advances with
  | asks group answer reached | forces group answer reached =>
      rw [reaches_child direct, Child.wasCollected_of_isPublished published] at reached
      cases reached
  | spares | elapses | settles => rfl

end Direct

namespace Caller

variable {caller : Caller}

/-- The caller has asked the child to go under the lock, and is not done with it. -/
def presses (caller : Caller) : Bool :=
  caller.role.takesLock &&
    match caller.phase with
    | .stopping .grace | .stopping .elapsed | .stopping .forced => true
    | _ => false

def compels (caller : Caller) : Bool := decide (caller.phase = .stopping .forced)

/-- A property of callers within their stops, which a step of the stop leaves. -/
structure Pressing (property : Caller → Bool) : Prop where
  stopping {caller : Caller} : property caller = true → ∃ stage,
    caller.phase = .stopping stage ∧ stage ≠ .asking ∧ stage ≠ .finished
  elapses {caller : Caller} : property caller = true → caller.phase = .stopping .grace →
    property { caller with phase := .stopping .elapsed } = true
  forces {caller : Caller} : property caller = true → caller.phase = .stopping .elapsed →
    property { caller with phase := .stopping .forced } = true
  cancels (caller : Caller) :
    property { caller with cancelled := true } = property caller

theorem presses_pressing : Pressing presses where
  stopping {caller} presses := by
    rw [Caller.presses, Bool.and_eq_true] at presses
    obtain ⟨_, within⟩ := presses
    split at within
    case h_1 phase => exact ⟨.grace, phase, by decide, by decide⟩
    case h_2 phase => exact ⟨.elapsed, phase, by decide, by decide⟩
    case h_3 phase => exact ⟨.forced, phase, by decide, by decide⟩
    case h_4 => cases within
  elapses presses _ := by
    rw [Caller.presses, Bool.and_eq_true] at presses ⊢
    exact ⟨presses.1, rfl⟩
  forces presses _ := by
    rw [Caller.presses, Bool.and_eq_true] at presses ⊢
    exact ⟨presses.1, rfl⟩
  cancels _ := rfl

theorem compels_pressing : Pressing compels where
  stopping {caller} compels := ⟨.forced, of_decide_eq_true compels, by decide, by decide⟩
  elapses {caller} compels phase := by
    rw [of_decide_eq_true compels] at phase
    cases phase
  forces _ _ := rfl
  cancels _ := rfl

theorem Pressing.stops {property : Caller → Bool} (pressing : Pressing property)
    (pressed : property caller = true) : caller.stops = true := by
  obtain ⟨stage, phase, _⟩ := pressing.stopping pressed
  exact stops_of_phase phase

theorem Pressing.cancel {property : Caller → Bool} (pressing : Pressing property)
    (pressed : property caller = true) : property caller.cancel = true := by
  rw [Caller.cancel, pressing.stops pressed, Bool.not_true, Bool.and_false]
  exact (pressing.cancels caller).trans pressed

theorem inTurn_of_presses (presses : caller.presses = true) : caller.inTurn = true := by
  have stops := presses_pressing.stops presses
  rw [Caller.presses, Bool.and_eq_true] at presses
  rw [inTurn, stops, presses.1]
  rfl

end Caller

section Pressing

variable {process : Process Execution} {state after : State} {event : Event Error}
  {index other : Nat} {caller moved : Caller} {property : Caller → Bool}

theorem State.has_move_of (has : state.has property other = true)
    (present : state.callers index = some caller)
    (kept : property caller = true → property moved = true) :
    (state.move index moved).has property other = true := by
  rw [State.has_move]
  split
  · rename_i here
    rw [here, State.has_of_present present] at has
    exact kept has
  · exact has

/-- Who has pressed the child stays at it until the child's status is collected. -/
theorem Steps.pressing (steps : Steps process state event after)
    (direct : process.target = .child) (pressing : Caller.Pressing property)
    (has : state.has property index = true) :
    after.has property index = true ∨ after.child.wasCollected = true := by
  have outside {caller moved : Caller} (stops : caller.stops = false) :
      property caller = true → property moved = true := by
    intro pressed
    rw [pressing.stops pressed] at stops
    cases stops
  cases steps with
  | calls fresh role absent =>
      left
      rw [State.has_move]
      split
      · rename_i here
        rw [here, State.has_of_fresh absent] at has
        cases has
      · exact has
  | spared _ caller present _ phase | findsExited _ caller present _ phase
  | expires _ caller present _ phase =>
      left
      exact State.has_move_of has present (outside (Caller.stops_of_outside (.inl phase)))
  | acquires _ caller present phase =>
      left
      exact State.has_move_of has present (outside (Caller.stops_of_outside (.inr (.inl phase))))
  | advances _ caller present stage onward phase move sent advanced =>
      cases advances_of_advance advanced with
      | asks =>
          left
          apply State.has_move_of has present
          intro pressed
          obtain ⟨stage, stands, unasked, _⟩ := pressing.stopping pressed
          rw [phase] at stands
          cases stands
          exact absurd rfl unasked
      | spares group answer missed =>
          right
          rw [reaches_child direct, Bool.not_eq_false'] at missed
          exact missed
      | elapses =>
          left
          exact State.has_move_of has present fun pressed => pressing.elapses pressed phase
      | forces =>
          left
          exact State.has_move_of has present fun pressed => pressing.forces pressed phase
      | settles published =>
          right
          exact Child.wasCollected_of_isPublished published
  | releases _ caller present phase | leaves _ caller present phase =>
      left
      apply State.has_move_of has present
      intro pressed
      obtain ⟨stage, stands, _, unfinished⟩ := pressing.stopping pressed
      rw [phase] at stands
      cases stands
      exact absurd rfl unfinished
  | settles _ caller present phase =>
      left
      apply State.has_move_of has present
      exact outside (Caller.stops_of_outside (.inr (.inr (.inl phase))))
  | finishes _ caller present phase =>
      left
      apply State.has_move_of has present
      exact outside (Caller.stops_of_outside (.inr (.inr (.inr phase))))
  | cancels _ caller present phase =>
      left
      exact State.has_move_of has present pressing.cancel
  | waits | reaps | tears | records | exits | collects | publishes => exact .inl has

end Pressing

def Event.probes : Event Error → Bool
  | .advance _ (.probes _ _) => true
  | _ => false

/-- What a step sends to a child that is signalled by itself. -/
inductive Sends (state : State) : Event Error → State → Prop
  | nothing {event : Event Error} {after : State} (same : after.signals = state.signals)
      (quiet : event.probes = true → state.child.wasCollected = true) :
      Sends state event after
  | asks (index : Nat) (caller : Caller) (present : state.callers index = some caller)
      (phase : caller.phase = .stopping .asking) (uncollected : state.child.wasCollected = false)
      (group : GroupProbe) (answer : SignalAnswer Error) :
      Sends state (.advance index (.probes group answer))
        ((state.send [.terminate]).move index { caller with phase := .stopping .grace })
  | compels (index : Nat) (caller : Caller) (present : state.callers index = some caller)
      (phase : caller.phase = .stopping .elapsed) (uncollected : state.child.wasCollected = false)
      (group : GroupProbe) (answer : SignalAnswer Error) :
      Sends state (.advance index (.probes group answer))
        ((state.send [.kill]).move index { caller with phase := .stopping .forced })

/-- What is known of the signals: who has sent one is at the child until its status is
collected. -/
structure State.Sent (state : State) : Prop where
  asked : .terminate ∈ state.signals → state.child.wasCollected = false →
    ∃ index, state.has Caller.presses index = true
  killed : .kill ∈ state.signals → state.child.wasCollected = false →
    ∃ index, state.has Caller.compels index = true
  compelled : ∀ index, state.has Caller.compels index = true → .kill ∈ state.signals

section Sent

variable {process : Process Execution} {state after : State} {event : Event Error}
  {index : Nat}

theorem Steps.sends (steps : Steps process state event after)
    (direct : process.target = .child) (awaited : state.Awaited) :
    Sends state event after := by
  cases steps with
  | advances index caller present stage onward phase move sent advanced =>
      cases advances_of_advance advanced with
      | asks group answer reached =>
          rw [reaches_child direct, Bool.not_eq_true'] at reached
          exact .asks index caller present phase reached group answer
      | spares group answer missed =>
          rw [reaches_child direct, Bool.not_eq_false'] at missed
          exact .nothing (List.append_nil _) fun _ => missed
      | elapses => exact .nothing (List.append_nil _) fun probes => by cases probes
      | forces group answer reached =>
          rw [reaches_child direct, Bool.not_eq_true'] at reached
          exact .compels index caller present phase reached group answer
      | settles => exact .nothing (List.append_nil _) fun probes => by cases probes
  | tears stage onward tearing move sent advanced =>
      have published : state.child.isPublished = true := by
        apply awaited.settlement
        rw [tearing]
        rfl
      have none := sent_of_published direct published (advances_of_advance advanced)
      rw [none]
      exact .nothing (List.append_nil _) fun probes => by cases probes
  | calls | spared | findsExited | expires | acquires | releases | leaves | settles
  | finishes | cancels | waits | reaps | records | exits | collects | publishes =>
      exact .nothing rfl fun probes => by cases probes

theorem Steps.uncollected (steps : Steps process state event after)
    (uncollected : after.child.wasCollected = false) : state.child.wasCollected = false := by
  cases steps with
  | exits child | collects child =>
      rw [child]
      rfl
  | publishes => cases uncollected
  | calls | spared | findsExited | expires | acquires | advances | releases | leaves
  | settles | finishes | cancels | waits | reaps | tears | records => exact uncollected

theorem State.has_of_move {property : Caller → Bool} {other : Nat} {moved : Caller}
    (spares : property moved = false) (has : (state.move index moved).has property other = true) :
    state.has property other = true := by
  rw [State.has_move] at has
  split at has
  · rw [spares] at has
    cases has
  · exact has

theorem Steps.compelled (steps : Steps process state event after)
    (compelled : ∀ index, state.has Caller.compels index = true → .kill ∈ state.signals) :
    ∀ index, after.has Caller.compels index = true → .kill ∈ after.signals := by
  intro other has
  cases steps with
  | calls index role =>
      have idle : Caller.compels { role, phase := role.entry } = false := by
        cases role <;> rfl
      exact compelled other (State.has_of_move idle has)
  | spared | findsExited | expires | acquires | settles | finishes =>
      exact compelled other (State.has_of_move rfl has)
  | advances index caller present stage onward phase move sent advanced =>
      cases advances_of_advance advanced with
      | forces => exact List.mem_append_right _ (List.mem_singleton_self _)
      | asks | spares | elapses | settles =>
          exact List.mem_append_left _ (compelled other (State.has_of_move rfl has))
  | releases index caller | leaves index caller =>
      have idle : caller.released.compels = false := by
        obtain ⟨role, phase, cancelled⟩ := caller
        cases role <;> cases cancelled <;> rfl
      exact compelled other (State.has_of_move idle has)
  | cancels index caller present =>
      rw [State.has_move] at has
      split at has
      · rename_i here
        apply compelled index
        rw [State.has_of_present present]
        unfold Caller.cancel at has
        split at has
        · cases has
        · exact has
      · exact compelled other has
  | tears => exact List.mem_append_left _ (compelled other has)
  | waits | reaps | records | exits | collects | publishes => exact compelled other has

theorem Steps.still (steps : Steps process state event after)
    (direct : process.target = .child) {property : Caller → Bool}
    (pressing : Caller.Pressing property) (uncollected : after.child.wasCollected = false)
    (pressed : ∃ index, state.has property index = true) :
    ∃ index, after.has property index = true := by
  obtain ⟨index, has⟩ := pressed
  rcases steps.pressing direct pressing has with kept | collected
  · exact ⟨index, kept⟩
  · rw [uncollected] at collected
    cases collected

theorem Steps.sent (steps : Steps process state event after)
    (direct : process.target = .child) (straight : state.Straight) (awaited : state.Awaited)
    (sent : state.Sent) : after.Sent where
  compelled := steps.compelled sent.compelled
  asked told uncollected := by
    have earlier := steps.uncollected uncollected
    have before (told : .terminate ∈ state.signals) :
        ∃ index, after.has Caller.presses index = true :=
      steps.still direct Caller.presses_pressing uncollected (sent.asked told earlier)
    cases steps.sends direct awaited with
    | nothing same =>
        rw [same] at told
        exact before told
    | asks index caller present phase =>
        refine ⟨index, ?_⟩
        rw [State.has_move, if_pos rfl, Caller.presses]
        rw [straight.takesLock present (by rw [phase]; rfl)]
        rfl
    | compels =>
        rcases List.mem_append.mp told with told | last
        · exact before told
        · cases List.mem_singleton.mp last
  killed told uncollected := by
    have earlier := steps.uncollected uncollected
    have before (told : .kill ∈ state.signals) :
        ∃ index, after.has Caller.compels index = true :=
      steps.still direct Caller.compels_pressing uncollected (sent.killed told earlier)
    cases steps.sends direct awaited with
    | nothing same =>
        rw [same] at told
        exact before told
    | asks =>
        rcases List.mem_append.mp told with told | last
        · exact before told
        · cases List.mem_singleton.mp last
    | compels index =>
        refine ⟨index, ?_⟩
        rw [State.has_move, if_pos rfl]
        rfl

theorem State.Sent.unasked (sent : state.Sent) (turned : state.Turned)
    (straight : state.Straight) (uncollected : state.child.wasCollected = false)
    {caller : Caller} (present : state.callers index = some caller)
    (phase : caller.phase = .stopping .asking) : .terminate ∉ state.signals := by
  intro told
  obtain ⟨other, presses⟩ := sent.asked told uncollected
  have asks : state.has Caller.inTurn index = true := by
    rw [State.has_of_present present, Caller.inTurn, Caller.stops_of_phase phase]
    rw [straight.takesLock present (by rw [phase]; rfl)]
    rfl
  have turn : state.has Caller.inTurn other = true := by
    obtain ⟨caller, found, pressed⟩ := State.present_of_has presses
    rw [State.has_of_present found]
    exact Caller.inTurn_of_presses pressed
  have same : some other = some index := by
    rw [← (turned other).mpr turn, (turned index).mpr asks]
  cases same
  rw [State.has_of_present present, Caller.presses, phase, Bool.and_false] at presses
  cases presses

/-- What may be sent keeps to one escalation exactly if nobody waits for a child it has
made go. -/
theorem Sends.once_iff (sends : Sends state event after) (sent : state.Sent)
    (turned : state.Turned) (straight : state.Straight) (once : Once state.signals) :
    (event.probes = true → state.child.wasCollected = false →
      ∀ index, state.has Caller.compels index = false) ↔ Once after.signals := by
  have spared (uncollected : state.child.wasCollected = false) :
      (∀ index, state.has Caller.compels index = false) ↔ .kill ∉ state.signals := by
    constructor
    · intro free told
      obtain ⟨index, compels⟩ := sent.killed told uncollected
      rw [free index] at compels
      cases compels
    · intro untold index
      rw [← Bool.not_eq_true]
      exact fun compels => untold (sent.compelled index compels)
  cases sends with
  | nothing same quiet =>
      rw [same]
      constructor
      · intro _
        exact once
      · intro _ probes uncollected
        rw [quiet probes] at uncollected
        cases uncollected
  | asks index caller present phase uncollected =>
      have unasked := sent.unasked turned straight uncollected present phase
      refine Iff.trans ?_ (once_terminate_iff once unasked).symm
      rw [← spared uncollected]
      exact ⟨fun free => free rfl uncollected, fun free _ _ => free⟩
  | compels index caller present phase uncollected =>
      refine Iff.trans ?_ (once_kill_iff once).symm
      rw [← spared uncollected]
      exact ⟨fun free => free rfl uncollected, fun free _ _ => free⟩

end Sent

end Cuprum.Stops
