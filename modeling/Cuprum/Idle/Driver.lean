import Cuprum.Idle.Punctual

namespace Cuprum.Idle

open Rounding Transition

variable {τ : Type}

/-- Where the driver of a heartbeat stands. -/
inductive DriverPoint
  | created
  | head
  | sleeping
  | polling
  | ended
  deriving DecidableEq

/-- Only then can other tasks move. -/
def DriverPoint.suspends : DriverPoint → Bool
  | .created | .sleeping | .ended => true
  | .head | .polling => false

inductive Mark (τ : Type)
  | suspended
  | notified (now : τ)
  deriving DecidableEq

structure Driven (τ : Type) where
  monitored : Monitored τ
  point : DriverPoint
  marks : List (Mark τ) := []
  deriving DecidableEq

inductive DriverEvent (τ : Type)
  | resume
  | cancel
  | head (now : τ)
  | poll (now : τ) (answer : CallbackAnswer)
  | noteActivity (now : τ)
  | stop
  deriving DecidableEq

section

variable [LinearOrder τ] [Zero τ] [Add τ] [Sub τ]

/-- The loop's test, and the delay it reads. -/
def Driven.readDelay (self : Driven τ) (now : τ) : Driven τ :=
  match self.monitored.monitor.schedule with
  | none => { self with point := .ended }
  | some schedule =>
      if schedule.isStopped then { self with point := .ended }
      else if 0 < schedule.secondsUntilDue now then
        { monitored := { self.monitored with clock := now }
          point := .sleeping
          marks := self.marks ++ [.suspended] }
      else { self with monitored := { self.monitored with clock := now }, point := .polling }

def Driven.poll (self : Driven τ) (now : τ) (answer : CallbackAnswer) : Driven τ where
  monitored := ⟨now, (self.monitored.monitor.poll now answer).1⟩
  point := if (self.monitored.monitor.poll now answer).2 then .head else .ended
  marks :=
    if (self.monitored.monitor.schedule.bind fun schedule => (schedule.takeDue now).1).isSome
    then self.marks ++ [.notified now]
    else self.marks

def driving (interval launched : τ) (hasCallback : Bool) :
    System (Driven τ) (DriverEvent τ) where
  initial := ⟨(monitoring interval launched hasCallback).initial, .created, []⟩
  next state event :=
    match event with
    | .resume =>
        match state.point with
        | .created => some { state with point := .head }
        | .sleeping => some { state with point := .polling }
        | .head | .polling | .ended => none
    | .cancel => if state.point.suspends then some { state with point := .ended } else none
    | .head now =>
        if state.point = .head ∧ state.monitored.clock ≤ now then some (state.readDelay now)
        else none
    | .poll now answer =>
        if state.point = .polling ∧ state.monitored.clock ≤ now then
          some (state.poll now answer)
        else none
    | .noteActivity now =>
        if state.point.suspends ∧ state.monitored.clock ≤ now then
          some { state with monitored := ⟨now, state.monitored.monitor.noteActivity now⟩ }
        else none
    | .stop =>
        if state.point.suspends then
          some { state with
            monitored := ⟨state.monitored.clock, state.monitored.monitor.stop⟩ }
        else none

/-- Whether the loop comes back to its clock before the deadline its last notification set. -/
def prompt (state : Driven τ) : DriverEvent τ → Bool
  | .head now =>
      match state.marks.getLast?, state.monitored.monitor.schedule with
      | some (.notified _), some schedule => schedule.isStopped || now < schedule.nextDeadline
      | _, _ => true
  | _ => true

end

/-- A suspension since the last notification, for one more to be emitted. -/
def Mark.Spaced (front : List (Mark τ)) : Mark τ → Prop
  | .suspended => True
  | .notified _ =>
      ∀ past moment rest, front = past ++ .notified moment :: rest → .suspended ∈ rest

def EndsNotified (marks : List (Mark τ)) : Prop :=
  ∃ moment, marks.getLast? = some (.notified moment)

section

variable {marks : List (Mark τ)} {now : τ}

theorem spaced_notified : Mark.Spaced marks (.notified now) ↔ ¬ EndsNotified marks := by
  constructor
  · rintro spaced ⟨moment, last⟩
    obtain ⟨past, rfl⟩ := List.getLast?_eq_some_iff.mp last
    exact nomatch spaced past moment [] rfl
  · intro other past moment rest split
    rcases List.eq_nil_or_concat rest with rfl | ⟨middle, final, rfl⟩
    · exact absurd ⟨moment, by rw [split, List.getLast?_concat]⟩ other
    · cases final with
      | suspended => simp
      | notified last =>
          refine absurd ⟨last, ?_⟩ other
          rw [split, List.concat_eq_append, ← List.cons_append, ← List.append_assoc,
            List.getLast?_concat]

theorem not_endsNotified_suspended : ¬ EndsNotified (marks ++ [.suspended]) := by
  rintro ⟨moment, last⟩
  rw [List.getLast?_concat] at last
  cases last

end

section

variable [LinearOrder τ] [Add τ] [Sub τ] {interval launched now : τ} {hasCallback : Bool}
  {state after : Driven τ} {event : DriverEvent τ}

/-- What one event does to a driver. -/
inductive Moves (state : Driven τ) : DriverEvent τ → Driven τ → Prop
  | started (point : state.point = .created) :
      Moves state .resume { state with point := .head }
  | woken (point : state.point = .sleeping) :
      Moves state .resume { state with point := .polling }
  | cancelled (point : state.point.suspends = true) :
      Moves state .cancel { state with point := .ended }
  | left (now : τ) (point : state.point = .head)
      (stopped : ∀ schedule, state.monitored.monitor.schedule = some schedule →
        schedule.isStopped = true) : Moves state (.head now) { state with point := .ended }
  | slept (now : τ) (point : state.point = .head) (forward : state.monitored.clock ≤ now)
      (schedule : IdleSchedule τ) (armed : state.monitored.monitor.schedule = some schedule)
      (ahead : now < schedule.nextDeadline) :
      Moves state (.head now)
        { monitored := { state.monitored with clock := now }
          point := .sleeping
          marks := state.marks ++ [.suspended] }
  | passed (now : τ) (point : state.point = .head) (forward : state.monitored.clock ≤ now)
      (schedule : IdleSchedule τ) (armed : state.monitored.monitor.schedule = some schedule)
      (running : schedule.isStopped = false) (due : schedule.nextDeadline ≤ now) :
      Moves state (.head now)
        { state with monitored := { state.monitored with clock := now }, point := .polling }
  | polled (now : τ) (answer : CallbackAnswer) (point : state.point = .polling)
      (forward : state.monitored.clock ≤ now) :
      Moves state (.poll now answer) (state.poll now answer)
  | observed (event : DriverEvent τ) (op : Op τ) (point : state.point.suspends = true)
      (other : ∀ now, event ≠ .head now) (quiet : ∀ now answer, op ≠ .poll now answer)
      (forward : state.monitored.clock ≤ op.reading.getD state.monitored.clock) :
      Moves state event
        { state with
          monitored :=
            ⟨op.reading.getD state.monitored.clock, state.monitored.monitor.apply op⟩ }

theorem moves_readDelay [Zero τ] [RoundedArithmetic τ] (point : state.point = .head)
    (forward : state.monitored.clock ≤ now) :
    Moves state (.head now) (state.readDelay now) := by
  unfold Driven.readDelay
  split
  next none => exact .left now point fun schedule armed => nomatch none.symm.trans armed
  next schedule armed =>
    split
    next stopped =>
      refine .left now point fun other same => ?_
      cases armed.symm.trans same
      exact stopped
    next running =>
      have ahead : 0 < schedule.secondsUntilDue now ↔ now < schedule.nextDeadline := by
        rw [IdleSchedule.secondsUntilDue, lt_max_iff, RoundedArithmetic.sub_pos]
        simp
      split
      next waits => exact .slept now point forward schedule armed (ahead.mp waits)
      next passes =>
        exact .passed now point forward schedule armed (Bool.eq_false_iff.mpr running)
          (not_lt.mp fun early => passes (ahead.mpr early))

theorem driving_moves [Zero τ] [RoundedArithmetic τ]
    (step : (driving interval launched hasCallback).next state event = some after) :
    Moves state event after := by
  cases event with
  | resume =>
      simp only [driving] at step
      split at step
      · next point =>
          cases step
          exact .started point
      · next point =>
          cases step
          exact .woken point
      · contradiction
      · contradiction
      · contradiction
  | cancel =>
      obtain ⟨point, same⟩ := Option.ite_none_right_eq_some.mp step
      cases same
      exact .cancelled point
  | head now =>
      obtain ⟨⟨point, forward⟩, same⟩ := Option.ite_none_right_eq_some.mp step
      cases same
      exact moves_readDelay point forward
  | poll now answer =>
      obtain ⟨⟨point, forward⟩, same⟩ := Option.ite_none_right_eq_some.mp step
      cases same
      exact .polled now answer point forward
  | noteActivity now =>
      obtain ⟨⟨point, forward⟩, same⟩ := Option.ite_none_right_eq_some.mp step
      cases same
      exact .observed _ (.noteActivity now) point nofun nofun forward
  | stop =>
      obtain ⟨point, same⟩ := Option.ite_none_right_eq_some.mp step
      cases same
      exact .observed _ .stop point nofun nofun le_rfl

theorem poll_marks (state : Driven τ) (now : τ) (answer : CallbackAnswer) :
    (state.poll now answer).marks = state.marks ∨
      (state.poll now answer).marks = state.marks ++ [.notified now] := by
  unfold Driven.poll
  by_cases emitted :
      (state.monitored.monitor.schedule.bind fun schedule => (schedule.takeDue now).1).isSome
  · exact .inr (if_pos emitted)
  · exact .inl (if_neg emitted)

theorem poll_marks_due {schedule : IdleSchedule τ} (answer : CallbackAnswer)
    (armed : state.monitored.monitor.schedule = some schedule)
    (running : schedule.isStopped = false) (due : schedule.nextDeadline ≤ now) :
    (state.poll now answer).marks = state.marks ++ [.notified now] := by
  unfold Driven.poll IdleSchedule.takeDue
  simp [armed, running, not_lt.mpr due]

theorem poll_point (state : Driven τ) (now : τ) (answer : CallbackAnswer) :
    (state.poll now answer).point = .head ∨ (state.poll now answer).point = .ended := by
  unfold Driven.poll
  dsimp only
  split
  · exact .inl rfl
  · exact .inr rfl

theorem Moves.marks (moves : Moves state event after) :
    ∃ later, after.marks = state.marks ++ later := by
  cases moves with
  | slept => exact ⟨_, rfl⟩
  | polled now answer =>
      rcases poll_marks state now answer with same | emitted
      · exact ⟨[], same.trans (List.append_nil _).symm⟩
      · exact ⟨_, emitted⟩
  | started | woken | cancelled | left | passed | observed =>
      exact ⟨[], (List.append_nil _).symm⟩

/-- Where a driver that sleeps, or is about to poll, has come from. -/
structure Anchored (state : Driven τ) : Prop where
  sleeping : state.point = .sleeping → ¬ EndsNotified state.marks
  behind : state.point = .polling → EndsNotified state.marks →
    ∃ schedule, state.monitored.monitor.schedule = some schedule ∧
      schedule.isStopped = false ∧ schedule.nextDeadline ≤ state.monitored.clock

theorem Anchored.moves (anchored : Anchored state) (moves : Moves state event after) :
    Anchored after := by
  cases moves with
  | started | cancelled | left => exact ⟨nofun, nofun⟩
  | woken point => exact ⟨nofun, fun _ last => absurd last (anchored.sleeping point)⟩
  | slept => exact ⟨fun _ => not_endsNotified_suspended, nofun⟩
  | passed now point forward schedule armed running due =>
      exact ⟨nofun, fun _ _ => ⟨schedule, armed, running, due⟩⟩
  | polled now answer =>
      rcases poll_point state now answer with head | ended
      · exact ⟨fun other => (nomatch head.symm.trans other),
          fun other => (nomatch head.symm.trans other)⟩
      · exact ⟨fun other => (nomatch ended.symm.trans other),
          fun other => (nomatch ended.symm.trans other)⟩
  | observed event op point =>
      refine ⟨anchored.sleeping, fun polling => ?_⟩
      change state.point = .polling at polling
      rw [polling] at point
      contradiction

/-- A driver that has suspended between any two of its notifications, and is not about to
emit one without. -/
structure Yielding (state : Driven τ) : Prop where
  spaced : Throughout Mark.Spaced state.marks
  sleeping : state.point = .sleeping → ¬ EndsNotified state.marks
  polling : state.point = .polling → ¬ EndsNotified state.marks

omit [Add τ] [Sub τ] in
theorem prompt_iff {schedule : IdleSchedule τ}
    (armed : state.monitored.monitor.schedule = some schedule) :
    prompt state (.head now) = true ↔
      (EndsNotified state.marks → schedule.isStopped = true ∨ now < schedule.nextDeadline) := by
  unfold prompt EndsNotified
  rw [armed]
  cases last : state.marks.getLast? with
  | none => simp
  | some mark =>
      cases mark with
      | suspended => simp
      | notified moment => simp

omit [Add τ] [Sub τ] in
theorem prompt_of_ne (other : ∀ now, event ≠ .head now) : prompt state event = true := by
  cases event with
  | head now => exact absurd rfl (other now)
  | resume | cancel | poll | noteActivity | stop => rfl

/-- A step keeps a driver yielding exactly if it is prompt. -/
theorem Yielding.step (yielding : Yielding state) (moves : Moves state event after) :
    prompt state event = true ↔ Yielding after := by
  cases moves with
  | started | cancelled =>
      exact ⟨fun _ => ⟨yielding.spaced, nofun, nofun⟩, fun _ => rfl⟩
  | woken point =>
      exact ⟨fun _ => ⟨yielding.spaced, nofun, fun _ => yielding.sleeping point⟩, fun _ => rfl⟩
  | observed event op point other =>
      exact ⟨fun _ => ⟨yielding.spaced, yielding.sleeping, yielding.polling⟩,
        fun _ => prompt_of_ne other⟩
  | left now point stopped =>
      refine ⟨fun _ => ⟨yielding.spaced, nofun, nofun⟩, fun _ => ?_⟩
      cases armed : state.monitored.monitor.schedule with
      | none =>
          unfold prompt
          rw [armed]
          simp
      | some schedule => exact (prompt_iff armed).mpr fun _ => .inl (stopped schedule armed)
  | slept now point forward schedule armed ahead =>
      exact ⟨fun _ => ⟨throughout_concat.mpr ⟨yielding.spaced, trivial⟩,
          fun _ => not_endsNotified_suspended, nofun⟩,
        fun _ => (prompt_iff armed).mpr fun _ => .inr ahead⟩
  | passed now point forward schedule armed running due =>
      constructor
      · intro prompts
        refine ⟨yielding.spaced, nofun, fun _ last => ?_⟩
        rcases (prompt_iff armed).mp prompts last with stopped | early
        · exact Bool.false_ne_true (running.symm.trans stopped)
        · exact not_lt.mpr due early
      · intro after
        exact (prompt_iff armed).mpr fun last => absurd last (after.polling rfl)
  | polled now answer point =>
      refine ⟨fun _ => ?_, fun _ => rfl⟩
      have spaced : Throughout Mark.Spaced (state.poll now answer).marks := by
        rcases poll_marks state now answer with same | emitted
        · rw [same]
          exact yielding.spaced
        · rw [emitted]
          exact throughout_concat.mpr
            ⟨yielding.spaced, spaced_notified.mpr (yielding.polling point)⟩
      rcases poll_point state now answer with head | ended
      · exact ⟨spaced, fun other => (nomatch head.symm.trans other),
          fun other => (nomatch head.symm.trans other)⟩
      · exact ⟨spaced, fun other => (nomatch ended.symm.trans other),
          fun other => (nomatch ended.symm.trans other)⟩

/-! A driver's notifications are those of its monitor, and keep the interval. -/

def Mark.notified? : Mark τ → Option τ
  | .suspended => none
  | .notified now => some now

theorem emissions_apply {monitor : IdleMonitor τ} {op : Op τ}
    (quiet : ∀ now answer, op ≠ .poll now answer) :
    emissions (monitor.apply op).reports = emissions monitor.reports := by
  cases op with
  | poll now answer => exact absurd rfl (quiet now answer)
  | noteActivity now =>
      simp only [IdleMonitor.apply, IdleMonitor.noteActivity]
      split
      · rfl
      · dsimp only
        split
        · rfl
        · exact emissions_activity
  | stop =>
      simp only [IdleMonitor.apply, IdleMonitor.stop]
      split
      · rfl
      · exact emissions_stopped

theorem takeDue_isSome {schedule : IdleSchedule τ} {reports : List (Report τ)}
    (scheduled : Scheduled interval launched reports schedule) :
    (schedule.takeDue now).1.isSome = true ↔
      .stopped ∉ reports ∧ quietSince launched reports + interval ≤ now := by
  constructor
  · intro some
    by_cases early : .stopped ∈ reports ∨ now < quietSince launched reports + interval
    · rw [scheduled.takeDue_none early] at some
      contradiction
    · obtain ⟨running, late⟩ := not_or.mp early
      exact ⟨running, not_lt.mp late⟩
  · rintro ⟨running, late⟩
    rw [scheduled.takeDue_some running late]
    rfl

/-- A driver whose monitor keeps its interval, and has emitted what the driver has. -/
structure Driving (interval launched : τ) (state : Driven τ) : Prop where
  timed : Timed interval launched state.monitored
  marked : state.marks.filterMap Mark.notified? = emissions state.monitored.monitor.reports

theorem Driving.moves [Zero τ] [RoundedArithmetic τ] (driving : Driving interval launched state)
    (moves : Moves state event after) : Driving interval launched after := by
  obtain ⟨timed, marked⟩ := driving
  cases moves with
  | started | woken | cancelled | left => exact ⟨timed, marked⟩
  | slept now point forward =>
      refine ⟨timed.later forward, ?_⟩
      rw [List.filterMap_append, marked]
      exact List.append_nil _
  | passed now point forward => exact ⟨timed.later forward, marked⟩
  | observed event op point other quiet forward =>
      exact ⟨timed.apply op forward, marked.trans (emissions_apply quiet).symm⟩
  | polled now answer point forward =>
      refine ⟨timed.poll forward answer, ?_⟩
      obtain ⟨schedule, armed, scheduled⟩ := timed.scheduled
      unfold Driven.poll
      rw [emissions_poll timed, armed]
      by_cases due : (schedule.takeDue now).1.isSome = true
      · rw [if_pos ((takeDue_isSome scheduled).mp due), ← marked]
        simp [due, Mark.notified?]
      · rw [if_neg fun late => due ((takeDue_isSome scheduled).mpr late), ← marked]
        simp [due]

theorem driving_exec [Zero τ] [RoundedArithmetic τ] {events : List (DriverEvent τ)}
    (runs : (driving interval launched hasCallback).exec
      (driving interval launched hasCallback).initial events = some state) :
    Driving interval launched state := by
  refine (driving interval launched hasCallback).exec_invariant ?_
    ⟨Timed.initial interval launched hasCallback, rfl⟩ runs
  intro before event after drives step
  exact drives.moves (driving_moves step)

theorem exec_marks [Zero τ] [RoundedArithmetic τ] {events : List (DriverEvent τ)}
    (runs : (driving interval launched hasCallback).exec state events = some after) :
    ∃ later, after.marks = state.marks ++ later := by
  refine @System.exec_invariant _ _ (driving interval launched hasCallback)
    (fun last => ∃ later, last.marks = state.marks ++ later) ?_ _ _ _
    ⟨[], (List.append_nil _).symm⟩ runs
  rintro before event last ⟨earlier, same⟩ step
  obtain ⟨later, grown⟩ := (driving_moves step).marks
  exact ⟨earlier ++ later, by rw [grown, same, List.append_assoc]⟩

theorem anchored_exec [Zero τ] [RoundedArithmetic τ] {events : List (DriverEvent τ)}
    (runs : (driving interval launched hasCallback).exec
      (driving interval launched hasCallback).initial events = some state) : Anchored state := by
  have initially : Anchored (driving interval launched hasCallback).initial :=
    ⟨fun sleeping => (nomatch (show DriverPoint.created = .sleeping from sleeping)),
      fun polling => (nomatch (show DriverPoint.created = .polling from polling))⟩
  refine (driving interval launched hasCallback).exec_invariant ?_ initially runs
  intro before event after anchored step
  exact anchored.moves (driving_moves step)

/-- A run that goes on from a poll it comes to without a suspension notifies again. -/
theorem not_spaced_of_polling [Zero τ] [RoundedArithmetic τ] {event : DriverEvent τ}
    {events : List (DriverEvent τ)} {last : Driven τ} (anchored : Anchored state)
    (point : state.point = .polling) (unsuspended : EndsNotified state.marks)
    (runs : (driving interval launched hasCallback).exec state (event :: events) =
      some last) : ¬ Throughout Mark.Spaced last.marks := by
  obtain ⟨schedule, armed, running, due⟩ := anchored.behind point unsuspended
  rw [System.exec_cons, Option.bind_eq_some_iff] at runs
  obtain ⟨next, step, rest⟩ := runs
  obtain ⟨later, grown⟩ := exec_marks rest
  have emitted : ∃ now, next.marks = state.marks ++ [.notified now] := by
    cases driving_moves step with
    | polled now answer _ forward =>
        exact ⟨now, poll_marks_due answer armed running (due.trans forward)⟩
    | started other | woken other | left _ other | slept _ other | passed _ other =>
        exact nomatch point.symm.trans other
    | cancelled other | observed _ _ other =>
        rw [point] at other
        contradiction
  obtain ⟨now, marks⟩ := emitted
  rw [grown, marks]
  intro spaced
  exact spaced_notified.mp (throughout_concat.mp spaced.of_append).2 unsuspended

/-- A run suspends between any two of its notifications exactly if its loop always comes
back to a clock that is before the deadline its last notification set. -/
theorem suspends_between_notifications_iff [Zero τ] [RoundedArithmetic τ]
    {events : List (DriverEvent τ)}
    (runs : (driving interval launched hasCallback).exec
      (driving interval launched hasCallback).initial events = some state)
    (settled : state.point ≠ .polling) :
    Throughout Mark.Spaced state.marks ↔
      ((driving interval launched hasCallback).guarded prompt).exec
        (driving interval launched hasCallback).initial events = some state := by
  have initially : Yielding (driving interval launched hasCallback).initial :=
    ⟨throughout_nil,
      fun sleeping => (nomatch (show DriverPoint.created = .sleeping from sleeping)),
      fun polling => (nomatch (show DriverPoint.created = .polling from polling))⟩
  have yields := @System.exec_guarded_iff _ _ (driving interval launched hasCallback) prompt
    Yielding (fun yielding step => yielding.step (driving_moves step)) _ _ _ initially runs
  rw [← yields]
  constructor
  · intro spaced front back middle split reached
    have anchored := anchored_exec reached
    rw [split, System.exec_append, reached] at runs
    obtain ⟨later, grown⟩ := exec_marks runs
    refine ⟨?_, anchored.sleeping, fun point unsuspended => ?_⟩
    · rw [grown] at spaced
      exact spaced.of_append
    · cases back with
      | nil =>
          cases runs
          exact settled point
      | cons event back =>
          exact not_spaced_of_polling anchored point unsuspended runs spaced
  · intro every
    exact (every events [] state (List.append_nil _).symm runs).spaced

end

theorem suspends_between_notifications_prompt :
    Throughout Mark.Spaced [Mark.suspended, .notified (Binary64.dyadic 10 0), .suspended] :=
  (suspends_between_notifications_iff
    (show (driving (Binary64.dyadic 10 0) (.dyadic 0 0) true).exec
        (driving (.dyadic 10 0) (.dyadic 0 0) true).initial
        [.resume, .head (.dyadic 0 0), .resume, .poll (.dyadic 10 0) (.returned false),
          .head (.dyadic 12 0)] =
      some
        { monitored :=
            ⟨.dyadic 12 0,
              { interval := .dyadic 10 0
                hasCallback := true
                schedule := some ⟨.dyadic 10 0, .dyadic 0 0, .dyadic 0 0, .dyadic 20 0, false⟩
                reports := [.notified (.dyadic 10 0) (.dyadic 10 0) (.dyadic 10 0)] }⟩
          point := .sleeping
          marks := [.suspended, .notified (.dyadic 10 0), .suspended] } from by
      decide +kernel)
    (by decide)).mpr (by decide +kernel)

/-- A callback that takes longer than the interval is called again at once. -/
theorem slow_callback_starves :
    ((driving (Binary64.dyadic 10 0) (.dyadic 0 0) true).exec
        (driving (.dyadic 10 0) (.dyadic 0 0) true).initial
        [.resume, .head (.dyadic 0 0), .resume, .poll (.dyadic 10 0) (.returned false),
          .head (.dyadic 25 0), .poll (.dyadic 25 0) (.returned false)]).map Driven.marks =
      some [.suspended, .notified (.dyadic 10 0), .notified (.dyadic 25 0)] ∧
    ¬ Throughout Mark.Spaced
      [.suspended, .notified (Binary64.dyadic 10 0), .notified (.dyadic 25 0)] := by
  refine ⟨by decide +kernel, fun spaced => ?_⟩
  have waited := spaced [.suspended, .notified (.dyadic 10 0)] (.notified (.dyadic 25 0)) [] rfl
    [.suspended] (.dyadic 10 0) [] rfl
  contradiction

/-- An interval of 1e-12 that a clock at one million absorbs: the driver never waits. -/
example :
    ((driving (Binary64.dyadic 4951760157141521 92) (.dyadic 1000000 0) true).exec
        (driving (.dyadic 4951760157141521 92) (.dyadic 1000000 0) true).initial
        [.resume, .head (.dyadic 1000000 0), .poll (.dyadic 1000000 0) (.returned false),
          .head (.dyadic 1000000 0), .poll (.dyadic 1000000 0) (.returned false)]).map
        Driven.marks =
      some [.notified (.dyadic 1000000 0), .notified (.dyadic 1000000 0)] := by
  decide +kernel

end Cuprum.Idle
