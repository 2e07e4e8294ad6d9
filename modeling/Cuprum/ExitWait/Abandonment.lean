import Mathlib.Logic.Function.Basic
import Cuprum.ExitWait.Readers
import Cuprum.Transition.System

namespace Cuprum.ExitWait

open Cuprum.Transition

inductive OutputStream
  | stdout
  | stderr
  deriving DecidableEq

/-- A run of `count` children: one for `run()` and `lines()`, one for each stage of a
pipeline.  A stream that is inherited or redirected has no pipe. -/
structure Config (count : Nat) where
  pipe : Fin count → OutputStream → Option PipeUse
  capacity : Nat
  hasDeadline : Bool
  hasStdinWriter : Bool

inductive Child
  | running
  | terminating
  | exited (failed : Bool)
  deriving DecidableEq

structure Pipe where
  buffered : Nat := 0
  closed : Bool := false
  reader : Reader := {}

/-- `writing` is what a child has still to write before its `write` returns. -/
structure State (count : Nat) where
  children : Fin count → Child := fun _ => .running
  writing : Fin count → Option (OutputStream × Nat) := fun _ => none
  pipes : Fin count → OutputStream → Pipe := fun _ _ => {}

/-- What ends the exit wait before the children have exited. -/
inductive Cause
  | stageFailed
  | deadline
  | writerFailed
  | callerCancelled
  deriving DecidableEq

inductive Event (count : Nat)
  | write (child : Fin count) (stream : OutputStream) (size : Nat)
  | push (child : Fin count) (amount : Nat)
  | close (child : Fin count) (stream : OutputStream)
  | exit (child : Fin count) (failed : Bool)
  | read (child : Fin count) (stream : OutputStream) (amount : Nat)
  | handle (child : Fin count) (stream : OutputStream) (raised : Option Raised)
  | eof (child : Fin count) (stream : OutputStream)
  | finish (child : Fin count) (stream : OutputStream)
  | stop (child : Fin count) (stream : OutputStream)
  | expire (child : Fin count) (stream : OutputStream)
  | terminate (cause : Cause)

namespace State

variable {count : Nat}

def setPipe (state : State count) (child : Fin count) (stream : OutputStream)
    (pipe : Pipe) : State count :=
  { state with
    pipes := Function.update state.pipes child
      (Function.update (state.pipes child) stream pipe) }

def move (config : Config count) (state : State count) (child : Fin count)
    (stream : OutputStream) (step : PipeUse → Reader → Option Reader) :
    Option (State count) :=
  (config.pipe child stream).bind fun use =>
    (step use (state.pipes child stream).reader).map fun reader =>
      state.setPipe child stream { state.pipes child stream with reader := reader }

/-- The bytes the pipe takes before a write blocks. -/
def room (config : Config count) (state : State count) (child : Fin count)
    (stream : OutputStream) : Nat :=
  config.capacity - (state.pipes child stream).buffered

/-- The exit wait watches the children, the deadline, the stdin writer and its caller;
a failed stage ends the others of a pipeline. -/
def notices (config : Config count) (state : State count) : Cause → Bool
  | .stageFailed => (List.finRange count).any fun child =>
      state.children child = .exited true
  | .deadline => config.hasDeadline
  | .writerFailed => config.hasStdinWriter
  | .callerCancelled => true

def terminated : Child → Child
  | .running => .terminating
  | child => child

/-- A child that is blocked in a write exits only if it is signalled. -/
def canExit (state : State count) (child : Fin count) : Bool :=
  match state.children child with
  | .running => (state.writing child).isNone
  | .terminating => true
  | .exited _ => false

def next (config : Config count) (state : State count) : Event count → Option (State count)
  | .write child stream size =>
      match state.children child, state.writing child, config.pipe child stream with
      | .exited _, _, _ | _, some _, _ | _, _, none => none
      | _, none, some _ =>
          if 0 < size ∧ (state.pipes child stream).closed = false then
            some { state with
              writing := Function.update state.writing child (some (stream, size)) }
          else
            none
  | .push child amount =>
      match state.children child, state.writing child with
      | .exited _, _ | _, none => none
      | _, some (stream, left) =>
          if 0 < amount ∧ amount ≤ left ∧ amount ≤ state.room config child stream then
            let pipe := state.pipes child stream
            some { state.setPipe child stream
                { pipe with buffered := pipe.buffered + amount } with
              writing := Function.update state.writing child
                (if left = amount then none else some (stream, left - amount)) }
          else
            none
  | .close child stream =>
      if state.writing child = none then
        some (state.setPipe child stream { state.pipes child stream with closed := true })
      else
        none
  | .exit child failed =>
      if state.canExit child then
        some { state with
          children := Function.update state.children child (.exited failed)
          writing := Function.update state.writing child none }
      else
        none
  | .read child stream amount =>
      if 0 < amount ∧ amount ≤ (state.pipes child stream).buffered then
        (state.move config child stream fun use reader => reader.take use).map fun after =>
          after.setPipe child stream
            { after.pipes child stream with
              buffered := (state.pipes child stream).buffered - amount }
      else
        none
  | .handle child stream raised =>
      state.move config child stream fun use reader => reader.handle use raised
  | .eof child stream =>
      if (state.pipes child stream).closed ∧ (state.pipes child stream).buffered = 0 then
        state.move config child stream fun _ reader => reader.reachEof
      else
        none
  | .finish child stream => state.move config child stream fun _ reader => reader.finish
  | .stop child stream => state.move config child stream fun _ reader => reader.stop
  | .expire child stream => state.move config child stream fun _ reader => reader.expire
  | .terminate cause =>
      if state.notices config cause then
        some { state with children := fun child => terminated (state.children child) }
      else
        none

/-- Every pipe of a child that is awaited, and not being terminated, has a reader or has
come to EOF. -/
def Attended (config : Config count) (state : State count) : Prop :=
  ∀ child stream use, config.pipe child stream = some use →
    state.children child = .running → (state.pipes child stream).reader.Attends

/-- While its child is awaited no reader stops short: what its steps raise is tolerated,
its read is not cancelled, and a pump's drain does not run out of time. -/
def permitted (config : Config count) (state : State count) : Event count → Bool
  | .handle child stream raised =>
      state.children child ≠ .running ||
        match config.pipe child stream, (state.pipes child stream).reader.stage with
        | some use, .handling step _ =>
            tolerates use (state.pipes child stream).reader.echoDisabled step raised
        | _, _ => true
  | .stop child _ | .expire child _ => state.children child ≠ .running
  | _ => true

variable {config : Config count} {state after : State count}

theorem setPipe_pipes_self (child : Fin count) (stream : OutputStream) (pipe : Pipe) :
    (state.setPipe child stream pipe).pipes child stream = pipe := by
  simp [setPipe]

theorem setPipe_pipes_other {child other : Fin count} {stream name : OutputStream}
    (pipe : Pipe) (different : ¬ (other = child ∧ name = stream)) :
    (state.setPipe child stream pipe).pipes other name = state.pipes other name := by
  by_cases same : other = child
  · subst same
    have named : name ≠ stream := fun named => different ⟨rfl, named⟩
    simp [setPipe, Function.update_of_ne named]
  · simp [setPipe, Function.update_of_ne same]

/-- With one pipe changed, it is that pipe's reader that counts. -/
theorem attended_setPipe (attended : state.Attended config) {child : Fin count}
    {stream : OutputStream} {use : PipeUse} (opened : config.pipe child stream = some use)
    (pipe : Pipe) :
    (state.setPipe child stream pipe).Attended config ↔
      (state.children child = .running → pipe.reader.Attends) := by
  constructor
  · intro still running
    have attends := still child stream use opened running
    rwa [setPipe_pipes_self] at attends
  · intro attends other name used found running
    by_cases same : other = child ∧ name = stream
    · obtain ⟨rfl, rfl⟩ := same
      rw [setPipe_pipes_self]
      exact attends running
    · rw [setPipe_pipes_other pipe same]
      exact attended other name used found running

theorem attended_mono (attended : state.Attended config)
    (children : ∀ child, after.children child = .running → state.children child = .running)
    (readers : ∀ child stream,
      (after.pipes child stream).reader = (state.pipes child stream).reader) :
    after.Attended config := by
  intro child stream use opened running
  rw [readers]
  exact attended child stream use opened (children child running)

theorem setPipe_readers (child : Fin count) (stream : OutputStream) {pipe : Pipe}
    (same : pipe.reader = (state.pipes child stream).reader) (other : Fin count)
    (name : OutputStream) :
    ((state.setPipe child stream pipe).pipes other name).reader =
      (state.pipes other name).reader := by
  by_cases here : other = child ∧ name = stream
  · obtain ⟨rfl, rfl⟩ := here
    rw [setPipe_pipes_self]
    exact same
  · rw [setPipe_pipes_other pipe here]

theorem move_cases {child : Fin count} {stream : OutputStream}
    {step : PipeUse → Reader → Option Reader}
    (moved : state.move config child stream step = some after) :
    ∃ use reader, config.pipe child stream = some use ∧
      step use (state.pipes child stream).reader = some reader ∧
      after = state.setPipe child stream { state.pipes child stream with reader := reader } := by
  obtain ⟨use, opened, moved⟩ := Option.bind_eq_some_iff.mp moved
  obtain ⟨reader, stepped, same⟩ := Option.map_eq_some_iff.mp moved
  exact ⟨use, reader, opened, stepped, same.symm⟩

/-- A step after which the reader attends its pipe. -/
theorem move_attended (attended : state.Attended config) {child : Fin count}
    {stream : OutputStream} {step : PipeUse → Reader → Option Reader}
    (keeps : ∀ {use reader after}, step use reader = some after → after.Attends)
    (moved : state.move config child stream step = some after) : after.Attended config := by
  obtain ⟨use, reader, opened, stepped, rfl⟩ := move_cases moved
  exact (attended_setPipe attended opened _).mpr fun _ => keeps stepped

/-- A step that stops the reader short is allowed where its child is not awaited. -/
theorem move_abandoned (attended : state.Attended config) {child : Fin count}
    {stream : OutputStream} {step : PipeUse → Reader → Option Reader}
    (stops : ∀ {use reader after}, step use reader = some after → ¬ after.Attends)
    (moved : state.move config child stream step = some after) :
    decide (state.children child ≠ .running) = true ↔ after.Attended config := by
  obtain ⟨use, reader, opened, stepped, rfl⟩ := move_cases moved
  rw [attended_setPipe attended opened, decide_eq_true_eq]
  constructor
  · intro gone running
    exact absurd running gone
  · intro attends running
    exact stops stepped (attends running)

theorem handle_attended (attended : state.Attended config) {child : Fin count}
    {stream : OutputStream} {raised : Option Raised}
    (moved : state.move config child stream (fun use reader => reader.handle use raised) =
      some after) :
    state.permitted config (.handle child stream raised) = true ↔ after.Attended config := by
  obtain ⟨use, reader, opened, handled, rfl⟩ := move_cases moved
  rw [attended_setPipe attended opened]
  cases stage : (state.pipes child stream).reader.stage with
  | handling step rest =>
      have decides := Reader.handle_attends stage handled
      simp only [permitted, opened, stage, Bool.or_eq_true, decide_eq_true_eq, decides]
      rw [← Decidable.imp_iff_not_or]
  | reading | draining | finishing | ended _ => simp [Reader.handle, stage] at handled

theorem permitted_iff (attended : state.Attended config) {event : Event count}
    (step : state.next config event = some after) :
    state.permitted config event = true ↔ after.Attended config := by
  cases event with
  | handle child stream raised => exact handle_attended attended step
  | stop child stream =>
      exact move_abandoned attended (fun stopped => Reader.stop_abandons stopped) step
  | expire child stream =>
      exact move_abandoned attended (fun expired => Reader.expire_abandons expired) step
  | eof child stream =>
      obtain ⟨_, moved⟩ := Option.ite_none_right_eq_some.mp step
      apply iff_of_true rfl
      exact move_attended attended (fun reached => Reader.reachEof_attends reached) moved
  | finish child stream =>
      apply iff_of_true rfl
      exact move_attended attended (fun finished => Reader.finish_attends finished) step
  | read child stream amount =>
      obtain ⟨_, taken⟩ := Option.ite_none_right_eq_some.mp step
      obtain ⟨middle, moved, rfl⟩ := Option.map_eq_some_iff.mp taken
      apply iff_of_true rfl
      apply attended_mono (move_attended attended (fun took => Reader.take_attends took) moved)
      · exact fun _ running => running
      · exact setPipe_readers child stream rfl
  | write child stream size =>
      simp only [next] at step
      split at step
      · cases step
      · cases step
      · cases step
      · obtain ⟨_, step⟩ := Option.ite_none_right_eq_some.mp step
        cases step
        exact iff_of_true rfl attended
  | push child amount =>
      simp only [next] at step
      split at step
      · cases step
      · cases step
      · rename_i stream _ _ _
        obtain ⟨_, step⟩ := Option.ite_none_right_eq_some.mp step
        cases step
        apply iff_of_true rfl
        apply attended_mono attended
        · exact fun _ running => running
        · exact setPipe_readers child stream rfl
  | close child stream =>
      obtain ⟨_, step⟩ := Option.ite_none_right_eq_some.mp step
      cases step
      apply iff_of_true rfl
      apply attended_mono attended
      · exact fun _ running => running
      · exact setPipe_readers child stream rfl
  | exit child failed =>
      obtain ⟨_, step⟩ := Option.ite_none_right_eq_some.mp step
      cases step
      apply iff_of_true rfl
      apply attended_mono attended
      · intro other running
        by_cases same : other = child
        · subst same
          simp at running
        · simpa [Function.update_of_ne same] using running
      · exact fun _ _ => rfl
  | terminate cause =>
      obtain ⟨_, step⟩ := Option.ite_none_right_eq_some.mp step
      cases step
      apply iff_of_true rfl
      apply attended_mono attended
      · intro child running
        cases phase : state.children child <;> simp [terminated, phase] at running
      · exact fun _ _ => rfl

end State

/-- The children run while `run()`, `lines()` or the pipeline awaits their exit. -/
def exitWait {count : Nat} (config : Config count) : System (State count) (Event count) :=
  ⟨{}, State.next config⟩

theorem attended_initially {count : Nat} (config : Config count) :
    (exitWait config).initial.Attended config := by
  intro child stream use _ _
  exact Or.inl rfl

/-- No child that is awaited is left with an abandoned output pipe, at any point of a
run, exactly if no reader stops short while its child is awaited. -/
theorem awaited_child_is_attended {count : Nat} (config : Config count)
    {events : List (Event count)} {state : State count}
    (runs : (exitWait config).exec (exitWait config).initial events = some state) :
    (∀ front back middle, events = front ++ back →
      (exitWait config).exec (exitWait config).initial front = some middle →
        middle.Attended config) ↔
      ((exitWait config).guarded (State.permitted config)).exec
        (exitWait config).initial events = some state := by
  apply (exitWait config).exec_guarded_iff _ (attended_initially config) runs
  intro now event after attended step
  exact State.permitted_iff attended step

section Examples

/-- The child's stdout is captured and echoed, its stderr inherited. -/
def echoed : Config 1 where
  pipe := fun _ stream =>
    match stream with
    | .stdout => some (.consumed true true false false)
    | .stderr => none
  capacity := 4
  hasDeadline := false
  hasStdinWriter := false

/-- The echo is broken once the child has exited. -/
def lateFailure : List (Event 1) :=
  [.write 0 .stdout 3, .push 0 3, .exit 0 false, .read 0 .stdout 3, .handle 0 .stdout none,
    .handle 0 .stdout (some .brokenPipe)]

def lateFailureState : State 1 :=
  ((exitWait echoed).exec (exitWait echoed).initial lateFailure).getD (exitWait echoed).initial

theorem awaited_child_is_attended_late_failure :
    ((lateFailureState.pipes 0 .stdout).reader.stage = .ended false) ∧
      lateFailureState.Attended echoed :=
  ⟨rfl, (@awaited_child_is_attended 1 echoed lateFailure lateFailureState rfl).mpr rfl
    lateFailure [] _ (List.append_nil _).symm rfl⟩

/-- The echo sink raises at the first chunk of a child that has more to write. -/
def chatty : List (Event 1) :=
  [.write 0 .stdout 9, .push 0 4, .read 0 .stdout 4, .handle 0 .stdout none,
    .handle 0 .stdout (some .brokenPipe), .push 0 4]

def chattyState : State 1 :=
  ((exitWait echoed).exec (exitWait echoed).initial chatty).getD (exitWait echoed).initial

/-- The child is awaited and alive, blocked in a write to a full pipe that nobody reads;
unless the caller cancels the run, nothing more can happen. -/
theorem awaited_child_is_abandoned :
    (exitWait echoed).exec (exitWait echoed).initial chatty = some chattyState ∧
      ¬ chattyState.Attended echoed ∧
      chattyState.children 0 = .running ∧ chattyState.writing 0 = some (.stdout, 1) ∧
      ∀ event after, (exitWait echoed).next chattyState event = some after →
        event = .terminate .callerCancelled := by
  refine ⟨rfl, ?_, rfl, rfl, ?_⟩
  · intro attended
    exact Reader.not_attends _ (attended 0 .stdout _ rfl rfl)
  · intro event after step
    cases event with
    | write child stream size =>
        cases Subsingleton.elim child 0
        cases step
    | push child amount =>
        cases Subsingleton.elim child 0
        obtain ⟨⟨some, _, fits⟩, _⟩ := Option.ite_none_right_eq_some.mp step
        exact absurd (Nat.lt_of_lt_of_le some fits) (Nat.lt_irrefl 0)
    | close child stream | exit child failed =>
        cases Subsingleton.elim child 0
        cases step
    | read child stream amount =>
        cases Subsingleton.elim child 0
        obtain ⟨_, step⟩ := Option.ite_none_right_eq_some.mp step
        cases stream <;> cases step
    | handle child stream raised =>
        cases Subsingleton.elim child 0
        cases stream <;> cases step
    | eof child stream | finish child stream | stop child stream | expire child stream =>
        cases Subsingleton.elim child 0
        cases stream <;> cases step
    | terminate cause =>
        cases cause with
        | callerCancelled => rfl
        | stageFailed | deadline | writerFailed => cases step

end Examples

end Cuprum.ExitWait
