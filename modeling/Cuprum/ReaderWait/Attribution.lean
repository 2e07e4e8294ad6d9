import Cuprum.ReaderWait.Waiting

namespace Cuprum.ReaderWait

open Transition

variable {Error Seconds : Type}
variable {consumers : Consumer → Bool} {remaining : Option Seconds}
variable {state after : WaitState Error}

/-- A callback of `asyncio.wait` records no reader. -/
structure Released (before after : WaitState Error) : Prop where
  phase : after.phase = before.phase
  running : after.running = before.running
  completed : after.completed = before.completed
  finished : after.finished = before.finished
  early : early after.ready = early before.ready
  timer : after.timer ≠ .absent → before.timer ≠ .absent
  expired : after.expired = before.expired

namespace Released

theorem setResult (state : WaitState Error) : Released state state.setResult := by
  rw [WaitState.setResult_eq]
  refine ⟨rfl, rfl, rfl, rfl, early_append_silent _ ?_, id, rfl⟩
  split <;> rfl

theorem cancelTimer (state : WaitState Error) (counter : Nat) :
    Released state { state with counter, timer := state.timer.cancel } := by
  refine ⟨rfl, rfl, rfl, rfl, rfl, ?_, rfl⟩
  cases timer : state.timer <;> simp [Timer.cancel]

theorem trans {first second third : WaitState Error} (earlier : Released first second)
    (later : Released second third) : Released first third where
  phase := later.phase.trans earlier.phase
  running := later.running.trans earlier.running
  completed := later.completed.trans earlier.completed
  finished := later.finished.trans earlier.finished
  early := later.early.trans earlier.early
  timer := fun set => earlier.timer (later.timer set)
  expired := later.expired.trans earlier.expired

theorem onCompletion (state : WaitState Error) (task : Finished Error) :
    Released state (state.onCompletion task) := by
  unfold WaitState.onCompletion
  dsimp only
  split
  · exact (cancelTimer state _).trans (setResult _)
  · exact ⟨rfl, rfl, rfl, rfl, rfl, id, rfl⟩

theorem releaseWaiter (state : WaitState Error) : Released state state.releaseWaiter := by
  unfold WaitState.releaseWaiter
  split
  · rename_i due
    have fired : Released state { state with timer := .fired } :=
      ⟨rfl, rfl, rfl, rfl, rfl, fun _ absent => by simp [absent] at due, rfl⟩
    exact fired.trans (setResult _)
  · exact ⟨rfl, rfl, rfl, rfl, rfl, id, rfl⟩

end Released

theorem WaitState.turn_phase {handle : Handle Error} {rest : List (Handle Error)}
    (other : handle ≠ .wakeup) : (state.turn rest handle).phase = state.phase := by
  cases handle with
  | append task => rfl
  | onCompletion task => exact (Released.onCompletion { state with ready := rest } task).phase
  | releaseWaiter => exact (Released.releaseWaiter { state with ready := rest }).phase
  | wakeup => exact absurd rfl other

/-- What every state of the wait keeps to. -/
structure Invariant (consumers : Consumer → Bool) (remaining : Option Seconds)
    (state : WaitState Error) : Prop where
  members : Members consumers state
  bounded : state.timer ≠ .absent → remaining.isSome = true
  outside : state.phase = .outside →
    state.finished = [] ∧ state.waiterDone = false ∧ state.expired = false
  enclosed : state.expired = true → remaining.isSome = true
  waiting : state.phase = .waiting → Waiting state

namespace Invariant

theorem initial : Invariant consumers remaining
    (readerWait consumers remaining : System (WaitState Error) (WaitEvent Error)).initial where
  members := by simp [Members, readerWait]
  bounded := fun armed => absurd rfl armed
  outside := fun _ => ⟨rfl, rfl, rfl⟩
  enclosed := nofun
  waiting := fun waiting => by cases waiting

theorem complete (holds : Invariant consumers remaining state) {task : Finished Error}
    (running : task.reader ∈ state.running) :
    Invariant consumers remaining (state.complete task) where
  members := holds.members.complete running
  bounded := by
    have bounded := holds.bounded
    cases phase : state.phase <;> simpa only [WaitState.complete, phase] using bounded
  outside := by
    have outside := holds.outside
    cases phase : state.phase <;> simp_all [WaitState.complete]
  enclosed := by
    have enclosed := holds.enclosed
    cases phase : state.phase <;> simpa only [WaitState.complete, phase] using enclosed
  waiting := by
    intro waiting
    have phase : state.phase = .waiting := by
      cases phase : state.phase <;> simp_all [WaitState.complete]
    exact (holds.waiting phase).complete phase running

theorem begin (holds : Invariant consumers remaining state) (outside : state.phase = .outside)
    {fs : List Consumer} (order : fs.Perm (readers consumers)) :
    Invariant consumers remaining (state.begin remaining (readers consumers) fs) := by
  by_cases none_ : readers consumers = []
  · unfold WaitState.begin
    rw [if_pos none_]
    exact ⟨holds.members, holds.bounded, by simp, holds.enclosed, by simp⟩
  · obtain ⟨fresh, parked, unexpired⟩ := holds.outside outside
    have waiting : Waiting (state.begin remaining (readers consumers) fs) :=
      Waiting.begin holds.members fresh parked unexpired order none_
    unfold WaitState.begin at waiting ⊢
    rw [if_neg none_] at waiting ⊢
    refine ⟨holds.members, ?_, by simp, holds.enclosed, fun _ => waiting⟩
    cases remaining <;> simp

theorem expire (holds : Invariant consumers remaining state)
    (waiting : state.phase = .waiting) (armed : state.timer = .armed) :
    Invariant consumers remaining state.expire where
  members := holds.members
  bounded := fun _ => holds.bounded (by simp [armed])
  outside := fun outside => by
    have phase : state.phase = .outside := outside
    simp [waiting] at phase
  enclosed := holds.enclosed
  waiting := fun _ => (holds.waiting waiting).expire armed

theorem onTimeout (holds : Invariant consumers remaining state)
    (waiting : state.phase = .waiting) (bounded : remaining.isSome = true) :
    Invariant consumers remaining state.onTimeout := by
  have released := Released.setResult { state with expired := true }
  refine ⟨?_, fun set => holds.bounded (released.timer set), ?_, fun _ => bounded,
    fun _ => (holds.waiting waiting).onTimeout⟩
  · unfold Members WaitState.onTimeout
    rw [released.running, released.completed]
    exact holds.members
  · intro outside
    have phase : state.phase = .outside := released.phase ▸ outside
    simp [waiting] at phase

theorem turn (holds : Invariant consumers remaining state)
    (waiting : state.phase = .waiting) {handle : Handle Error} {rest : List (Handle Error)}
    (ready : state.ready = handle :: rest) :
    Invariant consumers remaining (state.turn rest handle) := by
  have other : ∀ {middle}, Released { state with ready := rest } middle → Waiting middle →
      Invariant consumers remaining middle := by
    intro middle released waits
    refine ⟨?_, fun set => holds.bounded (released.timer set), ?_, ?_, fun _ => waits⟩
    · unfold Members
      rw [released.running, released.completed]
      exact holds.members
    · intro outside
      rw [released.phase] at outside
      simp [waiting] at outside
    · rw [released.expired]
      exact holds.enclosed
  cases handle with
  | append task =>
      have waits := (holds.waiting waiting).append ready
      refine ⟨holds.members, holds.bounded, ?_, holds.enclosed, fun _ => waits⟩
      intro outside
      have phase : state.phase = .outside := outside
      simp [waiting] at phase
  | onCompletion task =>
      exact other (.onCompletion _ task) ((holds.waiting waiting).onCompletion ready)
  | releaseWaiter =>
      exact other (.releaseWaiter _) ((holds.waiting waiting).releaseWaiter ready)
  | wakeup =>
      exact ⟨holds.members, holds.bounded, by simp [WaitState.turn, WaitState.resume],
        holds.enclosed, by simp [WaitState.turn, WaitState.resume]⟩

theorem next (holds : Invariant consumers remaining state) {event : WaitEvent Error}
    (step : (readerWait consumers remaining).next state event = some after) :
    Invariant consumers remaining after := by
  cases stepped step with
  | complete open_ running => exact holds.complete running
  | begin outside order => exact holds.begin outside order
  | expire waiting armed => exact holds.expire waiting armed
  | interrupt outside bounded =>
      exact ⟨holds.members, holds.bounded, nofun, fun _ => bounded, nofun⟩
  | onTimeout waiting bounded unexpired => exact holds.onTimeout waiting bounded
  | turn waiting ready => exact holds.turn waiting ready

end Invariant

/-! Whose failure the wait will find. -/

/-- The readers that are done before the wait begins are found in the order of the
streams, and one that ends between the budget's release of the wait and the wait's own
step is not found at all.  Where the scope cancels the wait no reader is found, so none
may have failed by then and one must outlast it. -/
def attributable [DecidableEq Error] (consumers : Consumer → Bool) (state : WaitState Error) :
    WaitEvent Error → Bool
  | .complete task =>
      (task.failure.isNone || !state.waiterDone ||
        (firstReaderFailure state.completed).isSome) &&
          (!state.expired || !(state.running.erase task.reader).isEmpty)
  | .begin _ =>
      firstReaderFailure (state.done (readers consumers)) = firstReaderFailure state.completed
  | .onTimeout => (firstReaderFailure state.completed).isNone && !state.running.isEmpty
  | .expire => true
  | .turn => true

def Attributed (state : WaitState Error) : Prop :=
  firstReaderFailure (state.finished ++ early state.ready) = firstReaderFailure state.completed

/-- What the wait is to answer. -/
structure Right (remaining : Option Seconds) (state : WaitState Error) (ended : Ended Error) :
    Prop where
  failure : ∀ error, ended = .returned (some error) ↔
    firstReaderFailure state.completed = some error
  success : state.running = [] → (∀ task ∈ state.completed, task.outcome = .succeeded) →
    ended = .returned none
  timeout : ended = .timedOut → firstReaderFailure state.completed = none ∧
    state.running ≠ [] ∧ (state.timer = .fired ∨ state.expired = true) ∧
      remaining.isSome = true

theorem firstReaderFailure_append (first second : List (Finished Error)) :
    firstReaderFailure (first ++ second) =
      (firstReaderFailure first).or (firstReaderFailure second) :=
  List.findSome?_append

namespace Attributed

theorem complete [DecidableEq Error] (holds : Attributed state) (waits : Waiting state)
    (phase : state.phase = .waiting) {task : Finished Error}
    (allowed : attributable consumers state (.complete task) = true) :
    Attributed (state.complete task) := by
  unfold WaitState.complete
  simp only [phase, Attributed]
  unfold Attributed at holds
  by_cases woken : Handle.wakeup ∈ state.ready
  · have done := waits.woken.mp woken
    rw [early_append_of_mem woken, holds, firstReaderFailure_append]
    simp only [attributable, done, Bool.not_true, Bool.or_false, Bool.and_eq_true,
      Bool.or_eq_true, Option.isNone_iff_eq_none] at allowed
    rcases allowed.1 with succeeds | earlier
    · simp [firstReaderFailure, succeeds]
    · obtain ⟨error, found⟩ := Option.isSome_iff_exists.mp earlier
      rw [found]
      rfl
  · rw [early_append_of_not_mem woken, ← List.append_assoc, firstReaderFailure_append, holds,
      firstReaderFailure_append]
    rfl

theorem begin [DecidableEq Error] (fresh : state.finished = [])
    {fs : List Consumer} (some : readers consumers ≠ [])
    (allowed : attributable consumers state (.begin fs) = true) :
    Attributed (state.begin remaining (readers consumers) fs) := by
  unfold WaitState.begin Attributed
  rw [if_neg some]
  change firstReaderFailure (state.finished ++ early _) = firstReaderFailure state.completed
  rw [fresh, List.nil_append, early_map_append, early_map_onCompletion, List.append_nil]
  exact of_decide_eq_true allowed

theorem released {middle : WaitState Error} (holds : Attributed state)
    (released : Released state middle) : Attributed middle := by
  unfold Attributed
  rw [released.finished, released.early, released.completed]
  exact holds

theorem turn (holds : Attributed state) {handle : Handle Error} {rest : List (Handle Error)}
    (ready : state.ready = handle :: rest) (other : handle ≠ .wakeup) :
    Attributed (state.turn rest handle) := by
  unfold Attributed at holds
  rw [ready] at holds
  cases handle with
  | append task =>
      unfold Attributed
      change firstReaderFailure ((state.finished ++ [task]) ++ early rest) = _
      rw [List.append_assoc]
      exact holds
  | onCompletion task =>
      have silent : Attributed { state with ready := rest } := holds
      exact silent.released (.onCompletion _ task)
  | releaseWaiter =>
      have silent : Attributed { state with ready := rest } := holds
      exact silent.released (.releaseWaiter _)
  | wakeup => exact absurd rfl other

/-- The step that ends the wait answers rightly. -/
theorem resume (holds : Attributed state) (waits : Waiting state)
    (bounded : state.timer ≠ .absent → remaining.isSome = true)
    (unexpired : state.expired = false)
    {rest : List (Handle Error)} (ready : state.ready = .wakeup :: rest) {ended : Ended Error}
    (finished : (state.turn rest .wakeup).phase = .finished ended) :
    Right remaining (state.turn rest .wakeup) ended := by
  have found : firstReaderFailure state.finished = firstReaderFailure state.completed := by
    unfold Attributed at holds
    rw [ready] at holds
    simpa [early] using holds
  have done := waits.woken.mp (by simp [ready])
  have answer := (Phase.finished.inj finished).symm
  dsimp only [WaitState.resume] at answer
  rw [if_neg (by simp [unexpired]), found] at answer
  cases failure : firstReaderFailure state.completed with
  | some error =>
      simp only [failure] at answer
      subst answer
      constructor
      case failure =>
        intro other
        change _ ↔ firstReaderFailure state.completed = some other
        simp [failure]
      case success =>
        intro _ succeeded
        have none_ : firstReaderFailure state.completed = none := by
          rw [firstReaderFailure_eq_none]
          intro task completed
          simp [Finished.failure, succeeded task completed]
        simp [failure] at none_
      case timeout => simp
  | none =>
      simp only [failure] at answer
      constructor
      case failure =>
        intro other
        change _ ↔ firstReaderFailure state.completed = some other
        rw [failure, answer]
        split_ifs <;> simp
      case success =>
        intro empty succeeded
        have running : state.running = [] := empty
        have uncancelled : ¬ state.finished.any Finished.cancelled = true := by
          rw [Bool.not_eq_true, List.any_eq_false]
          intro task listed
          have succeeded := succeeded task (waits.recorded task listed)
          simp [Finished.cancelled, succeeded]
        rw [answer, if_neg (not_not_intro running), if_neg uncancelled]
      case timeout =>
        intro timedOut
        have running : state.running ≠ [] := by
          intro empty
          rw [answer] at timedOut
          simp only [empty, ne_eq, not_true_eq_false, if_false] at timedOut
          split at timedOut <;> cases timedOut
        have fired : state.timer = .fired := by
          rcases waits.released done with fired | expired | failed | empty
          · exact fired
          · simp [unexpired] at expired
          · rw [failed_iff, failure] at failed
            cases failed
          · exact absurd empty running
        exact ⟨failure, running, .inl fired, bounded (by simp [fired])⟩

end Attributed

/-- Where the scope has cancelled the wait, no reader has failed and one still runs. -/
def Outlasted (state : WaitState Error) : Prop :=
  state.expired = true → firstReaderFailure state.completed = none ∧ state.running ≠ []

namespace Outlasted

theorem complete [DecidableEq Error] (holds : Outlasted state) (waits : Waiting state)
    (phase : state.phase = .waiting) {task : Finished Error}
    (allowed : attributable consumers state (.complete task) = true) :
    Outlasted (state.complete task) := by
  unfold Outlasted WaitState.complete
  simp only [phase]
  intro expired
  have done := waits.expired expired
  obtain ⟨none_, _⟩ := holds expired
  simp only [attributable, done, expired, none_, Option.isSome_none, Bool.not_true,
    Bool.or_false, Bool.false_or, Bool.and_eq_true, Option.isNone_iff_eq_none,
    Bool.not_eq_eq_eq_not, List.isEmpty_eq_false_iff] at allowed
  refine ⟨?_, allowed.2⟩
  rw [firstReaderFailure_append, none_]
  simp [firstReaderFailure, allowed.1]

theorem turn (holds : Outlasted state) {handle : Handle Error} {rest : List (Handle Error)}
    (other : handle ≠ .wakeup) : Outlasted (state.turn rest handle) := by
  have released : ∀ {middle}, Released { state with ready := rest } middle →
      Outlasted middle := by
    intro middle released
    unfold Outlasted
    rw [released.expired, released.completed, released.running]
    exact holds
  cases handle with
  | append task => exact holds
  | onCompletion task => exact released (.onCompletion _ task)
  | releaseWaiter => exact released (.releaseWaiter _)
  | wakeup => exact absurd rfl other

/-- A cancelled wait is left as the budget's own expiry. -/
theorem resume (holds : Outlasted state) (expired : state.expired = true)
    (bounded : remaining.isSome = true) {rest : List (Handle Error)} {ended : Ended Error}
    (finished : (state.turn rest .wakeup).phase = .finished ended) :
    Right remaining (state.turn rest .wakeup) ended := by
  obtain ⟨none_, running⟩ := holds expired
  have answer := (Phase.finished.inj finished).symm
  dsimp only [WaitState.resume] at answer
  rw [if_pos expired] at answer
  subst answer
  refine ⟨fun error => ?_, fun empty => absurd empty running, fun _ => ?_⟩
  · change _ ↔ firstReaderFailure state.completed = some error
    simp [none_]
  · exact ⟨none_, running, .inr expired, bounded⟩

end Outlasted

/-- A state of a run whose every step was attributable. -/
structure Reported (consumers : Consumer → Bool) (remaining : Option Seconds)
    (state : WaitState Error) : Prop where
  invariant : Invariant consumers remaining state
  attributed : state.phase = .waiting → Attributed state
  outlasted : state.phase = .waiting → Outlasted state
  right : ∀ ended, state.phase = .finished ended → Right remaining state ended

namespace Reported

theorem initial : Reported consumers remaining
    (readerWait consumers remaining : System (WaitState Error) (WaitEvent Error)).initial where
  invariant := .initial
  attributed := fun waiting => by cases waiting
  outlasted := fun waiting => by cases waiting
  right := fun ended finished => by cases finished

theorem next [DecidableEq Error] (holds : Reported consumers remaining state)
    {event : WaitEvent Error} (allowed : attributable consumers state event = true)
    (step : (readerWait consumers remaining).next state event = some after) :
    Reported consumers remaining after := by
  have kept := holds.invariant.next step
  cases stepped step with
  | @complete task open_ running =>
      cases phase : state.phase with
      | outside =>
          have still : (state.complete task).phase = .outside := by
            simp only [WaitState.complete, phase]
          refine ⟨kept, ?_, ?_, ?_⟩ <;> simp [still]
      | waiting =>
          have waits := holds.invariant.waiting phase
          have found := (holds.attributed phase).complete waits phase allowed
          have outlasted := (holds.outlasted phase).complete waits phase allowed
          refine ⟨kept, fun _ => found, fun _ => outlasted, ?_⟩
          simp [WaitState.complete, phase]
      | finished ended => exact absurd phase (open_ ended)
  | begin outside order =>
      by_cases none_ : readers consumers = []
      · have empty := holds.invariant.members.empty none_
        refine ⟨kept, ?_, ?_, ?_⟩
        · simp [WaitState.begin, none_]
        · simp [WaitState.begin, none_]
        · intro ended finished
          unfold WaitState.begin at finished ⊢
          rw [if_pos none_] at finished ⊢
          cases finished
          constructor <;> simp [empty, firstReaderFailure]
      · obtain ⟨fresh, _, unexpired⟩ := holds.invariant.outside outside
        have found : Attributed (state.begin remaining (readers consumers) _) :=
          Attributed.begin fresh none_ allowed
        refine ⟨kept, fun _ => found, fun _ => ?_, ?_⟩
        · simp [Outlasted, WaitState.begin, none_, unexpired]
        · simp [WaitState.begin, none_]
  | expire waiting armed =>
      have found : Attributed state.expire := by
        unfold Attributed WaitState.expire
        dsimp only
        rw [early_append_silent _ rfl]
        exact holds.attributed waiting
      refine ⟨kept, fun _ => found, fun _ => holds.outlasted waiting, ?_⟩
      simp [WaitState.expire, waiting]
  | interrupt outside bounded =>
      simp only [attributable, Bool.and_eq_true, Option.isNone_iff_eq_none,
        Bool.not_eq_eq_eq_not, Bool.not_true, List.isEmpty_eq_false_iff] at allowed
      refine ⟨kept, ?_, ?_, ?_⟩
      · intro waiting
        cases waiting
      · intro waiting
        cases waiting
      · intro ended finished
        cases finished
        refine ⟨fun error => ?_, fun empty => absurd empty allowed.2, fun _ => ?_⟩
        · simp [allowed.1]
        · exact ⟨allowed.1, allowed.2, .inr rfl, bounded⟩
  | onTimeout waiting bounded unexpired =>
      simp only [attributable, Bool.and_eq_true, Option.isNone_iff_eq_none,
        Bool.not_eq_eq_eq_not, Bool.not_true, List.isEmpty_eq_false_iff] at allowed
      have released := Released.setResult { state with expired := true }
      have found : Attributed { state with expired := true } := holds.attributed waiting
      refine ⟨kept, fun _ => found.released released, fun _ _ => ?_, ?_⟩
      · unfold WaitState.onTimeout
        rw [released.completed, released.running]
        exact allowed
      · intro ended finished
        have phase : state.phase = .finished ended := released.phase ▸ finished
        simp [waiting] at phase
  | @turn handle rest waiting ready =>
      have found := holds.attributed waiting
      by_cases woken : handle = .wakeup
      · subst woken
        refine ⟨kept, ?_, ?_, fun ended finished => ?_⟩
        · simp [WaitState.turn, WaitState.resume]
        · simp [WaitState.turn, WaitState.resume]
        · cases expired : state.expired with
          | true =>
              have bounded := holds.invariant.enclosed expired
              exact (holds.outlasted waiting).resume expired bounded finished
          | false =>
              have waits := holds.invariant.waiting waiting
              exact found.resume waits holds.invariant.bounded expired ready finished
      · refine ⟨kept, fun _ => found.turn ready woken, fun _ => ?_, ?_⟩
        · exact (holds.outlasted waiting).turn woken
        · simp [WaitState.turn_phase woken, waiting]

end Reported

end Cuprum.ReaderWait
