import Mathlib.Data.List.Nodup
import Mathlib.Data.List.Perm.Basic
import Cuprum.ReaderWait.Wait

namespace Cuprum.ReaderWait

open Transition

variable {Error Seconds : Type}

theorem readers_nodup (consumers : Consumer → Bool) : (readers consumers).Nodup := by
  apply List.Nodup.filter
  decide

theorem firstReaderFailure_eq_none {finished : List (Finished Error)} :
    firstReaderFailure finished = none ↔ ∀ task ∈ finished, task.failure = none :=
  List.findSome?_eq_none_iff

/-! Reader by reader, the tasks that are done are the completed ones in another order. -/

theorem reader_of_find {tasks : List (Finished Error)} {reader : Consumer}
    {task : Finished Error} (found : tasks.find? (·.reader = reader) = some task) :
    task.reader = reader := by
  have matching := List.find?_some found
  exact of_decide_eq_true matching

theorem mem_done {state : WaitState Error} {fs : List Consumer} {task : Finished Error}
    (distinct : (state.completed.map Finished.reader).Nodup) :
    task ∈ state.done fs ↔ task ∈ state.completed ∧ task.reader ∈ fs := by
  unfold WaitState.done
  rw [List.mem_filterMap]
  constructor
  · rintro ⟨reader, listed, found⟩
    cases reader_of_find found
    exact ⟨List.mem_of_find?_eq_some found, listed⟩
  · rintro ⟨completed, listed⟩
    refine ⟨task.reader, listed, ?_⟩
    cases found : state.completed.find? (·.reader = task.reader) with
    | none =>
        have differs := List.find?_eq_none.mp found task completed
        exact absurd (decide_eq_true rfl) differs
    | some other =>
        have same := reader_of_find found
        have listed := List.mem_of_find?_eq_some found
        rw [List.inj_on_of_nodup_map distinct listed completed same]

theorem done_nodup {state : WaitState Error} {fs : List Consumer} (distinct : fs.Nodup) :
    (state.done fs).Nodup := by
  apply List.Nodup.filterMap _ distinct
  intro first second task foundFirst foundSecond
  exact (reader_of_find foundFirst).symm.trans (reader_of_find foundSecond)

theorem done_perm {state : WaitState Error} {fs : List Consumer} (distinct : fs.Nodup)
    (nodup : (state.completed.map Finished.reader).Nodup)
    (covers : ∀ task ∈ state.completed, task.reader ∈ fs) :
    (state.done fs).Perm state.completed := by
  apply (List.perm_ext_iff_of_nodup (done_nodup distinct) (List.Nodup.of_map _ nodup)).mpr
  intro task
  rw [mem_done nodup]
  constructor
  · exact fun both => both.1
  · exact fun completed => ⟨completed, covers task completed⟩

/-! What the queue still holds. -/

def Handle.isOnCompletion : Handle Error → Bool
  | .onCompletion _ => true
  | .append _ | .releaseWaiter | .wakeup => false

/-- What the callbacks ahead of the wait's own step will have recorded. -/
def early : List (Handle Error) → List (Finished Error)
  | [] => []
  | .append task :: rest => task :: early rest
  | .onCompletion _ :: rest => early rest
  | .releaseWaiter :: rest => early rest
  | .wakeup :: _ => []

theorem early_append_of_mem {ready : List (Handle Error)} (woken : .wakeup ∈ ready)
    (more : List (Handle Error)) : early (ready ++ more) = early ready := by
  induction ready with
  | nil => cases woken
  | cons handle rest induction =>
      cases handle with
      | append task =>
          have later := (List.mem_cons.mp woken).resolve_left (by simp)
          exact congrArg (task :: ·) (induction later)
      | onCompletion task => exact induction ((List.mem_cons.mp woken).resolve_left (by simp))
      | releaseWaiter => exact induction ((List.mem_cons.mp woken).resolve_left (by simp))
      | wakeup => rfl

theorem early_append_of_not_mem {ready : List (Handle Error)} (parked : .wakeup ∉ ready)
    (more : List (Handle Error)) : early (ready ++ more) = early ready ++ early more := by
  induction ready with
  | nil => rfl
  | cons handle rest induction =>
      have later := induction fun woken => parked (List.mem_cons_of_mem _ woken)
      cases handle with
      | append task => exact congrArg (task :: ·) later
      | onCompletion task => exact later
      | releaseWaiter => exact later
      | wakeup => exact absurd List.mem_cons_self parked

theorem early_append_silent (ready : List (Handle Error)) {more : List (Handle Error)}
    (silent : early more = []) : early (ready ++ more) = early ready := by
  by_cases woken : .wakeup ∈ ready
  · exact early_append_of_mem woken more
  · rw [early_append_of_not_mem woken, silent, List.append_nil]

theorem early_map_append (tasks : List (Finished Error)) (more : List (Handle Error)) :
    early (tasks.map .append ++ more) = tasks ++ early more := by
  induction tasks with
  | nil => rfl
  | cons task tasks induction => exact congrArg (task :: ·) induction

theorem early_map_onCompletion (tasks : List (Finished Error)) :
    early (tasks.map .onCompletion) = [] := by
  induction tasks with
  | nil => rfl
  | cons task tasks induction => exact induction

/-! The steps of the system. -/

variable {consumers : Consumer → Bool} {remaining : Option Seconds}
variable {state after : WaitState Error}

inductive Stepped (consumers : Consumer → Bool) (remaining : Option Seconds)
    (state : WaitState Error) : WaitEvent Error → WaitState Error → Prop
  | complete {task : Finished Error} (open_ : ∀ ended, state.phase ≠ .finished ended)
      (running : task.reader ∈ state.running) :
      Stepped consumers remaining state (.complete task) (state.complete task)
  | begin {fs : List Consumer} (outside : state.phase = .outside)
      (order : fs.Perm (readers consumers)) :
      Stepped consumers remaining state (.begin fs)
        (state.begin remaining (readers consumers) fs)
  | expire (waiting : state.phase = .waiting) (armed : state.timer = .armed) :
      Stepped consumers remaining state .expire state.expire
  | interrupt (outside : state.phase = .outside) (bounded : remaining.isSome = true) :
      Stepped consumers remaining state .onTimeout
        { state with expired := true, phase := .finished .timedOut }
  | onTimeout (waiting : state.phase = .waiting) (bounded : remaining.isSome = true)
      (unexpired : state.expired = false) :
      Stepped consumers remaining state .onTimeout state.onTimeout
  | turn {handle : Handle Error} {rest : List (Handle Error)}
      (waiting : state.phase = .waiting) (ready : state.ready = handle :: rest) :
      Stepped consumers remaining state .turn (state.turn rest handle)

theorem stepped {event : WaitEvent Error}
    (step : (readerWait consumers remaining).next state event = some after) :
    Stepped consumers remaining state event after := by
  cases phase : state.phase with
  | outside =>
      cases event with
      | complete task =>
          simp only [readerWait, phase, Option.ite_none_right_eq_some] at step
          obtain ⟨running, same⟩ := step
          cases same
          exact .complete (by simp [phase]) running
      | begin fs =>
          simp only [readerWait, phase, Option.ite_none_right_eq_some] at step
          obtain ⟨order, same⟩ := step
          cases same
          exact .begin phase order
      | expire => simp [readerWait, phase] at step
      | onTimeout =>
          simp only [readerWait, phase, Option.ite_none_right_eq_some] at step
          obtain ⟨bounded, same⟩ := step
          cases same
          exact .interrupt phase bounded
      | turn => simp [readerWait, phase] at step
  | waiting =>
      cases event with
      | complete task =>
          simp only [readerWait, phase, Option.ite_none_right_eq_some] at step
          obtain ⟨running, same⟩ := step
          cases same
          exact .complete (by simp [phase]) running
      | begin fs => simp [readerWait, phase] at step
      | expire =>
          simp only [readerWait, phase, Option.ite_none_right_eq_some] at step
          obtain ⟨armed, same⟩ := step
          cases same
          exact .expire phase armed
      | onTimeout =>
          simp only [readerWait, phase, Option.ite_none_right_eq_some] at step
          obtain ⟨⟨bounded, unexpired⟩, same⟩ := step
          cases same
          exact .onTimeout phase bounded unexpired
      | turn =>
          cases ready : state.ready with
          | nil => simp [readerWait, phase, ready] at step
          | cons handle rest =>
              simp only [readerWait, phase, ready, Option.some.injEq] at step
              cases step
              exact .turn phase ready
  | finished ended => cases event <;> simp [readerWait, phase] at step

namespace WaitState

theorem setResult_waiterDone (state : WaitState Error) : state.setResult.waiterDone = true := by
  unfold setResult
  split
  · assumption
  · rfl

theorem setResult_eq (state : WaitState Error) :
    state.setResult = { state with
      waiterDone := true
      ready := state.ready ++ if state.waiterDone then [] else [.wakeup] } := by
  cases state with
  | mk phase running completed finished ready counter waiterDone timer expired =>
      cases waiterDone with
      | false => rfl
      | true => simp [setResult]

end WaitState

end Cuprum.ReaderWait
