import Mathlib.Data.List.Count
import Cuprum.ReaderWait.Recording

namespace Cuprum.ReaderWait

open Transition

variable {Error Seconds : Type}
variable {consumers : Consumer → Bool} {remaining : Option Seconds}
variable {state after : WaitState Error}

def WaitState.Failed (state : WaitState Error) : Prop :=
  ∃ task ∈ state.completed, task.failure.isSome = true

theorem failed_iff : state.Failed ↔ (firstReaderFailure state.completed).isSome = true := by
  unfold WaitState.Failed firstReaderFailure
  rw [List.findSome?_isSome_iff]

/-- The members of the line stream are either still running or completed, each once. -/
def Members (consumers : Consumer → Bool) (state : WaitState Error) : Prop :=
  (state.running ++ state.completed.map Finished.reader).Perm (readers consumers)

namespace Members

theorem nodup (members : Members consumers state) :
    (state.completed.map Finished.reader).Nodup := by
  have distinct := members.nodup_iff.mpr (readers_nodup consumers)
  exact (List.nodup_append.mp distinct).2.1

theorem covers (members : Members consumers state) :
    ∀ task ∈ state.completed, task.reader ∈ readers consumers := by
  intro task completed
  apply members.subset
  exact List.mem_append_right _ (List.mem_map_of_mem completed)

theorem length (members : Members consumers state) :
    (readers consumers).length = state.running.length + state.completed.length := by
  rw [← members.length_eq, List.length_append, List.length_map]

theorem empty (members : Members consumers state) (none_ : readers consumers = []) :
    state.completed = [] := by
  have length := members.length
  rw [none_, List.length_nil] at length
  apply List.eq_nil_of_length_eq_zero
  omega

theorem complete (members : Members consumers state) {task : Finished Error}
    (running : task.reader ∈ state.running) : Members consumers (state.complete task) := by
  have moved : (state.running.erase task.reader ++
      (state.completed ++ [task]).map Finished.reader).Perm (readers consumers) := by
    refine List.Perm.trans ?_ members
    rw [List.map_append, ← List.append_assoc]
    refine (List.perm_append_singleton task.reader _).trans ?_
    exact (List.perm_cons_erase running).symm.append_right (state.completed.map Finished.reader)
  cases phase : state.phase <;> simpa only [Members, WaitState.complete, phase] using moved

end Members

/-- While the wait is parked or has its own step in the queue. -/
structure Waiting (state : WaitState Error) : Prop where
  counted : state.counter = state.running.length + state.ready.countP Handle.isOnCompletion
  recorded : ∀ task ∈ state.finished, task ∈ state.completed
  appended : ∀ task, .append task ∈ state.ready → task ∈ state.completed
  known : ∀ task, .onCompletion task ∈ state.ready → task ∈ state.completed
  woken : .wakeup ∈ state.ready ↔ state.waiterDone = true
  failing : ∀ task ∈ state.completed, task.failure.isSome = true →
    .onCompletion task ∈ state.ready ∨ state.waiterDone = true
  spent : state.counter = 0 → state.waiterDone = true
  due : state.timer = .due → .releaseWaiter ∈ state.ready
  fired : state.timer = .fired → state.waiterDone = true
  released : state.waiterDone = true →
    state.timer = .fired ∨ state.expired = true ∨ state.Failed ∨ state.running = []
  expired : state.expired = true → state.waiterDone = true

namespace Waiting

theorem begin (members : Members consumers state) (outside : state.finished = [])
    (parked : state.waiterDone = false) (unexpired : state.expired = false) {fs : List Consumer}
    (order : fs.Perm (readers consumers)) (some : readers consumers ≠ []) :
    Waiting (state.begin remaining (readers consumers) fs) := by
  have callbacks := done_perm (order.nodup_iff.mpr (readers_nodup consumers)) members.nodup
    fun task completed => order.mem_iff.mpr (members.covers task completed)
  have appends := done_perm (readers_nodup consumers) members.nodup members.covers
  have none_ : ((state.done (readers consumers)).map
      (Handle.append : Finished Error → Handle Error)).countP Handle.isOnCompletion = 0 := by
    rw [List.countP_eq_zero]
    simp [Handle.isOnCompletion]
  have all : ((state.done fs).map
      (Handle.onCompletion : Finished Error → Handle Error)).countP Handle.isOnCompletion =
        state.completed.length := by
    rw [← callbacks.length_eq, ← List.length_map Handle.onCompletion, List.countP_eq_length]
    simp [Handle.isOnCompletion]
  unfold WaitState.begin
  rw [if_neg some]
  constructor
  case counted =>
    change (readers consumers).length = _
    rw [List.countP_append, none_, all, Nat.zero_add]
    exact members.length
  case recorded => simp [outside]
  case appended =>
    intro task queued
    have listed : task ∈ state.done (readers consumers) := by simpa using queued
    exact appends.mem_iff.mp listed
  case known =>
    intro task queued
    have listed : task ∈ state.done fs := by simpa using queued
    exact callbacks.mem_iff.mp listed
  case woken => simp [parked]
  case failing =>
    intro task completed _
    left
    apply List.mem_append_right
    exact List.mem_map_of_mem (callbacks.mem_iff.mpr completed)
  case spent =>
    intro empty
    exact absurd (List.eq_nil_of_length_eq_zero empty) some
  case due => cases remaining <;> simp
  case fired => cases remaining <;> simp
  case released => simp [parked]
  case expired => simp [unexpired]

theorem complete (holds : Waiting state) (phase : state.phase = .waiting)
    {task : Finished Error} (running : task.reader ∈ state.running) :
    Waiting (state.complete task) := by
  unfold WaitState.complete
  simp only [phase]
  constructor
  case counted =>
    have erased := List.length_erase_of_mem running
    have pos := List.length_pos_of_mem running
    simp only [List.countP_append, List.countP_cons, Handle.isOnCompletion, List.countP_nil]
    rw [holds.counted, erased]
    simp only [Bool.false_eq_true, if_false, if_true]
    omega
  case recorded => exact fun task listed => List.mem_append_left _ (holds.recorded task listed)
  case appended =>
    intro other queued
    rcases List.mem_append.mp queued with old | new
    · exact List.mem_append_left _ (holds.appended other old)
    · simp only [List.mem_cons, Handle.append.injEq, List.not_mem_nil, reduceCtorEq, or_false]
        at new
      simp [new]
  case known =>
    intro other queued
    rcases List.mem_append.mp queued with old | new
    · exact List.mem_append_left _ (holds.known other old)
    · simp only [List.mem_cons, Handle.onCompletion.injEq, List.not_mem_nil, reduceCtorEq,
        or_false, false_or] at new
      simp [new]
  case woken => simp [holds.woken]
  case failing =>
    intro other completed failure
    rcases List.mem_append.mp completed with old | new
    · rcases holds.failing other old failure with queued | done
      · exact .inl (List.mem_append_left _ queued)
      · exact .inr done
    · rw [List.mem_singleton.mp new]
      simp
  case spent => exact holds.spent
  case due => exact fun due => List.mem_append_left _ (holds.due due)
  case fired => exact holds.fired
  case released =>
    intro done
    rcases holds.released done with fired | expired | ⟨other, completed, failure⟩ | none_
    · exact .inl fired
    · exact .inr (.inl expired)
    · exact .inr (.inr (.inl ⟨other, List.mem_append_left _ completed, failure⟩))
    · rw [none_] at running
      cases running
  case expired => exact holds.expired

theorem expire (holds : Waiting state) (armed : state.timer = .armed) :
    Waiting state.expire := by
  unfold WaitState.expire
  refine { holds with
    counted := ?counted, appended := ?appended, known := ?known, woken := ?woken,
    failing := ?failing, due := ?due, fired := ?fired, released := ?released }
  case counted => simp [holds.counted, Handle.isOnCompletion]
  case appended => exact fun task queued => holds.appended task (by simpa using queued)
  case known => exact fun task queued => holds.known task (by simpa using queued)
  case woken => simp [holds.woken]
  case failing =>
    intro task completed failure
    exact (holds.failing task completed failure).imp_left (List.mem_append_left _)
  case due => simp
  case fired => simp
  case released =>
    intro done
    rcases holds.released done with fired | rest
    · rw [armed] at fired
      cases fired
    · exact .inr rest

theorem append (holds : Waiting state) {task : Finished Error} {rest : List (Handle Error)}
    (ready : state.ready = .append task :: rest) :
    Waiting (state.turn rest (.append task)) := by
  have completed := holds.appended task (by simp [ready])
  refine { holds with
    counted := ?counted, recorded := ?recorded, appended := ?appended, known := ?known,
    woken := ?woken, failing := ?failing, due := ?due }
  case counted =>
    have counted := holds.counted
    simpa [ready, WaitState.turn, Handle.isOnCompletion] using counted
  case recorded =>
    intro other listed
    rcases List.mem_append.mp listed with old | new
    · exact holds.recorded other old
    · rw [List.mem_singleton.mp new]
      exact completed
  case appended =>
    exact fun other queued => holds.appended other (ready ▸ List.mem_cons_of_mem _ queued)
  case known =>
    exact fun other queued => holds.known other (ready ▸ List.mem_cons_of_mem _ queued)
  case woken =>
    have woken := holds.woken
    simpa [ready, WaitState.turn] using woken
  case failing =>
    have failing := holds.failing
    simpa [ready, WaitState.turn] using failing
  case due =>
    have due := holds.due
    simpa [ready, WaitState.turn] using due

/-- What a callback does that lets the wait go on. -/
theorem wake {rest : List (Handle Error)} {timer : Timer} {counter : Nat}
    (holds : Waiting state) (queued : ∀ handle ∈ rest, handle ∈ state.ready)
    (parked : .wakeup ∈ rest ↔ state.waiterDone = true)
    (counted : counter = state.running.length + rest.countP Handle.isOnCompletion)
    (due : timer = .due → .releaseWaiter ∈ rest) (expired : Bool)
    (released : timer = .fired ∨ expired = true ∨ state.Failed ∨ state.running = []) :
    Waiting ({ state with ready := rest, counter, timer, expired } :
      WaitState Error).setResult := by
  rw [WaitState.setResult_eq]
  have other : ∀ handle ∈ rest ++ (if state.waiterDone = true then [] else [.wakeup]),
      handle = .wakeup ∨ handle ∈ state.ready := by
    intro handle listed
    rcases List.mem_append.mp listed with old | new
    · exact .inr (queued handle old)
    · split at new
      · cases new
      · exact .inl (List.mem_singleton.mp new)
  constructor
  case counted =>
    rw [counted, List.countP_append]
    change _ = state.running.length + _
    split <;> simp [Handle.isOnCompletion]
  case recorded => exact holds.recorded
  case appended =>
    exact fun task listed => holds.appended task ((other _ listed).resolve_left (by simp))
  case known =>
    exact fun task listed => holds.known task ((other _ listed).resolve_left (by simp))
  case woken =>
    refine iff_of_true (List.mem_append.mpr ?_) rfl
    by_cases done : state.waiterDone = true
    · exact .inl (parked.mpr done)
    · exact .inr (by simp [done])
  case failing => exact fun _ _ _ => .inr rfl
  case spent => exact fun _ => rfl
  case due => exact fun still => List.mem_append_left _ (due still)
  case fired => exact fun _ => rfl
  case released => exact fun _ => released
  case expired => exact fun _ => rfl

theorem onTimeout (holds : Waiting state) : Waiting state.onTimeout := by
  have woken := holds.wake (fun _ queued => queued) holds.woken holds.counted holds.due true
    (.inr (.inl rfl))
  exact woken

theorem onCompletion (holds : Waiting state) {task : Finished Error}
    {rest : List (Handle Error)} (ready : state.ready = .onCompletion task :: rest) :
    Waiting (state.turn rest (.onCompletion task)) := by
  have queued : ∀ handle ∈ rest, handle ∈ state.ready :=
    fun handle listed => ready ▸ List.mem_cons_of_mem _ listed
  have parked : .wakeup ∈ rest ↔ state.waiterDone = true := by
    have woken := holds.woken
    simpa [ready] using woken
  have counted : state.counter - 1 =
      state.running.length + rest.countP Handle.isOnCompletion := by
    have counted := holds.counted
    simp only [ready, List.countP_cons, Handle.isOnCompletion, if_true] at counted
    omega
  change Waiting (WaitState.onCompletion { state with ready := rest } task)
  unfold WaitState.onCompletion
  dsimp only
  split
  · rename_i ends
    have disarmed : state.timer.cancel ≠ .due := by cases state.timer <;> simp [Timer.cancel]
    have due : state.timer.cancel = .due → .releaseWaiter ∈ rest := fun still =>
      absurd still disarmed
    have ended : state.Failed ∨ state.running = [] := by
      rcases ends with empty | failure
      · right
        apply List.eq_nil_of_length_eq_zero
        omega
      · exact .inl ⟨task, holds.known task (by simp [ready]), failure⟩
    have woken := holds.wake queued parked counted due state.expired (.inr (.inr ended))
    exact woken
  · rename_i goesOn
    rw [not_or] at goesOn
    refine { holds with
      counted := counted
      appended := fun task listed => holds.appended task (queued _ listed)
      known := fun task listed => holds.known task (queued _ listed)
      woken := parked
      failing := ?failing, spent := ?spent, due := ?dueStill }
    case failing =>
      intro other completed failure
      rcases holds.failing other completed failure with listed | done
      · rw [ready] at listed
        rcases List.mem_cons.mp listed with same | later
        · cases same
          exact absurd failure goesOn.2
        · exact .inl later
      · exact .inr done
    case spent => exact fun empty => absurd (Nat.le_of_eq empty) goesOn.1
    case dueStill =>
      have due := holds.due
      simpa [ready] using due

theorem releaseWaiter (holds : Waiting state) {rest : List (Handle Error)}
    (ready : state.ready = .releaseWaiter :: rest) :
    Waiting (state.turn rest .releaseWaiter) := by
  have queued : ∀ handle ∈ rest, handle ∈ state.ready :=
    fun handle listed => ready ▸ List.mem_cons_of_mem _ listed
  have parked : .wakeup ∈ rest ↔ state.waiterDone = true := by
    have woken := holds.woken
    simpa [ready] using woken
  have counted : state.counter =
      state.running.length + rest.countP Handle.isOnCompletion := by
    have counted := holds.counted
    simpa [ready, Handle.isOnCompletion] using counted
  change Waiting (WaitState.releaseWaiter { state with ready := rest })
  unfold WaitState.releaseWaiter
  split
  · have due : Timer.fired = .due → Handle.releaseWaiter ∈ rest := nofun
    have woken := holds.wake queued parked counted due state.expired (.inl rfl)
    exact woken
  · rename_i notDue
    refine { holds with
      counted := counted
      appended := fun task listed => holds.appended task (queued _ listed)
      known := fun task listed => holds.known task (queued _ listed)
      woken := parked
      failing := ?failing, due := fun due => absurd due notDue }
    have failing := holds.failing
    simpa [ready] using failing

end Waiting

end Cuprum.ReaderWait
