import Mathlib.Data.List.Infix
import Cuprum.Handle.Steps

namespace Cuprum.Handle

variable {δ ε ρ η : Type} {run : HandleRun δ ε η} {settlement : Nat} {result : ρ}
  {shared before after : Shared δ ε ρ η}

/-- A run that produced `result` is finalized once: as the timeout of the first
deadline recorded before its settlement looked, or as the child's own ending
with its after hooks run. -/
def Concluded (run : HandleRun δ ε η) (history : History δ ε ρ η) (result : ρ) : Prop :=
  ∃ seen, history.looked = some seen ∧ seen <+: history.recorded ∧
    match seen with
    | [] =>
        history.finalizations = [.success result] ∧
          history.hookCalls = run.afterHooks.map fun hook => (hook, result)
    | (_, deadline) :: _ =>
        history.finalizations =
            [.failure (some result) (.timeoutExpired deadline result)] ∧
          history.hookCalls = []

/-- What the history says of a run whose settlement stands at `task`. -/
def Accounts (run : HandleRun δ ε η) (history : History δ ε ρ η) :
    SettlementTask δ ε ρ → Prop
  | .unstarted | .driving =>
      history.looked = none ∧ history.hookCalls = [] ∧ history.finalizations = []
  | .finalizing _ (.ok result) | .finished (.ok result) => Concluded run history result
  | .finalizing _ (.error _) | .finished (.error _) => history.finalizations.length = 1

structure Shared.Sound (run : HandleRun δ ε η) (shared : Shared δ ε ρ η) : Prop where
  once : shared.started ≤ 1
  unstarted (settlement : Nat) :
    shared.settlements settlement = .unstarted ↔ shared.started ≤ settlement
  task (settling : Nat) (driven : shared.task = some settling) :
    settling < shared.started
  held (unsettled : shared.result = none) (driven : 0 < shared.started) :
    shared.task ≠ none
  result (settled : ρ) :
    shared.result = some settled ↔ shared.settlements 0 = .finished (.ok settled)
  first : shared.deadline = shared.history.recorded.head?.map Prod.snd
  accounts : Accounts run shared.history (shared.settlements 0)
  uncancelled : shared.history.cancelled = []

/-- What no step takes back: a started settlement, a finished one's ending, and
the result. -/
structure Shared.Extends (before after : Shared δ ε ρ η) : Prop where
  started : before.started ≤ after.started
  result (settled : ρ) (recorded : before.result = some settled) :
    after.result = some settled
  finished (settlement : Nat) (ending : Except (Raised ε) ρ)
    (ended : before.settlements settlement = .finished ending) :
    after.settlements settlement = .finished ending

theorem Shared.Extends.refl (shared : Shared δ ε ρ η) : shared.Extends shared :=
  ⟨Nat.le_refl _, fun _ recorded => recorded, fun _ _ finished => finished⟩

namespace Accounts

/-- A deadline recorded now is one the settlement did not see, if it has
looked. -/
theorem recordDeadline {task : SettlementTask δ ε ρ} {history : History δ ε ρ η}
    (accounts : Accounts run history task) (recording : Nat × δ) :
    Accounts run { history with recorded := history.recorded ++ [recording] } task := by
  have concluded (result : ρ) (concluded : Concluded run history result) :
      Concluded run { history with recorded := history.recorded ++ [recording] }
        result := by
    obtain ⟨seen, looked, earlier, conclusion⟩ := concluded
    exact ⟨seen, looked, earlier.trans (List.prefix_append _ _), conclusion⟩
  match task, accounts with
  | .unstarted, accounts | .driving, accounts => exact accounts
  | .finalizing _ (.ok result), accounts | .finished (.ok result), accounts =>
      exact concluded result accounts
  | .finalizing _ (.error _), accounts | .finished (.error _), accounts => exact accounts

/-- However the run ends, it is finalized once. -/
theorem finalized_once {how : Finalization δ ε ρ} {ending : Except (Raised ε) ρ}
    {history : History δ ε ρ η} (accounts : Accounts run history (.finalizing how ending)) :
    history.finalizations.length = 1 := by
  cases ending with
  | error error => exact accounts
  | ok result =>
      obtain ⟨seen, -, -, conclusion⟩ := accounts
      cases seen with
      | nil => simp [conclusion.1]
      | cons recording recordings => simp [conclusion.1]

end Accounts

namespace Shared.Sound

theorem initial : (@State.initial δ ε ρ η).shared.Sound run where
  once := Nat.zero_le 1
  unstarted settlement := by simp [State.initial]
  task settling driven := by cases driven
  held _ driven := absurd driven (Nat.lt_irrefl 0)
  result settled := by simp [State.initial]
  first := rfl
  accounts := ⟨rfl, rfl, rfl⟩
  uncancelled := rfl

theorem settlement_eq_zero (sound : shared.Sound run)
    (created : shared.settlements settlement ≠ .unstarted) : settlement = 0 := by
  have late := mt (sound.unstarted settlement).mpr created
  have once := sound.once
  omega

theorem started_of_result (sound : shared.Sound run)
    (recorded : shared.result = some result) : 0 < shared.started := by
  have created : shared.settlements 0 ≠ .unstarted := by
    rw [(sound.result result).mp recorded]
    exact fun wrong => nomatch wrong
  exact Nat.lt_of_not_le (mt (sound.unstarted 0).mpr created)

theorem result_of_finished (sound : shared.Sound run)
    (finished : shared.settlements settlement = .finished (.ok result)) :
    shared.result = some result := by
  have created : shared.settlements settlement ≠ .unstarted := by
    rw [finished]
    exact fun wrong => nomatch wrong
  rw [sound.settlement_eq_zero created] at finished
  exact (sound.result result).mpr finished

/-- Without a result and without a task, nobody has started the settlement. -/
theorem idle (sound : shared.Sound run) (unsettled : shared.result = none)
    (free : shared.task = none) : shared.started = 0 :=
  Nat.eq_zero_of_not_pos fun driven => sound.held unsettled driven free

theorem record (sound : shared.Sound run) (recorded : shared.result = some result) :
    (shared.record result).Sound run where
  once := sound.once
  unstarted := sound.unstarted
  task settling driven := by cases driven
  held unsettled := by cases unsettled
  result settled := by
    have agrees := sound.result settled
    rw [recorded] at agrees
    exact agrees
  first := sound.first
  accounts := sound.accounts
  uncancelled := sound.uncancelled

theorem withChild (sound : shared.Sound run) (child : Child) :
    { shared with child }.Sound run :=
  ⟨sound.once, sound.unstarted, sound.task, sound.held, sound.result, sound.first,
    sound.accounts, sound.uncancelled⟩

theorem recordDeadline (sound : shared.Sound run) (caller : Nat) (deadline : δ) :
    (shared.recordDeadline caller deadline).Sound run where
  once := sound.once
  unstarted := sound.unstarted
  task := sound.task
  held := sound.held
  result := sound.result
  first := by
    have first := sound.first
    cases recorded : shared.history.recorded with
    | nil => simp [Shared.recordDeadline, first, recorded]
    | cons recording recordings => simp [Shared.recordDeadline, first, recorded]
  accounts := sound.accounts.recordDeadline (caller, deadline)
  uncancelled := sound.uncancelled

theorem ensureTask (sound : shared.Sound run) (unsettled : shared.result = none) :
    shared.ensureTask.2.Sound run ∧
      shared.ensureTask.1 < shared.ensureTask.2.started := by
  cases driven : shared.task with
  | some settling =>
      simp only [Shared.ensureTask, driven]
      exact ⟨sound, sound.task settling driven⟩
  | none =>
      have idle := sound.idle unsettled driven
      have accounts := sound.accounts
      rw [(sound.unstarted 0).mpr (by omega)] at accounts
      simp only [Shared.ensureTask, driven]
      refine ⟨?_, Nat.lt_succ_self _⟩
      exact
        { once := by simp [idle]
          unstarted := by
            intro settlement
            rcases Nat.eq_zero_or_pos settlement with rfl | later
            · simp [idle]
            · have created := sound.unstarted settlement
              simp only [idle, Function.update_of_ne (Nat.ne_of_gt later)] at created ⊢
              rw [created]
              omega
          task := by
            intro settling driven
            cases driven
            exact Nat.lt_succ_self _
          held := fun _ _ => Option.some_ne_none _
          result := by
            intro settled
            simp [unsettled, idle]
          first := sound.first
          accounts := by
            simp only [idle, Function.update_self]
            exact accounts
          uncancelled := sound.uncancelled }

/-- The settlement task takes a step of its own. -/
theorem move (sound : before.Sound run) {task : SettlementTask δ ε ρ}
    (created : before.settlements settlement ≠ .unstarted)
    (unsettled : before.result = none) (kept : task ≠ .unstarted)
    (settlements : after.settlements =
      Function.update before.settlements settlement task)
    (started : after.started = before.started) (driven : after.task = before.task)
    (deadline : after.deadline = before.deadline)
    (recorded : after.history.recorded = before.history.recorded)
    (cancelled : after.history.cancelled = before.history.cancelled)
    (result : ∀ settled, after.result = some settled ↔ task = .finished (.ok settled))
    (accounts : Accounts run after.history task) : after.Sound run := by
  obtain rfl := sound.settlement_eq_zero created
  exact
    { once := started ▸ sound.once
      unstarted := by
        intro settlement
        rw [settlements, started]
        rcases Nat.eq_zero_or_pos settlement with rfl | later
        · simp only [Function.update_self, kept, false_iff]
          exact mt (sound.unstarted 0).mpr created
        · rw [Function.update_of_ne (Nat.ne_of_gt later)]
          exact sound.unstarted settlement
      task := by
        rw [started, driven]
        exact sound.task
      held := by
        rw [started, driven]
        exact fun _ => sound.held unsettled
      result := by
        intro settled
        rw [settlements, Function.update_self]
        exact result settled
      first := by
        rw [deadline, recorded]
        exact sound.first
      accounts := by
        rw [settlements, Function.update_self]
        exact accounts
      uncancelled := cancelled.trans sound.uncancelled }

end Shared.Sound

namespace Shared.Extends

theorem ensureTask (sound : shared.Sound run) : shared.Extends shared.ensureTask.2 := by
  cases driven : shared.task with
  | some settling =>
      simp only [Shared.ensureTask, driven]
      exact .refl shared
  | none =>
      simp only [Shared.ensureTask, driven]
      refine ⟨Nat.le_succ _, fun _ recorded => recorded, ?_⟩
      intro settlement ending ended
      have fresh : settlement ≠ shared.started := by
        rintro rfl
        rw [(sound.unstarted _).mpr (Nat.le_refl _)] at ended
        cases ended
      exact (Function.update_of_ne fresh _ _).trans ended

theorem withChild (shared : Shared δ ε ρ η) (child : Child) :
    shared.Extends { shared with child } :=
  ⟨Nat.le_refl _, fun _ recorded => recorded, fun _ _ ended => ended⟩

theorem record (recorded : shared.result = some result) :
    shared.Extends (shared.record result) :=
  ⟨Nat.le_refl _, fun _ earlier => recorded.symm.trans earlier, fun _ _ ended => ended⟩

end Shared.Extends

theorem runHooks_completed {answer : η → Option (Raised ε)} {hooks : List η}
    (completed : (runHooks answer result hooks).2 = none) :
    (runHooks answer result hooks).1 = hooks.map fun hook => (hook, result) := by
  induction hooks with
  | nil => rfl
  | cons hook hooks induction =>
      cases answered : answer hook with
      | some error => simp [runHooks, answered] at completed
      | none =>
          simp only [runHooks, answered] at completed ⊢
          rw [List.map_cons, induction completed]

namespace Shared

section Conclude

variable {answer : η → Option (Raised ε)}

theorem conclude_timeout {deadline : δ} (recorded : shared.deadline = some deadline) :
    shared.conclude run settlement result answer =
      { shared with history.looked := some shared.history.recorded }.finalize settlement
        (.failure (some result) (.timeoutExpired deadline result)) (.ok result) := by
  simp only [conclude, recorded]

theorem conclude_completed (unrecorded : shared.deadline = none)
    (completed : (runHooks answer result run.afterHooks).2 = none) :
    shared.conclude run settlement result answer =
      { shared with
        history.looked := some shared.history.recorded
        history.hookCalls := shared.history.hookCalls ++
          run.afterHooks.map fun hook => (hook, result) }.finalize settlement
        (.success result) (.ok result) := by
  simp only [conclude, unrecorded, completed, runHooks_completed completed]

theorem conclude_refused {error : Raised ε} (unrecorded : shared.deadline = none)
    (refused : (runHooks answer result run.afterHooks).2 = some error) :
    shared.conclude run settlement result answer =
      { shared with
        history.looked := some shared.history.recorded
        history.hookCalls := shared.history.hookCalls ++
          (runHooks answer result run.afterHooks).1 }.finalize settlement
        (.failure (some result) (.raised error)) (.error error) := by
  simp only [conclude, unrecorded, refused]

end Conclude

theorem Sound.unsettled (sound : shared.Sound run)
    (created : shared.settlements settlement ≠ .unstarted)
    (unfinished : ∀ ending, shared.settlements settlement ≠ .finished ending) :
    shared.result = none := by
  obtain rfl := sound.settlement_eq_zero created
  cases recorded : shared.result with
  | none => rfl
  | some settled => exact absurd ((sound.result settled).mp recorded) (unfinished _)

theorem Extends.of_move {task : SettlementTask δ ε ρ}
    (unfinished : ∀ ending, before.settlements settlement ≠ .finished ending)
    (settlements : after.settlements =
      Function.update before.settlements settlement task)
    (started : after.started = before.started) (unsettled : before.result = none) :
    before.Extends after := by
  refine ⟨started.ge, ?_, ?_⟩
  · intro settled recorded
    rw [unsettled] at recorded
    cases recorded
  · intro other ending finished
    have ne : other ≠ settlement := by
      rintro rfl
      exact unfinished ending finished
    rw [settlements, Function.update_of_ne ne]
    exact finished

/-- The settlement task turns to finalizing the run, and the history agrees. -/
theorem Sound.finalize (sound : shared.Sound run)
    (driving : shared.settlements settlement = .driving)
    (looked : Option (List (Nat × δ))) (hookCalls : List (η × ρ))
    (how : Finalization δ ε ρ) (ending : Except (Raised ε) ρ)
    (accounts : Accounts run
      { shared.history with looked, hookCalls, finalizations := [how] }
      (.finalizing how ending)) :
    ({ shared with history := { shared.history with looked, hookCalls } }.finalize
        settlement how ending).Sound run ∧
      shared.Extends
        ({ shared with history := { shared.history with looked, hookCalls } }.finalize
          settlement how ending) := by
  have created : shared.settlements settlement ≠ .unstarted := by
    rw [driving]
    exact fun wrong => nomatch wrong
  have unfinished (ending) : shared.settlements settlement ≠ .finished ending := by
    rw [driving]
    exact fun wrong => nomatch wrong
  have unsettled := sound.unsettled created unfinished
  have before := sound.accounts
  rw [← sound.settlement_eq_zero created, driving] at before
  refine ⟨?_, .of_move unfinished rfl rfl unsettled⟩
  refine sound.move created unsettled ?_ rfl rfl rfl rfl rfl rfl ?_ ?_
  · exact fun wrong => nomatch wrong
  · simp [Shared.finalize, unsettled]
  · simpa only [Shared.finalize, before.2.2, List.nil_append] using accounts

theorem Sound.conclude (sound : shared.Sound run)
    (driving : shared.settlements settlement = .driving)
    (answer : η → Option (Raised ε)) :
    (shared.conclude run settlement result answer).Sound run ∧
      shared.Extends (shared.conclude run settlement result answer) := by
  have created : shared.settlements settlement ≠ .unstarted := by
    rw [driving]
    exact fun wrong => nomatch wrong
  have accounts := sound.accounts
  rw [← sound.settlement_eq_zero created, driving] at accounts
  obtain ⟨-, hookCalls, -⟩ := accounts
  have first := sound.first
  cases recorded : shared.deadline with
  | some deadline =>
      rw [conclude_timeout recorded]
      apply sound.finalize driving
      rw [recorded] at first
      obtain ⟨⟨recorder, _⟩, head, rfl⟩ := Option.map_eq_some_iff.mp first.symm
      obtain ⟨later, split⟩ := List.head?_eq_some_iff.mp head
      refine ⟨_, rfl, List.prefix_rfl, ?_⟩
      rw [split]
      exact ⟨rfl, hookCalls⟩
  | none =>
      cases hooked : (runHooks answer result run.afterHooks).2 with
      | some error =>
          rw [conclude_refused recorded hooked]
          apply sound.finalize driving
          rfl
      | none =>
          rw [conclude_completed recorded hooked]
          apply sound.finalize driving
          rw [recorded] at first
          have none_recorded := List.head?_eq_none_iff.mp
            (Option.map_eq_none_iff.mp first.symm)
          refine ⟨_, rfl, List.prefix_rfl, ?_⟩
          rw [none_recorded, hookCalls]
          exact ⟨rfl, rfl⟩

theorem Sound.finish (sound : shared.Sound run) {how : Finalization δ ε ρ}
    {ended ending : Except (Raised ε) ρ} {kept : Option ρ}
    (finalizing : shared.settlements settlement = .finalizing how ended)
    (agrees : ∀ settled, kept = some settled ↔ ending = .ok settled)
    (concludes : Accounts run shared.history (.finalizing how ended) →
      Accounts run shared.history (.finished ending)) :
    { shared.finish settlement ending with result := kept }.Sound run ∧
      shared.Extends { shared.finish settlement ending with result := kept } := by
  have created : shared.settlements settlement ≠ .unstarted := by
    rw [finalizing]
    exact fun wrong => nomatch wrong
  have unfinished (ending) : shared.settlements settlement ≠ .finished ending := by
    rw [finalizing]
    exact fun wrong => nomatch wrong
  have unsettled := sound.unsettled created unfinished
  have accounts := sound.accounts
  rw [← sound.settlement_eq_zero created, finalizing] at accounts
  refine ⟨?_, .of_move unfinished rfl rfl unsettled⟩
  refine sound.move created unsettled ?_ rfl rfl rfl rfl rfl rfl ?_ (concludes accounts)
  · exact fun wrong => nomatch wrong
  · simpa using agrees

theorem Sound.fail (sound : shared.Sound run) {how : Finalization δ ε ρ}
    {ended : Except (Raised ε) ρ} (error : Raised ε)
    (finalizing : shared.settlements settlement = .finalizing how ended) :
    (shared.finish settlement (.error error)).Sound run ∧
      shared.Extends (shared.finish settlement (.error error)) := by
  have created : shared.settlements settlement ≠ .unstarted := by simp [finalizing]
  have unsettled := sound.unsettled created (by simp [finalizing])
  have failed : { shared.finish settlement (.error error) with result := none }.Sound run ∧
      shared.Extends { shared.finish settlement (.error error) with result := none } :=
    sound.finish finalizing (by simp) Accounts.finalized_once
  rw [← unsettled] at failed
  exact failed

theorem Sound.advance (sound : before.Sound run) {progress : Progress ε ρ η}
    (step : before.advance run progress = some after) :
    after.Sound run ∧ before.Extends after := by
  cases progress with
  | exit code | collect | publish =>
      simp only [Shared.advance] at step
      split at step <;> cases step <;> exact ⟨sound.withChild _, .withChild before _⟩
  | settled settlement ending answer =>
      simp only [Shared.advance] at step
      split at step
      case h_1 error driving =>
        cases step
        apply sound.finalize driving before.history.looked before.history.hookCalls
        rfl
      case h_2 result driving =>
        split at step
        case h_1 =>
          cases step
          exact sound.conclude driving answer
        case h_2 => cases step
      case h_3 => cases step
  | finalized settlement raised =>
      simp only [Shared.advance] at step
      split at step
      case h_1 how ended error finalizing =>
        cases step
        exact sound.fail error finalizing
      case h_2 how error finalizing =>
        cases step
        exact sound.fail error finalizing
      case h_3 how result finalizing =>
        cases step
        exact sound.finish finalizing (by simp) (fun accounts => accounts)
      case h_4 => cases step

end Shared

end Cuprum.Handle
