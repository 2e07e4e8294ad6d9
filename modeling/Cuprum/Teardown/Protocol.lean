import Cuprum.Transition.System
import Cuprum.Teardown.Terminate

namespace Cuprum.Teardown

open Transition
open Arbitration (TerminationOutcome)

variable {Error Execution : Type}

/-! The protocol of a teardown: what may follow what. -/

/-- Where a teardown stands.  It ends `spared` when nothing was delivered, `met` when
the target settled in its grace, `unforced` when the grace was over and no second signal
was delivered, and `reaped` otherwise.  A grace is over `early` when it was the child's
wait that timed out. -/
inductive Stage
  | probing
  | cleared
  | waiting (exited : Bool)
  | elapsed (early : Bool)
  | condemned (early : Bool)
  | killed (early : Bool)
  | reaped (early : Bool)
  | spared
  | met
  | unforced (early : Bool)
  deriving DecidableEq, Repr

def Stage.outcome : Stage → Option TerminationOutcome
  | .spared => some noStop
  | .met => some terminatedInGrace
  | .unforced _ => some killedAfterGraceUnwaited
  | .reaped _ => some killedAfterGrace
  | .probing | .cleared | .waiting _ | .elapsed _ | .condemned _ | .killed _ => none

def Stage.isKilled : Stage → Bool
  | .killed _ => true
  | _ => false

/-- The grace has elapsed. -/
def Stage.outlasted : Stage → Bool
  | .elapsed early | .condemned early | .killed early | .reaped early | .unforced early => !early
  | .probing | .cleared | .waiting _ | .spared | .met => false

/-- The grace is over and has not elapsed. -/
def Stage.hastened : Stage → Bool
  | .elapsed early | .condemned early | .killed early | .reaped early | .unforced early => early
  | .probing | .cleared | .waiting _ | .spared | .met => false

/-- The child's exit is what follows a `SIGKILL` that was delivered. -/
def Stage.next (target : SignalTarget) : Stage → Deed Error Execution → Option Stage
  | .killed early, .childExited => some (.reaped early)
  | .killed _, _ => none
  | stage, .logged _ _ | stage, .emitted _ _ => some stage
  | .probing, .probed aim answer =>
      if aim = target then some (if answer = .members then .cleared else .spared) else none
  | .cleared, .signalled aim .terminate answer =>
      if aim = target then
        match answer with
        | .returned => some (.waiting false)
        | .noSuchProcess | .refused _ => some .spared
      else none
  | .waiting exited, .probed aim _ => if aim = target then some (.waiting exited) else none
  | .waiting false, .childExited => some (.waiting true)
  | .waiting true, .graceMet => some .met
  | .waiting _, .graceElapsed => some (.elapsed false)
  | .waiting false, .waitTimedOut => some (.elapsed true)
  | .elapsed early, .probed aim answer =>
      if aim = target then
        some (if answer = .members then .condemned early else .unforced early)
      else none
  | .condemned early, .signalled aim .kill answer =>
      if aim = target then
        match answer with
        | .returned => some (.killed early)
        | .noSuchProcess | .refused _ => some (.unforced early)
      else none
  | .reaped early, .probed aim _ => if aim = target then some (.reaped early) else none
  | _, _ => none

def protocol (Error Execution : Type) (target : SignalTarget) :
    System Stage (Deed Error Execution) where
  initial := .probing
  next stage deed := stage.next target deed

inductive Advances (target : SignalTarget) : Stage → Deed Error Execution → Stage → Prop
  | logs {stage : Stage} (report : GroupTeardownReport) (record : LogRecord Error)
      (told : stage.isKilled = false) : Advances target stage (.logged report record) stage
  | emits {stage : Stage} (execution : Execution) (details : EventDetails)
      (told : stage.isKilled = false) :
      Advances target stage (.emitted execution details) stage
  | clears : Advances target .probing (.probed target .members) .cleared
  | spares {answer : GroupProbe} (settled : answer ≠ .members) :
      Advances target .probing (.probed target answer) .spared
  | terminates : Advances target .cleared (.signalled target .terminate .returned) (.waiting false)
  | misses {answer : SignalAnswer Error} (failed : answer ≠ .returned) :
      Advances target .cleared (.signalled target .terminate answer) .spared
  | polls {exited : Bool} (answer : GroupProbe) :
      Advances target (.waiting exited) (.probed target answer) (.waiting exited)
  | exits : Advances target (.waiting false) .childExited (.waiting true)
  | meets : Advances target (.waiting true) .graceMet .met
  | elapses {exited : Bool} : Advances target (.waiting exited) .graceElapsed (.elapsed false)
  | hastens : Advances target (.waiting false) .waitTimedOut (.elapsed true)
  | condemns {early : Bool} :
      Advances target (.elapsed early) (.probed target .members) (.condemned early)
  | releases {early : Bool} {answer : GroupProbe} (settled : answer ≠ .members) :
      Advances target (.elapsed early) (.probed target answer) (.unforced early)
  | kills {early : Bool} :
      Advances target (.condemned early) (.signalled target .kill .returned) (.killed early)
  | escapes {early : Bool} {answer : SignalAnswer Error} (failed : answer ≠ .returned) :
      Advances target (.condemned early) (.signalled target .kill answer) (.unforced early)
  | reaps {early : Bool} : Advances target (.killed early) .childExited (.reaped early)
  | settles {early : Bool} (answer : GroupProbe) :
      Advances target (.reaped early) (.probed target answer) (.reaped early)

theorem advances {target : SignalTarget} {stage after : Stage} {deed : Deed Error Execution}
    (step : (protocol Error Execution target).next stage deed = some after) :
    Advances target stage deed after := by
  cases deed with
  | logged report record =>
      cases stage <;> simp only [protocol, Stage.next, Option.some.injEq, reduceCtorEq] at step
      all_goals
        subst step
        exact .logs report record rfl
  | emitted execution details =>
      cases stage <;> simp only [protocol, Stage.next, Option.some.injEq, reduceCtorEq] at step
      all_goals
        subst step
        exact .emits execution details rfl
  | probed aim answer =>
      cases stage <;> simp only [protocol, Stage.next, Option.ite_none_right_eq_some,
        Option.some.injEq, reduceCtorEq] at step
      case probing =>
        obtain ⟨rfl, same⟩ := step
        split at same
        · rename_i members
          cases members
          cases same
          exact .clears
        · rename_i settled
          cases same
          exact .spares settled
      case waiting exited =>
        obtain ⟨rfl, rfl⟩ := step
        exact .polls answer
      case elapsed early =>
        obtain ⟨rfl, same⟩ := step
        split at same
        · rename_i members
          cases members
          cases same
          exact .condemns
        · rename_i settled
          cases same
          exact .releases settled
      case reaped early =>
        obtain ⟨rfl, rfl⟩ := step
        exact .settles answer
  | signalled aim signal answer =>
      cases stage <;> cases signal <;> simp only [protocol, Stage.next,
        Option.ite_none_right_eq_some, reduceCtorEq] at step
      case cleared.terminate =>
        obtain ⟨rfl, same⟩ := step
        cases answer <;> cases same
        · exact .terminates
        · exact .misses (by simp)
        · exact .misses (by simp)
      case condemned.kill early =>
        obtain ⟨rfl, same⟩ := step
        cases answer <;> cases same
        · exact .kills
        · exact .escapes (by simp)
        · exact .escapes (by simp)
  | childExited =>
      cases stage with
      | waiting exited =>
          cases exited with
          | false =>
              cases step
              exact .exits
          | true => cases step
      | killed early =>
          cases step
          exact .reaps
      | probing | cleared | elapsed | condemned | reaped | spared | met | unforced => cases step
  | graceMet =>
      cases stage with
      | waiting exited =>
          cases exited with
          | false => cases step
          | true =>
              cases step
              exact .meets
      | probing | cleared | elapsed | condemned | killed | reaped | spared | met
      | unforced => cases step
  | graceElapsed =>
      cases stage with
      | waiting exited =>
          cases exited <;> cases step <;> exact .elapses
      | probing | cleared | elapsed | condemned | killed | reaped | spared | met
      | unforced => cases step
  | waitTimedOut =>
      cases stage with
      | waiting exited =>
          cases exited with
          | false =>
              cases step
              exact .hastens
          | true => cases step
      | probing | cleared | elapsed | condemned | killed | reaped | spared | met
      | unforced => cases step

/-! What a run of the protocol has seen. -/

namespace Deed

def aim : Deed Error Execution → Option SignalTarget
  | .probed target _ | .signalled target _ _ => some target
  | _ => none

def answer : Deed Error Execution → Option GroupProbe
  | .probed _ answer => some answer
  | _ => none

def call : Deed Error Execution → Option Signal
  | .signalled _ signal _ => some signal
  | _ => none

end Deed

def latestProbe (deeds : List (Deed Error Execution)) : Option GroupProbe :=
  (deeds.filterMap Deed.answer).getLast?

def calls (deeds : List (Deed Error Execution)) : List Signal := deeds.filterMap Deed.call

def Delivered (deeds : List (Deed Error Execution)) : Prop :=
  ∃ target signal, .signalled target signal .returned ∈ deeds

/-- The grace has elapsed, and the target has been asked since with this answer. -/
def AskedAfterGrace (deeds : List (Deed Error Execution)) (answer : GroupProbe) : Prop :=
  ∃ before after, deeds = before ++ .graceElapsed :: after ∧ latestProbe after = some answer

theorem latestProbe_concat (deeds : List (Deed Error Execution))
    (deed : Deed Error Execution) :
    latestProbe (deeds ++ [deed]) = deed.answer.or (latestProbe deeds) := by
  unfold latestProbe
  rw [List.filterMap_append]
  cases answered : deed.answer with
  | none => simp [answered]
  | some answer => simp [answered]

theorem calls_concat (deeds : List (Deed Error Execution)) (deed : Deed Error Execution) :
    calls (deeds ++ [deed]) = calls deeds ++ deed.call.toList := by
  unfold calls
  rw [List.filterMap_append]
  cases called : deed.call <;> simp [called]

theorem AskedAfterGrace.concat {deeds : List (Deed Error Execution)} {answer : GroupProbe}
    (asked : AskedAfterGrace deeds answer) {deed : Deed Error Execution}
    (silent : deed.answer = none) : AskedAfterGrace (deeds ++ [deed]) answer := by
  obtain ⟨before, after, rfl, latest⟩ := asked
  refine ⟨before, after ++ [deed], by simp, ?_⟩
  rw [latestProbe_concat, silent, latest]
  rfl

/-- Members of the target were found, after the grace had elapsed or its wait had timed
out early. -/
def Condemned (early : Bool) (deeds : List (Deed Error Execution)) : Prop :=
  latestProbe deeds = some .members ∧ (early = false → AskedAfterGrace deeds .members)

/-- What a run has seen by the stage it has come to. -/
def Seen (deeds : List (Deed Error Execution)) : Stage → Prop
  | .probing => calls deeds = [] ∧ ¬ Delivered deeds
  | .cleared => calls deeds = [] ∧ ¬ Delivered deeds ∧ latestProbe deeds = some .members
  | .waiting exited => calls deeds = [.terminate] ∧ Delivered deeds ∧
      (exited = true → .childExited ∈ deeds)
  | .elapsed _ => calls deeds = [.terminate] ∧ Delivered deeds
  | .condemned early => calls deeds = [.terminate] ∧ Delivered deeds ∧ Condemned early deeds
  | .killed _ => calls deeds = [.terminate, .kill] ∧ Delivered deeds
  | .reaped _ => calls deeds = [.terminate, .kill] ∧ Delivered deeds ∧ .childExited ∈ deeds
  | .spared => (calls deeds = [] ∨ calls deeds = [.terminate]) ∧ ¬ Delivered deeds
  | .met => calls deeds = [.terminate] ∧ Delivered deeds ∧ .childExited ∈ deeds
  | .unforced _ => (calls deeds = [.terminate] ∨ calls deeds = [.terminate, .kill]) ∧
      Delivered deeds

theorem delivered_concat {deeds : List (Deed Error Execution)} {deed : Deed Error Execution} :
    Delivered (deeds ++ [deed]) ↔
      Delivered deeds ∨ ∃ target signal, deed = .signalled target signal .returned := by
  unfold Delivered
  constructor
  · rintro ⟨target, signal, listed⟩
    rcases List.mem_append.mp listed with old | new
    · exact .inl ⟨target, signal, old⟩
    · exact .inr ⟨target, signal, (List.mem_singleton.mp new).symm⟩
  · rintro (⟨target, signal, listed⟩ | ⟨target, signal, rfl⟩)
    · exact ⟨target, signal, List.mem_append_left _ listed⟩
    · exact ⟨target, signal, by simp⟩

theorem Delivered.concat {deeds : List (Deed Error Execution)} (delivered : Delivered deeds)
    (deed : Deed Error Execution) : Delivered (deeds ++ [deed]) :=
  delivered_concat.mpr (.inl delivered)

theorem not_delivered_concat {deeds : List (Deed Error Execution)}
    (none_ : ¬ Delivered deeds) {deed : Deed Error Execution}
    (other : ∀ target signal, deed ≠ .signalled target signal .returned) :
    ¬ Delivered (deeds ++ [deed]) := by
  rw [delivered_concat, not_or]
  exact ⟨none_, fun ⟨target, signal, same⟩ => other target signal same⟩

/-- A report is no probe, no signal and no exit. -/
theorem Seen.tell {deeds : List (Deed Error Execution)} {stage : Stage}
    (seen : Seen deeds stage) {deed : Deed Error Execution} (silent : deed.answer = none)
    (uncalled : deed.call = none) : Seen (deeds ++ [deed]) stage := by
  have undelivered : ∀ target signal, deed ≠ .signalled target signal .returned := by
    rintro target signal rfl
    cases uncalled
  have called : calls (deeds ++ [deed]) = calls deeds := by
    rw [calls_concat, uncalled]
    exact List.append_nil _
  have latest : latestProbe (deeds ++ [deed]) = latestProbe deeds := by
    rw [latestProbe_concat, silent]
    rfl
  cases stage <;> simp only [Seen, called, latest] at seen ⊢
  case probing => exact ⟨seen.1, not_delivered_concat seen.2 undelivered⟩
  case cleared => exact ⟨seen.1, not_delivered_concat seen.2.1 undelivered, seen.2.2⟩
  case waiting =>
    exact ⟨seen.1, seen.2.1.concat deed, fun exited => List.mem_append_left _ (seen.2.2 exited)⟩
  case elapsed => exact ⟨seen.1, seen.2.concat deed⟩
  case condemned =>
    exact ⟨seen.1, seen.2.1.concat deed, latest.trans seen.2.2.1,
      fun elapsed => (seen.2.2.2 elapsed).concat silent⟩
  case killed => exact ⟨seen.1, seen.2.concat deed⟩
  case reaped => exact ⟨seen.1, seen.2.1.concat deed, List.mem_append_left _ seen.2.2⟩
  case spared => exact ⟨seen.1, not_delivered_concat seen.2 undelivered⟩
  case met => exact ⟨seen.1, seen.2.1.concat deed, List.mem_append_left _ seen.2.2⟩
  case unforced => exact ⟨seen.1, seen.2.concat deed⟩

theorem AskedAfterGrace.elapsed {deeds : List (Deed Error Execution)} {answer : GroupProbe}
    (asked : AskedAfterGrace deeds answer) : .graceElapsed ∈ deeds := by
  obtain ⟨before, after, rfl, _⟩ := asked
  simp

theorem askedAfterGrace_concat {deeds : List (Deed Error Execution)}
    (elapsed : .graceElapsed ∈ deeds) (target : SignalTarget) (answer : GroupProbe) :
    AskedAfterGrace (deeds ++ [.probed target answer]) answer := by
  obtain ⟨before, after, rfl⟩ := List.append_of_mem elapsed
  refine ⟨before, after ++ [.probed target answer], by simp, ?_⟩
  rw [latestProbe_concat]
  rfl

/-- The grace has elapsed by a stage that says so, and by no other. -/
theorem elapsed_iff {target : SignalTarget} {deeds : List (Deed Error Execution)}
    {stage : Stage} (runs : (protocol Error Execution target).exec .probing deeds = some stage) :
    .graceElapsed ∈ deeds ↔ stage.outlasted = true := by
  refine @System.exec_history _ _ (protocol Error Execution target)
    (fun deeds stage => .graceElapsed ∈ deeds ↔ stage.outlasted = true) ?_ ?_ _ _ runs
  · simp [protocol, Stage.outlasted]
  · intro deeds stage deed after _ so step
    rw [List.mem_append, List.mem_singleton, so]
    cases advances step with
    | logs => simp
    | emits => simp
    | _ => simp [Stage.outlasted]

theorem Seen.advance {target : SignalTarget} {deeds : List (Deed Error Execution)}
    {stage after : Stage} {deed : Deed Error Execution} (seen : Seen deeds stage)
    (elapsed : stage.outlasted = true → .graceElapsed ∈ deeds)
    (advances : Advances target stage deed after) : Seen (deeds ++ [deed]) after := by
  cases advances with
  | logs report record told => exact seen.tell rfl rfl
  | emits execution details told => exact seen.tell rfl rfl
  | clears =>
      refine ⟨by simp [calls_concat, seen.1, Deed.call], ?_, by simp [latestProbe_concat, Deed.answer]⟩
      exact not_delivered_concat seen.2 (by simp)
  | spares settled =>
      exact ⟨.inl (by simp [calls_concat, seen.1, Deed.call]),
        not_delivered_concat seen.2 (by simp)⟩
  | terminates =>
      exact ⟨by simp [calls_concat, seen.1, Deed.call], ⟨target, .terminate, by simp⟩, by simp⟩
  | misses failed =>
      refine ⟨.inr (by simp [calls_concat, seen.1, Deed.call]), ?_⟩
      apply not_delivered_concat seen.2.1
      intro aim signal same
      cases same
      exact failed rfl
  | polls answer =>
      exact ⟨by simp [calls_concat, seen.1, Deed.call], seen.2.1.concat _,
        fun exited => List.mem_append_left _ (seen.2.2 exited)⟩
  | exits => exact ⟨by simp [calls_concat, seen.1, Deed.call], seen.2.1.concat _, by simp⟩
  | meets =>
      exact ⟨by simp [calls_concat, seen.1, Deed.call], seen.2.1.concat _,
        List.mem_append_left _ (seen.2.2 rfl)⟩
  | elapses => exact ⟨by simp [calls_concat, seen.1, Deed.call], seen.2.1.concat _⟩
  | hastens => exact ⟨by simp [calls_concat, seen.1, Deed.call], seen.2.1.concat _⟩
  | condemns =>
      refine ⟨by simp [calls_concat, seen.1, Deed.call], seen.2.concat _,
        by simp [latestProbe_concat, Deed.answer], ?_⟩
      rintro rfl
      exact askedAfterGrace_concat (elapsed rfl) target .members
  | releases settled =>
      exact ⟨.inl (by simp [calls_concat, seen.1, Deed.call]), seen.2.concat _⟩
  | kills => exact ⟨by simp [calls_concat, seen.1, Deed.call], seen.2.1.concat _⟩
  | escapes failed =>
      exact ⟨.inr (by simp [calls_concat, seen.1, Deed.call]), seen.2.1.concat _⟩
  | reaps => exact ⟨by simp [calls_concat, seen.1, Deed.call], seen.2.concat _, by simp⟩
  | settles answer =>
      exact ⟨by simp [calls_concat, seen.1, Deed.call], seen.2.1.concat _,
        List.mem_append_left _ seen.2.2⟩

theorem seen {target : SignalTarget} {deeds : List (Deed Error Execution)} {stage : Stage}
    (runs : (protocol Error Execution target).exec .probing deeds = some stage) :
    Seen deeds stage := by
  refine @System.exec_history _ _ (protocol Error Execution target) Seen ?_ ?_ _ _ runs
  · exact ⟨rfl, by simp [Delivered]⟩
  · exact fun runs seen step => seen.advance (elapsed_iff runs).mpr (advances step)

end Cuprum.Teardown
