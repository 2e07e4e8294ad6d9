import Cuprum.Teardown.Reporting

namespace Cuprum.Teardown

open Transition Effect
open Arbitration (TerminationOutcome)

variable {Error Execution : Type} {process : Process Execution}
  {stage after : Stage} {dropped early : Bool} {deeds : List (Deed Error Execution)}
  {raised : Error → List (Deed Error Execution) → Prop}

def Process.due (process : Process Execution) (answer : GroupProbe) : List (Filing Error) :=
  ((Deed.probed process.target answer : Deed Error Execution).owes process).toList

theorem reportTeardown_ends {answer : GroupProbe}
    (stands : Stands process stage dropped (process.due answer) deeds) (told : stage.isKilled = false) :
    Ends (process.reportTeardown (unsignalableReport answer process.pid))
      (fun _ => Stands process stage dropped []) raised deeds := by
  cases answer with
  | members => exact Ends.returns stands
  | empty => exact Ends.returns stands
  | unsignalable => exact stands.report told _ none rfl

theorem membersRemainToSignal_ends (stands : Stands process stage dropped [] deeds)
    (finding : Finding)
    (step : stage.next process.target (Deed.probed process.target (process.settlementOf finding) :
      Deed Error Execution) = some after) (told : after.isKilled = false) :
    Ends (process.membersRemainToSignal finding)
      (fun remain deeds => remain = decide (process.settlementOf finding = .members) ∧
        Stands process after dropped [] deeds) raised deeds := by
  unfold Process.membersRemainToSignal
  apply Ends.bind
  refine (stands.note step rfl rfl).mono ?_ fun _ _ raises => raises
  intro _ probed owing
  apply Ends.bind
  refine (reportTeardown_ends owing told).mono ?_ fun _ _ raises => raises
  exact fun _ _ reported => Ends.returns ⟨rfl, reported⟩

theorem signalTargetOrReport_ends (stands : Stands process stage dropped [] deeds)
    (signal : Signal) (answer : SignalAnswer Error)
    (step : stage.next process.target (Deed.signalled process.target signal answer :
      Deed Error Execution) = some after) (told : answer ≠ .returned → after.isKilled = false) :
    Ends (process.signalTargetOrReport signal answer)
      (fun delivered deeds => (delivered = true ↔ answer = .returned) ∧
        Stands process after dropped [] deeds) raised deeds := by
  unfold Process.signalTargetOrReport
  apply Ends.bind
  refine (stands.note step rfl rfl).mono ?_ fun _ _ raises => raises
  intro _ called owing
  cases answer with
  | returned => exact Ends.returns ⟨by simp, owing⟩
  | noSuchProcess => exact Ends.returns ⟨by simp, owing⟩
  | refused error =>
      apply Ends.bind
      refine (owing.report (told (by simp)) _ (some error) rfl).mono ?_ fun _ _ raises => raises
      exact fun _ _ reported => Ends.returns ⟨by simp, reported⟩

/-! The wait of the grace. -/

def comesToExit : List (Moment Error) → Bool
  | [] => false
  | .polled _ :: rest => comesToExit rest
  | .exits :: _ => true
  | .fails _ :: _ => false
  | .timesOut :: _ => false

/-- The child's wait fails with a `TimeoutError` within the grace. -/
def timesOut : List (Moment Error) → Bool
  | [] => false
  | .polled _ :: rest => timesOut rest
  | .exits :: _ => false
  | .fails _ :: _ => false
  | .timesOut :: _ => true

/-- The group's poll ends at an unsignalable answer, and the child does not exit after
it within the grace. -/
def unheard : List (Moment Error) → Bool
  | [] => false
  | .polled .members :: rest => unheard rest
  | .polled .empty :: _ => false
  | .polled .unsignalable :: rest => !comesToExit rest
  | .exits :: _ => false
  | .fails _ :: _ => false
  | .timesOut :: _ => false

/-- Where the wait leaves a teardown: with an answer to report, or with its grace over. -/
def Waited (process : Process Execution) (missed early : Bool) :
    Option GroupProbe → List (Deed Error Execution) → Prop
  | some answer, deeds => (missed = false ∧ early = false) ∧
      Stands process (.waiting true) false (process.due answer) deeds
  | none, deeds => Stands process (.elapsed early) missed [] deeds

/-- An error ends a teardown in its grace or after its `SIGKILL`. -/
def GaveUp (process : Process Execution) (missed early : Bool) (_ : Error)
    (deeds : List (Deed Error Execution)) : Prop :=
  ∃ stage : Stage, stage.hastened = early ∧ (early = true → stage.isKilled = true) ∧
    Stands process stage missed [] deeds

theorem due_given_up {answer : GroupProbe} {stage : Stage}
    (stands : Stands process stage false (process.due answer) deeds) :
    Stands process stage (answer = .unsignalable : Bool) [] deeds := by
  cases answer with
  | members => exact stands
  | empty => exact stands
  | unsignalable => exact stands.drop

/-- The poll has ended, and the child is waited for. -/
theorem awaitGroupTeardown_ended {answer : GroupProbe} (moments : List (Moment Error))
    (stands : Stands process (.waiting false) false (process.due answer) deeds) :
    Ends (process.awaitGroupTeardown false (some answer) moments)
      (Waited process ((answer = .unsignalable : Bool) && !comesToExit moments)
        (timesOut moments))
      (GaveUp process ((answer = .unsignalable : Bool) && !comesToExit moments)
        (timesOut moments)) deeds := by
  induction moments with
  | nil =>
      unfold Process.awaitGroupTeardown
      apply Ends.bind
      simp only [comesToExit, Bool.not_false, Bool.and_true]
      refine ((due_given_up stands).note rfl rfl rfl).mono ?_ fun _ _ raises => raises
      exact fun _ _ elapsed => Ends.returns elapsed
  | cons moment rest induction =>
      cases moment with
      | polled other => exact induction
      | exits =>
          unfold Process.awaitGroupTeardown
          apply Ends.bind
          refine (stands.note rfl rfl rfl).mono ?_ fun _ _ raises => raises
          intro _ exited owing
          apply Ends.returns
          refine ⟨⟨by simp [comesToExit], rfl⟩, ?_⟩
          rw [show (Deed.childExited : Deed Error Execution).owes process = none from rfl,
            Option.toList_none, List.append_nil] at owing
          exact owing
      | fails error =>
          apply Ends.raises
          simp only [comesToExit, Bool.not_false, Bool.and_true]
          exact ⟨_, rfl, nofun, due_given_up stands⟩
      | timesOut =>
          unfold Process.awaitGroupTeardown
          apply Ends.bind
          simp only [comesToExit, Bool.not_false, Bool.and_true]
          refine ((due_given_up stands).note rfl rfl rfl).mono ?_ fun _ _ raises => raises
          exact fun _ _ hastened => Ends.returns hastened

theorem awaitGroupTeardown_exited (moments : List (Moment Error))
    (stands : Stands process (.waiting true) false [] deeds) :
    Ends (process.awaitGroupTeardown true none moments) (Waited process false false)
      (GaveUp process false false) deeds := by
  induction moments generalizing deeds with
  | nil =>
      unfold Process.awaitGroupTeardown
      apply Ends.bind
      refine (stands.note rfl rfl rfl).mono ?_ fun _ _ raises => raises
      exact fun _ _ elapsed => Ends.returns elapsed
  | cons moment rest induction =>
      cases moment with
      | polled answer =>
          unfold Process.awaitGroupTeardown
          apply Ends.bind
          have polls : Stage.next process.target (.waiting true)
              (Deed.probed process.target answer : Deed Error Execution) =
                some (.waiting true) := by simp [Stage.next]
          refine (stands.note polls rfl rfl).mono ?_ fun _ _ raises => raises
          intro _ probed owing
          cases answer with
          | members => exact induction owing
          | empty => exact Ends.returns ⟨⟨rfl, rfl⟩, owing⟩
          | unsignalable => exact Ends.returns ⟨⟨rfl, rfl⟩, owing⟩
      | exits => exact induction stands
      | fails error => exact induction stands
      | timesOut => exact induction stands

theorem awaitGroupTeardown_ends (moments : List (Moment Error))
    (stands : Stands process (.waiting false) false [] deeds) :
    Ends (process.awaitGroupTeardown false none moments)
      (Waited process (unheard moments) (timesOut moments))
      (GaveUp process (unheard moments) (timesOut moments)) deeds := by
  induction moments generalizing deeds with
  | nil =>
      unfold Process.awaitGroupTeardown
      apply Ends.bind
      refine (stands.note rfl rfl rfl).mono ?_ fun _ _ raises => raises
      exact fun _ _ elapsed => Ends.returns elapsed
  | cons moment rest induction =>
      cases moment with
      | polled answer =>
          unfold Process.awaitGroupTeardown
          apply Ends.bind
          have polls : Stage.next process.target (.waiting false)
              (Deed.probed process.target answer : Deed Error Execution) =
                some (.waiting false) := by simp [Stage.next]
          refine (stands.note polls rfl rfl).mono ?_ fun _ _ raises => raises
          intro _ probed owing
          cases answer with
          | members => exact induction owing
          | empty =>
              have due : Stands process (.waiting false) false (process.due .empty) _ := owing
              exact awaitGroupTeardown_ended rest due
          | unsignalable =>
              have due : Stands process (.waiting false) false (process.due .unsignalable) _ := owing
              exact awaitGroupTeardown_ended rest due
      | exits =>
          unfold Process.awaitGroupTeardown
          apply Ends.bind
          refine (stands.note rfl rfl rfl).mono ?_ fun _ _ raises => raises
          exact fun _ _ exited => awaitGroupTeardown_exited rest exited
      | fails error => exact Ends.raises ⟨_, rfl, fun moved => (by cases moved), stands⟩
      | timesOut =>
          unfold Process.awaitGroupTeardown
          apply Ends.bind
          refine (stands.note rfl rfl rfl).mono ?_ fun _ _ raises => raises
          exact fun _ _ hastened => Ends.returns hastened

theorem awaitChild_ends (moments : List (Moment Error))
    (stands : Stands process (.waiting false) false [] deeds) :
    Ends (Process.awaitChild moments)
      (fun exited deeds => (exited = true → timesOut moments = false) ∧
        Stands process (if exited then .waiting true else .elapsed (timesOut moments)) false []
          deeds)
      (GaveUp process false (timesOut moments)) deeds := by
  induction moments with
  | nil =>
      unfold Process.awaitChild
      apply Ends.bind
      refine (stands.note rfl rfl rfl).mono ?_ fun _ _ raises => raises
      exact fun _ _ elapsed => Ends.returns ⟨nofun, elapsed⟩
  | cons moment rest induction =>
      cases moment with
      | polled answer => exact induction
      | exits =>
          unfold Process.awaitChild
          apply Ends.bind
          refine (stands.note rfl rfl rfl).mono ?_ fun _ _ raises => raises
          exact fun _ _ exited => Ends.returns ⟨fun _ => rfl, exited⟩
      | fails error => exact Ends.raises ⟨_, rfl, fun moved => (by cases moved), stands⟩
      | timesOut =>
          unfold Process.awaitChild
          apply Ends.bind
          refine (stands.note rfl rfl rfl).mono ?_ fun _ _ raises => raises
          exact fun _ _ hastened => Ends.returns ⟨nofun, hastened⟩

def Process.unheardOf (process : Process Execution) (grace : List (Moment Error)) : Bool :=
  match process.target with
  | .group _ => unheard grace
  | .child => false

theorem settlement_ends (grace : List (Moment Error))
    (stands : Stands process (.waiting false) false [] deeds) :
    Ends (process.settlement grace)
      (fun settled deeds =>
        (settled = true → process.unheardOf grace = false ∧ timesOut grace = false) ∧
          Stands process (if settled then .waiting true else .elapsed (timesOut grace))
            (process.unheardOf grace) [] deeds)
      (GaveUp process (process.unheardOf grace) (timesOut grace)) deeds := by
  unfold Process.settlement Process.unheardOf
  cases target : process.target with
  | child =>
      refine (awaitChild_ends grace stands).mono ?_ fun _ _ gaveUp => gaveUp
      exact fun exited _ waited => ⟨fun settled => ⟨rfl, waited.1 settled⟩, waited.2⟩
  | group pid =>
      apply Ends.bind
      refine (awaitGroupTeardown_ends grace stands).mono ?_ fun _ _ gaveUp => gaveUp
      intro ended deeds waited
      cases ended with
      | none => exact Ends.returns ⟨nofun, waited⟩
      | some answer =>
          obtain ⟨heard, owing⟩ := waited
          apply Ends.bind
          refine (reportTeardown_ends owing rfl).mono ?_ fun _ _ raises => raises
          intro _ deeds reported
          exact Ends.returns ⟨fun _ => heard, heard.1 ▸ reported⟩

/-! The escalation. -/

theorem awaitGroupSettlement_ends (polls : List GroupProbe)
    (stands : Stands process (.reaped early) dropped [] deeds) :
    Ends (process.awaitGroupSettlement polls)
      (fun answer => Stands process (.reaped early) dropped (process.due answer)) raised
      deeds := by
  induction polls generalizing deeds with
  | nil => exact Ends.returns stands
  | cons answer rest induction =>
      unfold Process.awaitGroupSettlement
      apply Ends.bind
      have polled : Stage.next process.target (.reaped early)
          (Deed.probed process.target answer : Deed Error Execution) = some (.reaped early) := by
        simp [Stage.next]
      refine (stands.note polled rfl rfl).mono ?_ fun _ _ raises => raises
      intro _ probed owing
      cases answer with
      | members => exact induction owing
      | empty => exact Ends.returns owing
      | unsignalable => exact Ends.returns owing

theorem settleAfterEscalation_ends (answers : Answers Error)
    (stands : Stands process (.killed early) dropped [] deeds) :
    Ends (process.settleAfterEscalation answers)
      (fun _ => Stands process (.reaped early) dropped []) (GaveUp process dropped early)
      deeds := by
  unfold Process.settleAfterEscalation
  apply Ends.bind
  apply Ends.attempt
  · intro _
    apply Ends.bind
    refine (stands.note rfl rfl rfl).mono ?_ fun _ _ raises => raises
    intro _ reaped stands
    cases target : process.target with
    | child => exact Ends.returns stands
    | group pid =>
        apply Ends.bind
        refine (awaitGroupSettlement_ends answers.settling stands).mono ?_ fun _ _ raises => raises
        intro answer settled owing
        cases answer with
        | members => exact owing.report rfl _ none rfl
        | empty => exact Ends.returns owing
        | unsignalable => exact owing.report rfl _ none rfl
  · exact fun error _ => ⟨_, rfl, fun _ => rfl, stands⟩

theorem escalateAfterGrace_ends (answers : Answers Error)
    (stands : Stands process (.elapsed early) dropped [] deeds) :
    Ends (process.escalateAfterGrace answers)
      (fun delivered =>
        Stands process (if delivered then .reaped early else .unforced early) dropped [])
      (GaveUp process dropped early) deeds := by
  unfold Process.escalateAfterGrace
  apply Ends.bind
  have asks : Stage.next process.target (.elapsed early) (Deed.probed process.target
      (process.settlementOf answers.second) : Deed Error Execution) =
        some (if process.settlementOf answers.second = .members then .condemned early
          else .unforced early) := by simp [Stage.next]
  refine (membersRemainToSignal_ends stands answers.second asks (by split <;> rfl)).mono ?_
    fun _ _ raises => raises
  rintro remain deeds ⟨rfl, asked⟩
  apply Ends.branch
  · intro remain
    rw [if_pos (of_decide_eq_true remain)] at asked
    apply Ends.bind
    obtain ⟨stage, calls, kills, spares⟩ : ∃ stage, Stage.next process.target (.condemned early)
        (Deed.signalled process.target .kill answers.kill : Deed Error Execution) = some stage ∧
        (answers.kill = .returned → stage = .killed early) ∧
        (answers.kill ≠ .returned → stage = .unforced early) := by
      cases answers.kill <;> simp [Stage.next]
    refine (signalTargetOrReport_ends asked .kill answers.kill calls ?_).mono ?_
      fun _ _ raises => raises
    · intro refused
      rw [spares refused]
      rfl
    · rintro delivered deeds ⟨returned, called⟩
      apply Ends.branch
      · intro delivered
        rw [kills (returned.mp delivered)] at called
        apply Ends.bind
        refine (settleAfterEscalation_ends answers called).mono ?_ fun _ _ gaveUp => gaveUp
        exact fun _ _ reaped => Ends.returns reaped
      · intro undelivered
        rw [spares fun answer => undelivered (returned.mpr answer)] at called
        exact Ends.returns called
  · intro settled
    rw [if_neg (by simpa using settled)] at asked
    exact Ends.returns asked

end Cuprum.Teardown
