import Cuprum.Teardown.Settling

namespace Cuprum.Teardown

open Transition Effect
open Arbitration (TerminationOutcome)

variable {Error Execution : Type} {process : Process Execution}
  {deeds : List (Deed Error Execution)}

/-- The child was asked to end, and an answer of its group's poll was lost with the wait
for its exit. -/
def Process.drops (process : Process Execution) (answers : Answers Error) : Bool :=
  match answers.terminate with
  | .returned =>
      process.settlementOf answers.first = .members && process.unheardOf answers.grace
  | .noSuchProcess | .refused _ => false

/-- The child was asked to end, and a `TimeoutError` of the wait for it was taken for the
end of its grace. -/
def Process.mistakes (process : Process Execution) (answers : Answers Error) : Bool :=
  match answers.terminate with
  | .returned => process.settlementOf answers.first = .members && timesOut answers.grace
  | .noSuchProcess | .refused _ => false

theorem terminateProcessWithWait_ends (process : Process Execution) (answers : Answers Error) :
    Ends (process.terminateProcessWithWait answers)
      (fun outcome deeds => ∃ stage : Stage, stage.outcome = some outcome ∧
        stage.hastened = process.mistakes answers ∧
        Stands process stage (process.drops answers) [] deeds)
      (GaveUp process (process.drops answers) (process.mistakes answers)) [] := by
  unfold Process.terminateProcessWithWait
  apply Ends.bind
  have asks : Stage.next process.target .probing (Deed.probed process.target
      (process.settlementOf answers.first) : Deed Error Execution) =
        some (if process.settlementOf answers.first = .members then .cleared else .spared) := by
    simp [Stage.next]
  refine (membersRemainToSignal_ends .initial answers.first asks (by split <;> rfl)).mono ?_
    fun _ _ raises => raises
  rintro remain deeds ⟨rfl, asked⟩
  apply Ends.branch
  · intro remain
    have members := of_decide_eq_true remain
    rw [if_pos members] at asked
    apply Ends.bind
    have calls : Stage.next process.target .cleared (Deed.signalled process.target .terminate
        answers.terminate : Deed Error Execution) =
          some (match answers.terminate with
            | .returned => .waiting false
            | .noSuchProcess | .refused _ => .spared) := by
      cases answers.terminate <;> simp [Stage.next]
    refine (signalTargetOrReport_ends asked .terminate answers.terminate calls ?_).mono ?_
      fun _ _ raises => raises
    · intro refused
      cases answer : answers.terminate with
      | returned => exact absurd answer refused
      | noSuchProcess => rfl
      | refused error => rfl
    · rintro delivered deeds ⟨returned, called⟩
      apply Ends.branch
      · intro delivered
        have answer := returned.mp delivered
        have drops : process.drops answers = process.unheardOf answers.grace := by
          simp [Process.drops, answer, members]
        have mistakes : process.mistakes answers = timesOut answers.grace := by
          simp [Process.mistakes, answer, members]
        rw [answer] at called
        rw [drops, mistakes]
        apply Ends.bind
        refine (settlement_ends answers.grace called).mono ?_ fun _ _ gaveUp => gaveUp
        rintro settled deeds ⟨heard, waited⟩
        apply Ends.branch
        · intro settled
          rw [if_pos settled] at waited
          rw [(heard settled).2]
          apply Ends.bind
          refine (waited.note rfl rfl rfl).mono ?_ fun _ _ raises => raises
          exact fun _ _ met => Ends.returns ⟨.met, rfl, rfl, met⟩
        · intro unsettled
          rw [if_neg unsettled] at waited
          unfold Process.escalateAfterGraceOutcome
          apply Ends.bind
          refine (escalateAfterGrace_ends answers waited).mono ?_ fun _ _ gaveUp => gaveUp
          intro delivered deeds escalated
          cases delivered with
          | true => exact Ends.returns ⟨.reaped _, rfl, rfl, escalated⟩
          | false => exact Ends.returns ⟨.unforced _, rfl, rfl, escalated⟩
      · intro undelivered
        obtain ⟨drops, mistakes⟩ : process.drops answers = false ∧
            process.mistakes answers = false := by
          cases answer : answers.terminate with
          | returned => exact absurd (returned.mpr answer) undelivered
          | noSuchProcess => simp [Process.drops, Process.mistakes, answer]
          | refused error => simp [Process.drops, Process.mistakes, answer]
        rw [drops, mistakes]
        apply Ends.returns
        refine ⟨.spared, rfl, rfl, ?_⟩
        cases answer : answers.terminate with
        | returned => exact absurd (returned.mpr answer) undelivered
        | noSuchProcess => simpa [answer] using called
        | refused error => simpa [answer] using called
  · intro settled
    have empty : ¬ process.settlementOf answers.first = .members := by simpa using settled
    have drops : process.drops answers = false := by
      cases answer : answers.terminate <;> simp [Process.drops, answer, empty]
    have mistakes : process.mistakes answers = false := by
      cases answer : answers.terminate <;> simp [Process.mistakes, answer, empty]
    rw [drops, mistakes]
    rw [if_neg empty] at asked
    exact Ends.returns ⟨.spared, rfl, rfl, asked⟩

/-! What a run of the protocol shows of each deed in it. -/

theorem exec_split {target : SignalTarget} {before after : List (Deed Error Execution)}
    {deed : Deed Error Execution} {final : Stage}
    (runs : (protocol Error Execution target).exec .probing (before ++ deed :: after) =
      some final) :
    ∃ stage next, (protocol Error Execution target).exec .probing before = some stage ∧
      Advances target stage deed next ∧
      (protocol Error Execution target).exec next after = some final := by
  rw [System.exec_append, Option.bind_eq_some_iff] at runs
  obtain ⟨stage, reached, rest⟩ := runs
  rw [System.exec_cons, Option.bind_eq_some_iff] at rest
  obtain ⟨next, step, rest⟩ := rest
  exact ⟨stage, next, reached, advances step, rest⟩

/-- A run that ends normally has the child's exit after a delivered `SIGKILL`. -/
theorem exec_killed {target : SignalTarget} {early : Bool}
    {after : List (Deed Error Execution)} {final : Stage}
    (runs : (protocol Error Execution target).exec (.killed early) after = some final) :
    (after = [] ∧ final = .killed early) ∨ ∃ rest, after = .childExited :: rest := by
  cases after with
  | nil =>
      cases runs
      exact .inl ⟨rfl, rfl⟩
  | cons deed rest =>
      rw [System.exec_cons, Option.bind_eq_some_iff] at runs
      obtain ⟨next, step, _⟩ := runs
      cases advances step with
      | logs _ _ told => cases told
      | emits _ _ told => cases told
      | reaps => exact .inr ⟨rest, rfl⟩

/-- A grace that was over early stays so. -/
theorem hastened_of_exec {target : SignalTarget} {after : List (Deed Error Execution)}
    {stage final : Stage} (hastened : stage.hastened = true)
    (runs : (protocol Error Execution target).exec stage after = some final) :
    final.hastened = true := by
  refine @System.exec_invariant _ _ (protocol Error Execution target)
    (fun stage => stage.hastened = true) ?_ _ _ _ hastened runs
  intro stage deed after hastened step
  cases advances step with
  | logs => exact hastened
  | emits => exact hastened
  | condemns => exact hastened
  | releases => exact hastened
  | kills => exact hastened
  | escapes => exact hastened
  | reaps => exact hastened
  | settles => exact hastened
  | hastens => rfl
  | clears => cases hastened
  | spares => cases hastened
  | terminates => cases hastened
  | misses => cases hastened
  | polls => cases hastened
  | exits => cases hastened
  | meets => cases hastened
  | elapses => cases hastened

/-- A teardown that has kept to what it promises. -/
structure Orderly (process : Process Execution) (ended : Except Error TerminationOutcome)
    (deeds : List (Deed Error Execution)) : Prop where
  signals : calls deeds = [] ∨ calls deeds = [.terminate] ∨ calls deeds = [.terminate, .kill]
  aimed : ∀ deed ∈ deeds, ∀ target, deed.aim = some target → target = process.target
  cleared : ∀ before target signal answer after,
    deeds = before ++ .signalled target signal answer :: after →
      latestProbe before = some .members
  compelled : ∀ before target answer after,
    deeds = before ++ .signalled target .kill answer :: after → AskedAfterGrace before .members
  reaped : ∀ before target after, deeds = before ++ .signalled target .kill .returned :: after →
    (∃ rest, after = .childExited :: rest) ∨ after = [] ∧ ∃ error, ended = .error error
  delivered : ∀ outcome, ended = .ok outcome → (outcome.delivered = true ↔ Delivered deeds)
  escalated : ∀ outcome, ended = .ok outcome → outcome.escalated = true →
    .graceElapsed ∈ deeds
  waited : ∀ outcome, ended = .ok outcome → outcome.waiterCompleted = true →
    .childExited ∈ deeds
  reported : filed deeds = owed process deeds
  echoed : Echoed process deeds

theorem Seen.calls {stage : Stage} (seen : Seen deeds stage) :
    calls deeds = [] ∨ calls deeds = [.terminate] ∨ calls deeds = [.terminate, .kill] := by
  cases stage with
  | probing => exact .inl seen.1
  | cleared => exact .inl seen.1
  | waiting exited => exact .inr (.inl seen.1)
  | elapsed early => exact .inr (.inl seen.1)
  | condemned early => exact .inr (.inl seen.1)
  | killed early => exact .inr (.inr seen.1)
  | reaped early => exact .inr (.inr seen.1)
  | spared => exact seen.1.imp_right .inl
  | met => exact .inr (.inl seen.1)
  | unforced early => exact .inr seen.1

/-- The outcome of a stage says what its runs have seen. -/
theorem Seen.outcome {stage : Stage} (seen : Seen deeds stage) {outcome : TerminationOutcome}
    (ends : stage.outcome = some outcome) :
    (outcome.delivered = true ↔ Delivered deeds) ∧
      (outcome.escalated = true ↔ stage.outlasted = true ∨ stage.hastened = true) ∧
      (outcome.waiterCompleted = true → .childExited ∈ deeds) := by
  cases stage with
  | spared =>
      cases ends
      refine ⟨iff_of_false Bool.false_ne_true seen.2, ?_, fun exited => by cases exited⟩
      simp [noStop, Stage.outlasted, Stage.hastened]
  | met =>
      cases ends
      exact ⟨iff_of_true rfl seen.2.1,
        by simp [terminatedInGrace, Stage.outlasted, Stage.hastened], fun _ => seen.2.2⟩
  | unforced early =>
      cases ends
      refine ⟨iff_of_true rfl seen.2, iff_of_true rfl ?_, fun exited => by cases exited⟩
      cases early <;> simp [Stage.outlasted, Stage.hastened]
  | reaped early =>
      cases ends
      refine ⟨iff_of_true rfl seen.2.1, iff_of_true rfl ?_, fun _ => seen.2.2⟩
      cases early <;> simp [Stage.outlasted, Stage.hastened]
  | probing | cleared | waiting | elapsed | condemned | killed => cases ends

theorem Stands.orderly {stage : Stage} {dropped : Bool}
    (stands : Stands process stage dropped [] deeds) {ended : Except Error TerminationOutcome}
    (outcome : ∀ outcome, ended = .ok outcome → stage.outcome = some outcome)
    (unhastened : stage.hastened = false)
    (reported : Teardown.filed deeds = owed process deeds) : Orderly process ended deeds where
  signals := (seen stands.reached).calls
  aimed := by
    intro deed listed target aim
    obtain ⟨before, after, rfl⟩ := List.append_of_mem listed
    obtain ⟨_, _, _, step, _⟩ := exec_split stands.reached
    cases step <;> cases aim <;> rfl
  cleared := by
    rintro before target signal answer after rfl
    obtain ⟨_, _, reached, step, _⟩ := exec_split stands.reached
    have before_ := seen reached
    cases step with
    | terminates => exact before_.2.2
    | misses failed => exact before_.2.2
    | kills => exact before_.2.2.1
    | escapes failed => exact before_.2.2.1
  compelled := by
    rintro before target answer after rfl
    obtain ⟨_, next, reached, step, rest⟩ := exec_split stands.reached
    have before_ := seen reached
    have inTime : next.hastened = false := by
      rw [Bool.eq_false_iff]
      intro hastened
      rw [hastened_of_exec hastened rest] at unhastened
      cases unhastened
    cases step with
    | kills => exact before_.2.2.2 inTime
    | escapes failed => exact before_.2.2.2 inTime
  reaped := by
    rintro before target after rfl
    obtain ⟨_, _, _, step, rest⟩ := exec_split stands.reached
    cases step with
    | escapes failed => exact absurd rfl failed
    | kills =>
        rcases exec_killed rest with ⟨empty, killed⟩ | exits
        · right
          refine ⟨empty, ?_⟩
          cases ended with
          | error error => exact ⟨error, rfl⟩
          | ok value =>
              have final := outcome value rfl
              rw [killed] at final
              cases final
        · exact .inl exits
  delivered := fun value ends => ((seen stands.reached).outcome (outcome value ends)).1
  escalated := by
    intro value ends escalated
    have lapsed := ((seen stands.reached).outcome (outcome value ends)).2.1.mp escalated
    exact (elapsed_iff stands.reached).mpr (lapsed.resolve_right (by simp [unhastened]))
  waited := fun value ends => ((seen stands.reached).outcome (outcome value ends)).2.2
  reported := reported
  echoed := stands.echoed

/-- Past an early end of the grace a teardown has killed the child or says that it
escalated. -/
theorem Stands.not_orderly {stage : Stage} {dropped : Bool}
    (stands : Stands process stage dropped [] deeds) {ended : Except Error TerminationOutcome}
    (ending : (∃ outcome, ended = .ok outcome ∧ stage.outcome = some outcome) ∨
      stage.isKilled = true) (hastened : stage.hastened = true) :
    ¬ Orderly process ended deeds := by
  intro orderly
  have early : ¬ .graceElapsed ∈ deeds := by
    rw [elapsed_iff stands.reached]
    cases stage <;> simp_all [Stage.outlasted, Stage.hastened]
  rcases ending with ⟨outcome, ends, final⟩ | killed
  · have escalated := ((seen stands.reached).outcome final).2.1.mpr (.inr hastened)
    exact early (orderly.escalated outcome ends escalated)
  · have called : calls deeds = [.terminate, .kill] := by
      have seen := seen stands.reached
      cases stage with
      | killed => exact seen.1
      | _ => cases killed
    have compelled : .kill ∈ calls deeds := by simp [called]
    obtain ⟨deed, listed, kill⟩ := List.mem_filterMap.mp compelled
    obtain ⟨before, after, rfl⟩ := List.append_of_mem listed
    cases deed with
    | signalled target signal answer =>
        cases kill
        exact early (List.mem_append_left _
          (orderly.compelled before target answer after rfl).elapsed)
    | _ => cases kill

/-- An answer that was dropped is missing from the reports. -/
theorem Stands.orderly_iff {stage : Stage} {dropped : Bool}
    (stands : Stands process stage dropped [] deeds) {ended : Except Error TerminationOutcome}
    (outcome : ∀ outcome, ended = .ok outcome → stage.outcome = some outcome)
    (ending : stage.hastened = true → (∃ outcome, ended = .ok outcome) ∨
      stage.isKilled = true) :
    Orderly process ended deeds ↔ dropped = false ∧ stage.hastened = false := by
  constructor
  · intro orderly
    have tally := stands.tally
    rw [orderly.reported] at tally
    refine ⟨?_, ?_⟩
    · cases dropped with
      | false => rfl
      | true => simp at tally
    · rw [Bool.eq_false_iff]
      intro hastened
      refine stands.not_orderly ?_ hastened orderly
      exact (ending hastened).imp_left fun ⟨value, ends⟩ => ⟨value, ends, outcome value ends⟩
  · rintro ⟨kept, unhastened⟩
    refine stands.orderly outcome unhastened ?_
    rw [stands.filed kept, List.append_nil]

/-- A teardown from its first probe on. -/
def Process.run (process : Process Execution) (answers : Answers Error) :
    Except Error TerminationOutcome × List (Deed Error Execution) :=
  match process.terminateProcessWithWait answers [] with
  | .ok outcome deeds => (.ok outcome, deeds)
  | .error error deeds => (.error error, deeds)

/-- A teardown keeps to what it promises exactly if its grace loses no answer and is not
taken for elapsed at a `TimeoutError` of the child's wait. -/
theorem teardown_orderly_iff (process : Process Execution) (answers : Answers Error) :
    Orderly process (process.run answers).1 (process.run answers).2 ↔
      process.drops answers = false ∧ process.mistakes answers = false := by
  have ends := terminateProcessWithWait_ends process answers
  unfold Ends at ends
  unfold Process.run
  cases ran : process.terminateProcessWithWait answers [] with
  | ok outcome deeds =>
      rw [ran] at ends
      obtain ⟨stage, final, hastened, stands⟩ := ends
      rw [← hastened]
      apply stands.orderly_iff
      · rintro value same
        cases same
        exact final
      · exact fun _ => .inl ⟨outcome, rfl⟩
  | error error deeds =>
      rw [ran] at ends
      obtain ⟨stage, hastened, killed, stands⟩ := ends
      rw [← hastened] at killed ⊢
      apply stands.orderly_iff
      · rintro value same
        cases same
      · exact fun early => .inr (killed early)

def ownedProcess : Process Nat where
  pid := some 7
  owns := .all true
  observation := some 0

/-- The group can no longer be signalled while the leader runs on, the grace elapses, and
the group is found empty after it. -/
def lostAnswers : Answers Nat where
  first := ⟨false, .members⟩
  grace := [.polled .unsignalable]
  second := ⟨true, .empty⟩

theorem grace_answer_is_lost :
    (ownedProcess.run lostAnswers).1 = .ok killedAfterGraceUnwaited ∧
      .probed (.group 7) .unsignalable ∈ (ownedProcess.run lostAnswers).2 ∧
      filed (ownedProcess.run lostAnswers).2 = [] ∧
      ¬ Orderly ownedProcess (ownedProcess.run lostAnswers).1
        (ownedProcess.run lostAnswers).2 := by
  refine ⟨rfl, by decide, rfl, ?_⟩
  intro orderly
  exact absurd orderly.reported (by decide)

end Cuprum.Teardown
