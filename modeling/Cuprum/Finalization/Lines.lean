import Cuprum.Finalization.Runs
import Cuprum.Finalization.Steps

namespace Cuprum.Finalization

open Cuprum.Effect

variable {closed told drained : Bool} {env : Env 1} {ledger : Ledger 1}

/-- The line stream's finalizer reaches each of its steps, unless a hook raises out of
a terminal event that is emitted safely. -/
def Env.settlesLines (env : Env 1) : Bool :=
  (env.raises .openSink).isSome || (env.closesAt .session &&
    ((env.raises .build).isSome || (env.raises .refresh).isSome || env.quietTerminals ||
      (env.plans only && (env.raises (.before only)).isNone &&
        (env.raises .execute).isNone && (env.raises (.after only)).isNone)))

theorem Env.settlesLines_opened (settles : env.settlesLines = true)
    (opened : env.raises .openSink = none) : env.closesAt .session = true := by
  simp only [Env.settlesLines, opened, Option.isSome_none, Bool.false_or,
    Bool.and_eq_true] at settles
  exact settles.1

theorem drainLineStreamTasks_comes {failure : Option Raised}
    (reached : ledger.Reached closed told drained) :
    Comes (shieldedCleanup env .drain (drainLineStreamTasks env failure))
      (Ledger.Reached closed told true) ledger := by
  apply shieldedCleanup_comes
  unfold drainLineStreamTasks
  split
  · exact waitForExecHookTasks_comes reached
  · exact waitForExecHookTasks_comes reached
  · exact drainTasksDuringCleanup_comes reached

/-- What an iteration still owes: the settled event, unless it has been told. -/
theorem emitLineStreamError_ends {failure : Option Raised}
    (tells : told = true ∨ failure.isSome = true ∧ env.quietTerminals = true)
    (reached : ledger.Reached closed told drained) :
    Ends (emitLineStreamError env failure) (fun _ => Ledger.Reached closed true false)
      (fun _ _ => False) ledger := by
  have lessen : ∀ {drained : Bool} {after : Ledger 1}, after.Reached closed true drained →
      after.Reached closed true false :=
    fun reached => { reached with drained := fun wrong => nomatch wrong }
  cases told with
  | true =>
      cases failure with
      | none => exact Ends.returns (lessen reached)
      | some error =>
          apply (safeEmitTerminal_told reached).mono
          · exact fun _ _ told => lessen told
          · exact fun _ _ wrong => wrong
  | false =>
      obtain ⟨fails, quiet⟩ := tells.resolve_left Bool.false_ne_true
      obtain ⟨error, rfl⟩ := Option.isSome_iff_exists.mp fails
      have none : ledger.Told fun _ => False := fun _ wrong => nomatch wrong
      apply (safeEmitTerminal_ends quiet reached none).mono
      · rintro _ after ⟨emitted, tells⟩
        exact { emitted with
          told := fun _ stage => tells stage (.inl (Subsingleton.elim stage only)) }
      · exact fun _ _ wrong => wrong

theorem absorbCoordinator_comes (reached : ledger.Reached closed told drained) :
    Comes (absorbCoordinator env) (Ledger.Reached closed told false) ledger := by
  apply Ends.bind
  apply Ends.reads
  split
  · exact shieldedCleanup_comes (execute_comes reached)
  · exact Ends.returns { reached with drained := fun wrong => nomatch wrong }

theorem reconcileLineStream_comes {failure : Option Raised}
    (tells : told = true ∨ failure.isSome = true ∧ env.quietTerminals = true)
    (reached : ledger.Reached closed told drained) :
    Comes (reconcileLineStream env failure) (Ledger.Reached closed true true) ledger := by
  apply Ends.bind
  apply Ends.handle
  apply (absorbCoordinator_comes reached).mono
  · intro _ absorbed reached
    apply Ends.bind
    apply (emitLineStreamError_ends tells reached).mono
    · exact fun _ _ told => drainLineStreamTasks_comes told
    · exact fun _ _ wrong => nomatch wrong
  · intro error absorbed reached
    apply Ends.bind
    apply (emitLineStreamError_ends tells reached).mono
    · exact fun _ _ told => (drainLineStreamTasks_comes told).rethrow
    · exact fun _ _ wrong => nomatch wrong

/-- Nothing has been planned before the iteration could be awaited. -/
def Ledger.Iterates (ledger : Ledger 1) (closed told : Bool) : Prop :=
  ledger.Reached closed told false ∧
    (ledger.iteration = .unbuilt ∨ ledger.iteration = .built →
      ledger.Reached closed true true)

theorem reconcileAndClose_comes {failure : Option Raised}
    (tells : (ledger.iteration = .awaitable ∨ ledger.iteration = .coordinated) →
      told = true ∨ failure.isSome = true ∧ env.quietTerminals = true)
    (iterates : ledger.Iterates closed told) :
    Comes (reconcileAndClose env failure) (Ledger.Reached closed true true) ledger := by
  apply Ends.bind
  apply Ends.reads
  split
  · rename_i unbuilt
    exact Ends.returns (iterates.2 (.inl unbuilt))
  · have reconciled : Comes (reconcileIfStarted env failure)
        (Ledger.Reached closed true true) ledger := by
      apply Ends.bind
      apply Ends.reads
      cases iteration : ledger.iteration with
      | unbuilt => exact Ends.returns (iterates.2 (.inl iteration))
      | built => exact Ends.returns (iterates.2 (.inr iteration))
      | awaitable => exact reconcileLineStream_comes (tells (.inl iteration)) iterates.1
      | coordinated => exact reconcileLineStream_comes (tells (.inr iteration)) iterates.1
    apply Ends.ensure
    apply reconciled.mono
    · exact fun _ _ settled => shieldedCleanup_comes (call_comes settled)
    · exact fun _ _ settled => shieldedCleanup_comes (call_comes settled)

theorem settleLineIteration_comes {failure : Option Raised}
    (closes : closed = true ∨ env.closesAt .session = true)
    (tells : (ledger.iteration = .awaitable ∨ ledger.iteration = .coordinated) →
      told = true ∨ failure.isSome = true ∧ env.quietTerminals = true)
    (iterates : ledger.Iterates closed told) :
    Comes (settleLineIteration env failure) (Ledger.Reached true true true) ledger := by
  apply Ends.ensure
  apply (reconcileAndClose_comes tells iterates).mono
  · exact fun _ _ settled => shieldedClose_comes closes settled
  · exact fun _ _ settled => shieldedClose_comes closes settled

/-- Where the body of an iteration can raise to. -/
def Ledger.Owes (env : Env 1) (ledger : Ledger 1) : Prop :=
  ∃ closed, (closed = true ∨ env.closesAt .session = true) ∧
    (ledger.Reached closed true true ∨
      ∃ told, ledger.Reached closed told false ∧
        (ledger.iteration = .awaitable ∨ ledger.iteration = .coordinated) ∧
        (told = true ∨ env.quietTerminals = true))

theorem settleLineIteration_owes {error : Raised} (owes : ledger.Owes env) :
    Comes (settleLineIteration env (some error)) (Ledger.Reached true true true) ledger := by
  obtain ⟨closed, closes, reached | ⟨told, reached, awaited, tells⟩⟩ := owes
  · apply settleLineIteration_comes closes (fun _ => .inl rfl)
    exact ⟨{ reached with drained := fun wrong => nomatch wrong }, fun _ => reached⟩
  · apply settleLineIteration_comes closes
    · exact fun _ => tells.imp_right fun quiet => ⟨rfl, quiet⟩
    · refine ⟨reached, fun early => ?_⟩
      rcases awaited with iteration | iteration <;> simp [iteration] at early

theorem startLineIteration_ends (settles : env.settlesLines = true) :
    Ends (startLineIteration env)
      (fun _ after => after.Reached false false false ∧ after.iteration = .coordinated ∧
        env.closesAt .session = true ∧ (env.quietTerminals = true ∨
          env.raises .execute = none ∧ env.raises (.after only) = none))
      (fun _ after => after.Owes env) {} := by
  apply Ends.bind
  apply openSession_ends
  · intro opened reached unbuilt opens
    have closes := env.settlesLines_opened settles opens
    apply Ends.bind
    apply call_ends
    · intro builds
      apply Ends.bind
      apply Ends.updates
      have built : Ledger.Reached false true true { opened with iteration := .built } :=
        { reached with }
      apply Ends.bind
      apply call_ends
      · intro refreshes
        have quiet : env.quietTerminals = true ∨ env.plans only = true ∧
            env.raises (.before only) = none ∧ env.raises .execute = none ∧
            env.raises (.after only) = none := by
          simpa [Env.settlesLines, opens, builds, refreshes, closes, and_assoc] using settles
        have awaitable : Ledger.Reached false true true
            { opened with iteration := .awaitable } :=
          { reached with }
        apply Ends.bind
        apply Ends.updates
        apply Ends.bind
        apply ((emitPlan_ends awaitable).both (emitPlan_stays only)).mono
        · rintro _ planned ⟨⟨reached, plans⟩, stays⟩
          apply Ends.bind
          apply call_ends
          · intro before
            apply Ends.updates
            exact ⟨{ reached with }, rfl, closes, quiet.imp_right fun rest => rest.2.2⟩
          · intro error before
            have quiet := quiet.resolve_right (by simp [before])
            exact ⟨false, .inr closes, .inr ⟨false, reached, .inl stays, .inr quiet⟩⟩
        · rintro error planned ⟨⟨reached, plans⟩, stays⟩
          have quiet := quiet.resolve_right (by simp [plans])
          exact ⟨false, .inr closes, .inr ⟨false, reached, .inl stays, .inr quiet⟩⟩
      · exact fun _ _ => ⟨false, .inr closes, .inl built⟩
    · exact fun _ _ => ⟨false, .inr closes, .inl reached⟩
  · intro error _
    exact ⟨true, .inl rfl, .inl Ledger.Reached.initially⟩

theorem publishLineCompletion_ends (reached : ledger.Reached closed told drained)
    (tells : env.quietTerminals = true ∨ env.raises (.after only) = none) :
    Ends (publishLineCompletion env) (fun _ => Ledger.Reached closed true false)
      (fun _ after => ∃ told, after.Reached closed told false ∧
        (told = true ∨ env.quietTerminals = true)) ledger := by
  have none : ledger.Told fun _ => False := fun _ wrong => nomatch wrong
  have tellAll : ∀ {after : Ledger 1}, after.Reached closed told false →
      (after.Told fun other => other = only ∨ False) → after.Reached closed true false := by
    intro after emitted tells
    exact { emitted with
      told := fun _ stage => tells stage (.inl (Subsingleton.elim stage only)) }
  apply Ends.bind
  apply call_ends
  · intro _
    apply (emitTerminal_ends reached none).mono
    · rintro _ after ⟨emitted, tells⟩
      exact tellAll emitted tells
    · rintro error after ⟨_, emitted, tells⟩
      exact ⟨true, tellAll emitted tells, .inl rfl⟩
  · intro error fails
    have quiet := tells.resolve_right (by simp [fails])
    exact ⟨told, { reached with drained := fun wrong => nomatch wrong }, .inr quiet⟩

theorem publishLineCompletion_stays : Stays (publishLineCompletion env) ledger := by
  apply Ends.bind
  apply call_ends
  · exact fun _ => emitTerminal_stays only
  · exact fun _ _ => rfl

theorem iterLineEvents_comes (settles : env.settlesLines = true) :
    Comes (iterLineEvents env) (Ledger.Reached true true true) {} := by
  have body : Ends (do
        startLineIteration env
        execute env .execute
        publishLineCompletion env
        call env .yieldResult)
      (fun _ after => after.Iterates false true ∧ env.closesAt .session = true)
      (fun _ after => after.Owes env) {} := by
    apply Ends.bind
    apply (startLineIteration_ends settles).mono
    · rintro _ started ⟨reached, coordinated, closes, quiet⟩
      apply Ends.bind
      apply ((execute_ends reached).both (execute_stays .execute)).mono
      · rintro _ executed ⟨⟨reached, _⟩, stays⟩
        have tells := quiet.imp_right And.right
        apply Ends.bind
        apply ((publishLineCompletion_ends reached tells).both publishLineCompletion_stays).mono
        · rintro _ published ⟨reached, kept⟩
          have awaited := kept.trans (stays.trans coordinated)
          apply call_ends
          · intro _
            refine ⟨⟨reached, fun early => ?_⟩, closes⟩
            simp [awaited] at early
          · intro error _
            exact ⟨false, .inr closes, .inr ⟨true, reached, .inr awaited, .inl rfl⟩⟩
        · rintro error published ⟨⟨told, reached, tells⟩, kept⟩
          have awaited := kept.trans (stays.trans coordinated)
          exact ⟨false, .inr closes, .inr ⟨told, reached, .inr awaited, tells⟩⟩
      · rintro error executed ⟨⟨reached, fails⟩, stays⟩
        have quiet := quiet.resolve_right (by simp [fails])
        have awaited := stays.trans coordinated
        exact ⟨false, .inr closes, .inr ⟨false, reached, .inr awaited, .inr quiet⟩⟩
    · exact fun _ _ owes => owes
  apply Ends.bind
  apply Ends.handle
  apply body.mono
  · rintro _ after ⟨iterates, closes⟩
    exact settleLineIteration_comes (.inr closes) (fun _ => .inl rfl) iterates
  · exact fun _ _ owes => (settleLineIteration_owes owes).rethrow

end Cuprum.Finalization
