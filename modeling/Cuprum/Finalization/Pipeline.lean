import Cuprum.Finalization.Runs
import Cuprum.Finalization.Steps

namespace Cuprum.Finalization

open Cuprum.Effect

variable {count : Nat} {closed told drained : Bool} {env : Env count} {ledger : Ledger count}

def Env.plansStages (env : Env count) (stages : List (Fin count)) : Bool :=
  stages.all fun stage => env.plans stage && (env.raises (.before stage)).isNone

def Env.spawnsPipeline (env : Env count) : Bool :=
  env.plansStages (List.finRange count) && (env.raises .spawn).isNone

def Env.collectError (env : Env count) : Option Raised :=
  (env.raises .execute).or (env.shieldedError .bodyWorker)

/-- Where a pipeline has planned nothing yet, its session is left to the last guard if
the finalizer does not come to its close, or the closing thread there does not start. -/
def Env.closesGuarded (env : Env count) : Bool :=
  if env.unhurt .worker then
    env.closesAt .session || (env.refusesAt .session && env.closesAt .lastGuard)
  else
    env.closesAt .lastGuard

/-- No step of the finalizer that the run reaches keeps it from the next one.  The
failure of a collected pipeline is reconciled under one shield, which a cancellation
does not hurt. -/
def Env.settlesPipeline (env : Env count) : Bool :=
  (env.raises .openSink).isSome ||
    if (env.raises .build).isSome then
      env.closesAt .session
    else if (env.raises .prepare).isSome then
      env.closesGuarded
    else
      env.closesAt .session &&
        if env.spawnsPipeline then
          match env.collectError with
          | none =>
              env.unhurt .session && ((env.raises .results).isNone || env.quietTerminals)
          | some .timedOut =>
              env.unhurt .worker && env.unhurt .session &&
                (env.raises .reports).all Raised.isSuppressed && env.quietTerminals
          | some _ =>
              (env.raises .cancelTasks).isNone && (env.raises .worker).isNone &&
                (env.raises .session).isNone && env.quietTerminals
        else
          env.unhurt .worker && env.unhurt .session && env.quietTerminals

theorem settleObserveTasks_comes (reached : ledger.Reached closed told drained) :
    Comes (settleObserveTasks env) (Ledger.Reached closed told true) ledger := by
  apply Ends.ensure
  apply (drainTasksDuringCleanup_comes reached).mono
  · exact fun _ _ drained => call_comes drained
  · exact fun _ _ drained => call_comes drained

/-- Whatever the body raises, the tasks of the hooks are settled after it. -/
theorem settlingObserveTasks_comes {body : Step count}
    (comes : Comes body (Ledger.Reached closed told drained) ledger) :
    Comes (tryFinally body (shieldedCleanup env .drain (settleObserveTasks env)))
      (Ledger.Reached closed told true) ledger := by
  apply Ends.ensure
  apply comes.mono
  · exact fun _ _ reached => shieldedCleanup_comes (settleObserveTasks_comes reached)
  · exact fun _ _ reached => shieldedCleanup_comes (settleObserveTasks_comes reached)

theorem closeAndTell_comes (closes : env.closesAt .session = true)
    (session : env.unhurt .session = true) (quiet : env.quietTerminals = true) (reached : ledger.Reached closed told drained) :
    Comes (do
        shieldedCleanup env .session (closeSession env .session)
        emitTerminalEvents env)
      (Ledger.Reached true true false) ledger := by
  apply Ends.bind
  apply (shieldedClose_ends closes session reached).mono
  · intro _ after closes
    apply (emitTerminalEvents_ends quiet closes).mono (fun _ _ tells => tells)
    exact fun _ _ wrong => nomatch wrong
  · exact fun _ _ wrong => nomatch wrong

theorem finalizePipelineStageResultFailure_comes (closes : env.closesAt .session = true)
    (session : env.unhurt .session = true) (quiet : env.quietTerminals = true)
    (reached : ledger.Reached closed told drained) :
    Comes (finalizePipelineStageResultFailure env) (Ledger.Reached true true true) ledger :=
  settlingObserveTasks_comes (closeAndTell_comes closes session quiet reached)

theorem emitReports_ends (quiet : (env.raises .reports).all Raised.isSuppressed = true)
    (reached : ledger.Reached closed told drained) :
    Ends (suppressed (emit env .reports)) (fun _ => Ledger.Reached closed told false)
      (fun _ _ => False) ledger := by
  apply suppressed_ends
  unfold emit
  split
  · apply (execute_ends reached).mono
    · exact fun _ _ emitted => emitted.1
    · rintro error after ⟨emitted, answer⟩
      refine ⟨fun _ => emitted, fun loud => ?_⟩
      rw [answer, Option.all_some, loud] at quiet
      cases quiet
  · exact Ends.returns { reached with drained := fun wrong => nomatch wrong }

theorem finalizePipelineTimeout_comes (closes : env.closesAt .session = true)
    (worker : env.unhurt .worker = true) (session : env.unhurt .session = true)
    (reports : (env.raises .reports).all Raised.isSuppressed = true)
    (quiet : env.quietTerminals = true) (reached : ledger.Reached closed told drained) :
    Comes (finalizePipelineTimeout env) (Ledger.Reached true true true) ledger := by
  refine @settlingObserveTasks_comes count true true false env ledger _ ?_
  apply Ends.bind
  apply (shieldedCall_returns worker reached).mono
  · intro _ stopped reached
    apply Ends.bind
    apply (shieldedClose_ends closes session reached).mono
    · intro _ after closes
      apply Ends.bind
      apply (emitReports_ends reports closes).mono
      · intro _ reported closes
        apply (emitTerminalEvents_ends quiet closes).mono (fun _ _ tells => tells)
        exact fun _ _ wrong => nomatch wrong
      · exact fun _ _ wrong => nomatch wrong
    · exact fun _ _ wrong => nomatch wrong
  · exact fun _ _ wrong => nomatch wrong

theorem finalizePipelineRunFailure_comes (closes : env.closesAt .session = true)
    (cancels : env.raises .cancelTasks = none) (worker : env.raises .worker = none)
    (session : env.raises .session = none) (quiet : env.quietTerminals = true) (reached : ledger.Reached closed told drained) :
    Comes (finalizePipelineRunFailure env) (Ledger.Reached true true true) ledger := by
  have silent : ∀ {site : Site count} {error : Raised}, env.raises site = none →
      env.raises site = some error → False := by
    intro site error answer wrong
    rw [answer] at wrong
    cases wrong
  apply shieldedCleanup_comes
  apply Ends.ensure
  have body : Ends (do
        call env .cancelTasks
        call env .worker
        closeSession env .session
        emitTerminalEvents env)
      (fun _ => Ledger.Reached true true false) (fun _ _ => False) ledger := by
    apply Ends.bind
    apply call_ends (fun _ => ?_) (fun _ wrong => silent cancels wrong)
    apply Ends.bind
    apply call_ends (fun _ => ?_) (fun _ wrong => silent worker wrong)
    apply Ends.bind
    apply (closeSession_ends (.inr closes) reached).mono
    · exact fun _ _ closes => emitTerminalEvents_ends quiet closes
    · exact fun _ _ wrong => silent session wrong.1
  apply body.mono
  · exact fun _ _ tells => settleObserveTasks_comes tells
  · exact fun _ _ wrong => nomatch wrong

theorem runAfterHooks_comes (reached : ledger.Reached closed told drained)
    (stages : List (Fin count)) :
    Comes (runAfterHooks env stages) (Ledger.Reached closed told drained) ledger := by
  induction stages with
  | nil => exact Ends.returns reached
  | cons stage stages induction =>
      apply Ends.bind
      exact call_ends (fun _ => induction) (fun _ _ => reached)

theorem finalizePipelineExecution_comes (closes : env.closesAt .session = true)
    (session : env.unhurt .session = true) (reached : ledger.Reached closed told drained) :
    Comes (finalizePipelineExecution env) (Ledger.Reached true true true) ledger := by
  apply Ends.bind
  apply Ends.handle
  apply (runAfterHooks_comes reached (List.finRange count)).mono
  · intro _ ran reached
    apply Ends.bind
    apply (shieldedClose_ends closes session reached).mono
    · intro _ after closes
      apply Ends.bind
      apply Ends.handle
      apply (emitResultTerminalEvents_ends closes).mono
      · intro _ emitted tells
        exact shieldedCleanup_comes (waitForExecHookTasks_comes tells)
      · rintro error emitted ⟨_, tells⟩
        exact (shieldedDrain_comes tells).rethrow
    · exact fun _ _ wrong => nomatch wrong
  · intro error ran reached
    apply Ends.bind
    apply (shieldedClose_ends closes session reached).mono
    · intro _ after closes
      apply Ends.bind
      apply (emitResultTerminalEvents_ends closes).mono
      · exact fun _ _ tells => (shieldedDrain_comes tells).rethrow
      · exact fun _ _ wrong => nomatch wrong.1
    · exact fun _ _ wrong => nomatch wrong

/-- What the run of a spawned pipeline asks of its steps. -/
def Env.settlesSpawned (env : Env count) : Prop :=
  match env.collectError with
  | none => env.unhurt .session = true ∧
      (env.raises .results = none ∨ env.quietTerminals = true)
  | some .timedOut => env.unhurt .worker = true ∧ env.unhurt .session = true ∧
      (env.raises .reports).all Raised.isSuppressed = true ∧ env.quietTerminals = true
  | some _ => env.raises .cancelTasks = none ∧ env.raises .worker = none ∧
      env.raises .session = none ∧ env.quietTerminals = true

theorem collectAndSettlePipelineInputs_ends (reached : ledger.Reached closed told drained) :
    Ends (collectAndSettlePipelineInputs env)
      (fun _ after => after.Reached closed told false ∧ env.collectError = none)
      (fun error after => after.Reached closed told false ∧
        env.collectError = some error) ledger := by
  apply Ends.bind
  apply (execute_ends reached).mono
  · rintro _ executed ⟨reached, executes⟩
    apply shieldedCall_ends
    · intro stops
      exact ⟨reached, by rw [Env.collectError, executes, stops, Option.none_or]⟩
    · intro error stops
      exact ⟨reached, by rw [Env.collectError, executes, stops, Option.none_or]⟩
  · rintro error executed ⟨reached, executes⟩
    exact ⟨reached, by rw [Env.collectError, executes, Option.some_or]⟩

theorem finalizeExpired_comes (closes : env.closesAt .session = true)
    (settles : env.settlesSpawned)
    (expired : env.collectError = some .timedOut)
    (reached : ledger.Reached closed told drained) :
    Comes (finalizePipelineTimeout env) (Ledger.Reached true true true) ledger := by
  unfold Env.settlesSpawned at settles
  rw [expired] at settles
  obtain ⟨worker, session, reports, quiet⟩ := settles
  exact finalizePipelineTimeout_comes closes worker session reports quiet reached

theorem finalizeFailed_comes {error : Raised} (closes : env.closesAt .session = true)
    (settles : env.settlesSpawned)
    (fails : env.collectError = some error) (unexpired : error ≠ .timedOut)
    (reached : ledger.Reached closed told drained) :
    Comes (finalizePipelineRunFailure env) (Ledger.Reached true true true) ledger := by
  unfold Env.settlesSpawned at settles
  rw [fails] at settles
  obtain ⟨cancels, worker, session, quiet⟩ : env.raises .cancelTasks = none ∧
      env.raises .worker = none ∧ env.raises .session = none ∧
      env.quietTerminals = true := by
    cases error with
    | timedOut => exact absurd rfl unexpired
    | cancelled | failed | generatorExit | fatal => exact settles
  exact finalizePipelineRunFailure_comes closes cancels worker session quiet reached

theorem runSpawnedPipeline_comes (closes : env.closesAt .session = true)
    (settles : env.settlesSpawned) (reached : ledger.Reached closed told drained) :
    Comes (runSpawnedPipeline env) (Ledger.Reached true true true) ledger := by
  apply Ends.bind
  apply Ends.handle
  apply (collectAndSettlePipelineInputs_ends reached).mono
  · rintro _ collected ⟨reached, collects⟩
    unfold Env.settlesSpawned at settles
    rw [collects] at settles
    obtain ⟨session, results⟩ := settles
    apply Ends.bind
    apply Ends.handle
    apply (execute_ends reached).mono
    · rintro _ resulted ⟨reached, _⟩
      apply Ends.ensure
      apply (finalizePipelineExecution_comes closes session reached).mono
      · exact fun _ _ settled => shieldedCleanup_comes (call_comes settled)
      · exact fun _ _ settled => shieldedCleanup_comes (call_comes settled)
    · rintro error resulted ⟨reached, fails⟩
      have quiet := results.resolve_left (by simp [fails])
      exact (finalizePipelineStageResultFailure_comes closes session quiet reached).rethrow
  · rintro error collected ⟨reached, fails⟩
    by_cases expired : error = .timedOut
    · subst expired
      exact (finalizeExpired_comes closes settles fails reached).rethrow
    · simp only [if_neg expired]
      exact (finalizeFailed_comes closes settles fails expired reached).rethrow

theorem emitPlanEventsAndRunBeforeHooks_ends (stages : List (Fin count)) :
    ∀ {told drained : Bool} {ledger : Ledger count}, ledger.Reached closed told drained →
      Ends (emitPlanEventsAndRunBeforeHooks env stages)
        (fun _ after => after.Reached closed false false ∧ env.plansStages stages = true)
        (fun _ after => after.Reached closed false false ∧ env.plansStages stages = false)
        ledger := by
  induction stages with
  | nil =>
      intro told drained ledger reached
      apply Ends.returns
      exact ⟨{ reached with
        told := fun wrong => nomatch wrong
        drained := fun wrong => nomatch wrong }, rfl⟩
  | cons stage stages induction =>
      intro told drained ledger reached
      apply Ends.bind
      apply (emitPlan_ends reached).mono
      · rintro _ planned ⟨reached, plans⟩
        apply Ends.bind
        apply call_ends
        · intro before
          have rest : env.plansStages (stage :: stages) = env.plansStages stages := by
            simp [Env.plansStages, plans, before]
          rw [rest]
          exact induction reached
        · intro error before
          exact ⟨reached, by simp [Env.plansStages, before]⟩
      · rintro error planned ⟨reached, plans⟩
        exact ⟨reached, by simp [Env.plansStages, plans]⟩

theorem spawnPipelineProcesses_ends (quiet : env.raises .spawn ≠ none → env.quietTerminals = true)
    (reached : ledger.Reached closed told drained) :
    Ends (spawnPipelineProcesses env)
      (fun _ after => after.Reached closed false false ∧ env.raises .spawn = none)
      (fun _ after => after.Reached closed false false ∧ env.raises .spawn ≠ none)
      ledger := by
  have lessen : ∀ {told : Bool} {after : Ledger count}, after.Reached closed told false →
      after.Reached closed false false :=
    fun reached => { reached with told := fun wrong => nomatch wrong }
  apply Ends.handle
  apply (execute_ends reached).mono
  · exact fun _ _ spawned => ⟨lessen spawned.1, spawned.2⟩
  · rintro error after ⟨reached, fails⟩
    have spawn : env.raises .spawn ≠ none := by simp [fails]
    apply Ends.bind
    apply call_ends
    · intro _
      apply Ends.bind
      apply (emitTerminalEvents_ends (quiet spawn) reached).mono
      · exact fun _ _ tells => Ends.raises ⟨lessen tells, spawn⟩
      · exact fun _ _ wrong => nomatch wrong
    · exact fun _ _ => ⟨lessen reached, spawn⟩

theorem Env.spawnsPipeline_of_raised (raises : env.raises .spawn ≠ none) :
    env.spawnsPipeline = false := by
  have spawn : (env.raises .spawn).isNone = false := by
    rw [← Bool.not_eq_true, Option.isNone_iff_eq_none]
    exact raises
  rw [Env.spawnsPipeline, spawn, Bool.and_false]

theorem Env.settlesPipeline_unbuilt (settles : env.settlesPipeline = true)
    (opened : env.raises .openSink = none) {error : Raised}
    (fails : env.raises .build = some error) : env.closesAt .session = true := by
  simpa [Env.settlesPipeline, opened, fails] using settles

theorem Env.settlesPipeline_unprepared (settles : env.settlesPipeline = true)
    (opened : env.raises .openSink = none) (builds : env.raises .build = none)
    {error : Raised} (fails : env.raises .prepare = some error) :
    env.closesGuarded = true := by
  simpa [Env.settlesPipeline, opened, builds, fails] using settles

theorem Env.settlesPipeline_prepared (settles : env.settlesPipeline = true)
    (opened : env.raises .openSink = none) (builds : env.raises .build = none)
    (prepared : env.raises .prepare = none) : env.closesAt .session = true := by
  simp only [Env.settlesPipeline, opened, builds, prepared, Option.isSome_none,
    Bool.false_or, Bool.false_eq_true, if_false, Bool.and_eq_true] at settles
  exact settles.1

theorem Env.settlesPipeline_unspawned (settles : env.settlesPipeline = true)
    (opened : env.raises .openSink = none) (builds : env.raises .build = none)
    (prepared : env.raises .prepare = none) (fails : env.spawnsPipeline = false) :
    env.unhurt .worker = true ∧ env.unhurt .session = true ∧ env.quietTerminals = true := by
  simp only [Env.settlesPipeline, opened, builds, prepared, fails, Option.isSome_none,
    Bool.false_or, Bool.false_eq_true, if_false, Bool.and_eq_true, and_assoc] at settles
  exact settles.2

theorem Env.settlesPipeline_spawned (settles : env.settlesPipeline = true)
    (opened : env.raises .openSink = none) (builds : env.raises .build = none)
    (prepared : env.raises .prepare = none) (spawns : env.spawnsPipeline = true) :
    env.settlesSpawned := by
  simp only [Env.settlesPipeline, opened, builds, prepared, spawns, Option.isSome_none,
    Bool.false_or, Bool.false_eq_true, if_false, if_true, Bool.and_eq_true] at settles
  replace settles := settles.2
  unfold Env.settlesSpawned
  cases collected : env.collectError with
  | none => simpa [collected] using settles
  | some error =>
      cases error <;> simpa [collected, and_assoc] using settles

theorem finalizeUnspawned_comes (closes : env.closesAt .session = true)
    (worker : env.unhurt .worker = true) (session : env.unhurt .session = true)
    (quiet : env.quietTerminals = true) (reached : ledger.Reached closed told drained) :
    Comes (finalizeUnspawned env) (Ledger.Reached true true true) ledger := by
  apply Ends.bind
  apply (shieldedCall_returns worker reached).mono
  · intro _ stopped reached
    apply Ends.bind
    apply (shieldedClose_ends closes session reached).mono
    · intro _ after closes
      apply Ends.bind
      apply (emitTerminalEvents_ends quiet closes).mono
      · exact fun _ _ tells => shieldedDrain_comes tells
      · exact fun _ _ wrong => nomatch wrong
    · exact fun _ _ wrong => nomatch wrong
  · exact fun _ _ wrong => nomatch wrong

/-- What is left of a run for its last guard: at most the close of the session. -/
def Ledger.Guarded (env : Env count) (ledger : Ledger count) : Prop :=
  ∃ closed, (closed = true ∨ env.closesAt .lastGuard = true) ∧
    ledger.Reached closed true true

theorem Ledger.Reached.guarded (reached : ledger.Reached true true true) :
    ledger.Guarded env :=
  ⟨true, .inl rfl, reached⟩

theorem closeSession_guarded (reached : ledger.Reached false true true)
    (closes : (env.closesAt .session ||
      (env.refusesAt .session && env.closesAt .lastGuard)) = true) :
    Ends (closeSession env .session) (fun _ => Ledger.Reached true true true)
      (fun _ => Ledger.Guarded env) ledger := by
  rw [Bool.or_eq_true, Bool.and_eq_true] at closes
  by_cases closable : env.closesAt .session = true
  · apply (closeSession_ends (.inr closable) reached).mono (fun _ _ closes => closes)
    exact fun _ _ closes => closes.2.guarded
  · obtain ⟨refuses, guard⟩ := closes.resolve_left closable
    rw [Bool.not_eq_true] at closable
    apply (closeSession_refused refuses reached closable).mono (fun _ _ closes => closes)
    exact fun _ _ kept => ⟨false, .inr guard, kept⟩

/-- A failure before anything is planned leaves nothing to tell and nothing to drain. -/
theorem finalizeUnspawned_told (guarded : env.closesGuarded = true)
    (reached : ledger.Reached false true true) :
    Comes (finalizeUnspawned env) (Ledger.Guarded env) ledger := by
  unfold Env.closesGuarded at guarded
  apply Ends.bind
  apply shieldedCall_ends
  · intro stops
    rw [if_pos (env.shieldedError_none.mp stops)] at guarded
    have told : ∀ after : Ledger count, after.Reached true true true →
        Comes (do
            emitTerminalEvents env
            shieldedCleanup env .drain (drainTasksDuringCleanup env))
          (Ledger.Guarded env) after := by
      intro after closes
      apply Ends.bind
      apply (emitTerminalEventsOf_told closes).mono
      · intro _ emitted tells
        apply (shieldedDrain_comes tells).mono
        · exact fun _ _ drained => drained.guarded
        · exact fun _ _ drained => drained.guarded
      · exact fun _ _ wrong => nomatch wrong
    apply Ends.bind
    apply Ends.shield
    · apply (closeSession_guarded reached guarded).mono
      · exact fun _ after closes => told after closes
      · exact fun _ _ kept => kept
    · intro error _
      have comes : Comes (closeSession env .session) (Ledger.Guarded env) ledger := by
        apply (closeSession_guarded reached guarded).mono
        · exact fun _ _ closes => closes.guarded
        · exact fun _ _ kept => kept
      exact ends_left_iff.mp comes
  · intro error stops
    have hurt : ¬env.unhurt .worker = true := by
      rw [← env.shieldedError_none, stops]
      simp
    rw [if_neg hurt] at guarded
    exact ⟨false, .inr guarded, reached⟩

theorem spawnAndDrivePipeline_ends (settles : env.settlesPipeline = true)
    (opened : env.raises .openSink = none) (builds : env.raises .build = none)
    (reached : ledger.Reached false true true) :
    Ends (spawnAndDrivePipeline env) (fun _ => Ledger.Reached true true true)
      (fun _ => Ledger.Guarded env) ledger := by
  apply Ends.bind
  apply Ends.handle
  apply Ends.bind
  apply call_ends
  · intro prepared
    have closes := env.settlesPipeline_prepared settles opened builds prepared
    have fails : ∀ after : Ledger count, env.spawnsPipeline = false →
        after.Reached false false false →
        Comes (finalizeUnspawned env) (Ledger.Guarded env) after := by
      intro after fails reached
      obtain ⟨worker, session, quiet⟩ :=
        env.settlesPipeline_unspawned settles opened builds prepared fails
      apply (finalizeUnspawned_comes closes worker session quiet reached).mono
      · exact fun _ _ settled => settled.guarded
      · exact fun _ _ settled => settled.guarded
    apply Ends.bind
    apply (emitPlanEventsAndRunBeforeHooks_ends (List.finRange count) reached).mono
    · rintro _ planned ⟨reached, plans⟩
      have quiet : env.raises .spawn ≠ none → env.quietTerminals = true := by
        intro spawn
        have unspawned := env.spawnsPipeline_of_raised spawn
        exact (env.settlesPipeline_unspawned settles opened builds prepared unspawned).2.2
      apply (spawnPipelineProcesses_ends quiet reached).mono
      · rintro _ spawned ⟨reached, spawns⟩
        have spawned := env.settlesPipeline_spawned settles opened builds prepared
          (by simp [Env.spawnsPipeline, plans, spawns])
        apply (runSpawnedPipeline_comes closes spawned reached).mono
        · exact fun _ _ settled => settled
        · exact fun _ _ settled => settled.guarded
      · rintro error spawned ⟨reached, spawn⟩
        exact (fails spawned (env.spawnsPipeline_of_raised spawn) reached).rethrow
    · rintro error planned ⟨reached, plans⟩
      have unspawned : env.spawnsPipeline = false := by simp [Env.spawnsPipeline, plans]
      exact (fails planned unspawned reached).rethrow
  · intro error fails
    have guarded := env.settlesPipeline_unprepared settles opened builds fails
    exact (finalizeUnspawned_told guarded reached).rethrow

theorem runPipeline_ends (settles : env.settlesPipeline = true)
    (opened : env.raises .openSink = none) (builds : env.raises .build = none)
    (reached : ledger.Reached false true true) :
    Ends (runPipeline env) (fun _ => Ledger.Reached true true true)
      (fun _ => Ledger.Guarded env) ledger := by
  apply Ends.ensure
  apply (spawnAndDrivePipeline_ends settles opened builds reached).mono
  · intro _ driven settled
    apply (shieldedCleanup_comes (call_comes settled)).mono (fun _ _ settled => settled)
    exact fun _ _ settled => settled.guarded
  · exact fun _ _ guarded => shieldedCleanup_comes (call_comes guarded)

/-- The outer guard closes what the runner has left open. -/
theorem pipelineRun_comes (settles : env.settlesPipeline = true) :
    Comes (pipelineRun env) (Ledger.Reached true true true) {} := by
  apply Ends.bind
  apply Ends.bind
  apply openSession_ends
  · intro opened reached _ opens
    apply Ends.handle
    apply call_ends
    · intro builds
      apply Ends.handle
      apply (runPipeline_ends settles opens builds reached).mono (fun _ _ settled => settled)
      rintro error after ⟨closed, closes, reached⟩
      exact (shieldedClose_comes closes reached).rethrow
    · intro error fails
      have closes := env.settlesPipeline_unbuilt settles opens fails
      apply Ends.bind
      apply Ends.handle
      apply (closeSession_ends (.inr closes) reached).mono
      · exact fun _ _ closes => Ends.raises closes
      · exact fun _ _ closes => Ends.returns (Ends.raises closes.2)
  · exact fun _ _ => Ledger.Reached.initially

end Cuprum.Finalization
