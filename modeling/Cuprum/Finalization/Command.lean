import Cuprum.Finalization.Runs
import Cuprum.Finalization.Steps

namespace Cuprum.Finalization

open Cuprum.Effect

variable {closed told drained : Bool} {env : Env 1} {ledger : Ledger 1}

def Env.preparesCommand (env : Env 1) : Bool :=
  (env.raises .prepare).isNone && env.plans only && (env.raises (.before only)).isNone &&
    (env.raises .build).isNone

def Env.executesCommand (env : Env 1) : Bool :=
  (env.raises .execute).isNone && env.unhurt .bodyWorker && (env.raises (.after only)).isNone

/-- No step of the finalizer that the run reaches keeps it from the next one. -/
def Env.settlesCommand (env : Env 1) : Bool :=
  (env.raises .openSink).isSome || (env.closesAt .session && ((env.raises .prepare).isSome ||
    if env.preparesCommand then
      env.unhurt .worker && env.unhurt .session &&
        (env.executesCommand || env.quietTerminals)
    else
      env.unhurt .session && env.quietTerminals))

theorem finalizePreparedCommandFailure_told (closes : env.closesAt .session = true)
    (reached : ledger.Reached closed true true) :
    Comes (finalizePreparedCommandFailure env) (Ledger.Reached true true true) ledger := by
  apply Ends.bind
  apply (shieldedClose_comes (.inr closes) reached).mono
  · intro _ after closes
    apply Ends.bind
    apply (safeEmitTerminal_told closes).mono
    · exact fun _ _ emitted => shieldedDrain_comes emitted
    · exact fun _ _ wrong => nomatch wrong
  · exact fun _ _ closes => closes

theorem tellAndDrain_comes (quiet : env.quietTerminals = true)
    (reached : ledger.Reached closed told drained) :
    Comes (do
        safeEmitTerminal env only
        shieldedCleanup env .drain (drainTasksDuringCleanup env))
      (Ledger.Reached closed true true) ledger := by
  have none : ledger.Told fun _ => False := fun _ wrong => nomatch wrong
  apply Ends.bind
  apply (safeEmitTerminal_ends quiet reached none).mono
  · rintro _ after ⟨emitted, tells⟩
    apply shieldedDrain_comes
    exact { emitted with told := fun _ stage => tells stage (.inl (Subsingleton.elim stage only)) }
  · exact fun _ _ wrong => nomatch wrong

theorem finalizePreparedCommandFailure_comes (closes : env.closesAt .session = true)
    (session : env.unhurt .session = true) (quiet : env.quietTerminals = true) (reached : ledger.Reached closed told drained) :
    Comes (finalizePreparedCommandFailure env) (Ledger.Reached true true true) ledger := by
  apply Ends.bind
  apply (shieldedClose_ends closes session reached).mono
  · exact fun _ _ closes => tellAndDrain_comes quiet closes
  · exact fun _ _ wrong => nomatch wrong

theorem finalizeCommandRunFailure_comes (closes : env.closesAt .session = true)
    (worker : env.unhurt .worker = true) (session : env.unhurt .session = true)
    (quiet : env.quietTerminals = true)
    (reached : ledger.Reached closed told drained) :
    Comes (finalizeCommandRunFailure env) (Ledger.Reached true true true) ledger := by
  apply Ends.bind
  apply (shieldedCall_returns worker reached).mono
  · intro _ stopped reached
    exact finalizePreparedCommandFailure_comes closes session quiet reached
  · exact fun _ _ wrong => nomatch wrong

theorem finalizeCommandRunSuccess_comes (closes : env.closesAt .session = true)
    (worker : env.unhurt .worker = true) (session : env.unhurt .session = true)
    (reached : ledger.Reached closed told drained) :
    Comes (finalizeCommandRunSuccess env) (Ledger.Reached true true true) ledger := by
  have tellAll : ∀ {after : Ledger 1}, after.Reached true told false →
      (after.Told fun other => other = only ∨ False) → after.Reached true true false := by
    intro after emitted tells
    exact { emitted with
      told := fun _ stage => tells stage (.inl (Subsingleton.elim stage only)) }
  apply Ends.bind
  apply (shieldedCall_returns worker reached).mono
  · intro _ stopped reached
    apply Ends.bind
    apply (shieldedClose_ends closes session reached).mono
    · intro _ after closes
      have none : after.Told fun _ => False := fun _ wrong => nomatch wrong
      apply Ends.bind
      apply Ends.handle
      apply (emitTerminal_ends closes none).mono
      · rintro _ emitted ⟨closes, tells⟩
        apply shieldedCleanup_comes
        exact waitForExecHookTasks_comes (tellAll closes tells)
      · rintro error emitted ⟨_, closes, tells⟩
        exact (shieldedDrain_comes (tellAll closes tells)).rethrow
    · exact fun _ _ wrong => nomatch wrong
  · exact fun _ _ wrong => nomatch wrong

theorem Env.settlesCommand_opened (settles : env.settlesCommand = true)
    (opened : env.raises .openSink = none) : env.closesAt .session = true := by
  simp only [Env.settlesCommand, opened, Option.isSome_none, Bool.false_or,
    Bool.and_eq_true] at settles
  exact settles.1

theorem Env.settlesCommand_unprepared (settles : env.settlesCommand = true)
    (opened : env.raises .openSink = none) (prepared : env.raises .prepare = none)
    (fails : env.preparesCommand = false) :
    env.unhurt .session = true ∧ env.quietTerminals = true := by
  have rest := settles
  simp only [Env.settlesCommand, opened, prepared, fails, Option.isSome_none, Bool.false_or,
    Bool.and_eq_true, Bool.false_eq_true, if_false] at rest
  exact rest.2

theorem Env.settlesCommand_prepared (settles : env.settlesCommand = true)
    (opened : env.raises .openSink = none) (prepares : env.preparesCommand = true) :
    env.unhurt .worker = true ∧ env.unhurt .session = true ∧
      (env.executesCommand = true ∨ env.quietTerminals = true) := by
  have prepared : env.raises .prepare = none := by
    simp only [Env.preparesCommand, Bool.and_eq_true, Option.isNone_iff_eq_none] at prepares
    exact prepares.1.1.1
  have rest := settles
  simp only [Env.settlesCommand, opened, prepared, prepares, Option.isSome_none,
    Bool.false_or, Bool.and_eq_true, Bool.or_eq_true, if_true, and_assoc] at rest
  exact rest.2

theorem prepareOwnedCommand_ends (settles : env.settlesCommand = true) :
    Ends (prepareOwnedCommand env)
      (fun _ after => after.Reached false false false ∧ env.raises .openSink = none ∧
        env.preparesCommand = true)
      (fun _ => Ledger.Reached true true true) {} := by
  apply Ends.bind
  apply openSession_ends
  · intro opened reached _ opens
    have closes := env.settlesCommand_opened settles opens
    apply Ends.handle
    have fails : ∀ after : Ledger 1, after.Reached false false false →
        env.raises .prepare = none → env.preparesCommand = false →
        Comes (finalizePreparedCommandFailure env) (Ledger.Reached true true true) after := by
      intro after reached prepared fails
      obtain ⟨session, quiet⟩ := env.settlesCommand_unprepared settles opens prepared fails
      exact finalizePreparedCommandFailure_comes closes session quiet reached
    apply Ends.bind
    apply call_ends
    · intro prepared
      apply Ends.bind
      apply (emitPlan_ends reached).mono
      · rintro _ planned ⟨reached, plans⟩
        apply Ends.bind
        apply call_ends
        · intro before
          apply call_ends
          · intro builds
            refine ⟨reached, opens, ?_⟩
            simp [Env.preparesCommand, prepared, plans, before, builds]
          · intro error builds
            have fails := fails planned reached prepared (by simp [Env.preparesCommand, builds])
            exact fails.rethrow
        · intro error before
          have fails := fails planned reached prepared (by simp [Env.preparesCommand, before])
          exact fails.rethrow
      · rintro error planned ⟨reached, plans⟩
        have fails := fails planned reached prepared (by simp [Env.preparesCommand, plans])
        exact fails.rethrow
    · intro error _
      exact (finalizePreparedCommandFailure_told closes reached).rethrow
  · exact fun _ _ => Ledger.Reached.initially

theorem executeWithHooks_comes (closes : env.closesAt .session = true)
    (worker : env.unhurt .worker = true) (session : env.unhurt .session = true)
    (settles : env.executesCommand = true ∨ env.quietTerminals = true)
    (reached : ledger.Reached closed told drained) :
    Comes (executeWithHooks env) (Ledger.Reached true true true) ledger := by
  have fails : ∀ after : Ledger 1, after.Reached closed told false →
      env.executesCommand = false →
      Comes (finalizeCommandRunFailure env) (Ledger.Reached true true true) after := by
    intro after reached fails
    have quiet := settles.resolve_left (by simp [fails])
    exact finalizeCommandRunFailure_comes closes worker session quiet reached
  apply Ends.bind
  apply Ends.handle
  apply Ends.bind
  apply (execute_ends reached).mono
  · rintro _ executed ⟨reached, executes⟩
    apply Ends.bind
    apply shieldedCall_ends
    · intro stops
      apply call_ends
      · intro _
        exact finalizeCommandRunSuccess_comes closes worker session reached
      · intro error after
        have fails := fails executed reached (by simp [Env.executesCommand, after])
        exact fails.rethrow
    · intro error stops
      have hurt : env.unhurt .bodyWorker = false := by
        rw [← Bool.not_eq_true, ← env.shieldedError_none, stops]
        simp
      have fails := fails executed reached (by simp [Env.executesCommand, hurt])
      exact fails.rethrow
  · rintro error executed ⟨reached, executes⟩
    have fails := fails executed reached (by simp [Env.executesCommand, executes])
    exact fails.rethrow

theorem runPreparedCommand_comes (settles : env.settlesCommand = true) :
    Comes (runPreparedCommand env) (Ledger.Reached true true true) {} := by
  apply Ends.bind
  apply (prepareOwnedCommand_ends settles).mono
  · rintro _ prepared ⟨reached, opens, prepares⟩
    obtain ⟨worker, session, tells⟩ := env.settlesCommand_prepared settles opens prepares
    have closes := env.settlesCommand_opened settles opens
    exact executeWithHooks_comes closes worker session tells reached
  · exact fun _ _ settled => settled

end Cuprum.Finalization
