import Cuprum.Handle.Shared

namespace Cuprum.Handle

variable {δ ε ρ η : Type} {run : HandleRun δ ε η} {caller other : Nat}
  {shared shared' before after : Shared δ ε ρ η} {phase phase' : Phase δ ε ρ}

/-- What a caller has of the settlement where it stands. -/
def Phase.Valid (shared : Shared δ ε ρ η) : Phase δ ε ρ → Prop
  | .awaiting _ settling | .reaping _ settling | .stopQueued (.expiry _ settling) _
  | .stopping (.expiry _ settling) _ => settling < shared.started
  | .recording _ result | .reaped _ result | .done (.returned result)
  | .done (.timeoutExpired _ result) => shared.result = some result ∧ 0 < shared.started
  | .done (.left pending) =>
      0 < shared.started ∧ (pending = false → shared.result ≠ none)
  | _ => True

theorem Phase.Valid.mono (extension : before.Extends after) (valid : phase.Valid before) :
    phase.Valid after := by
  have started := extension.started
  have kept := extension.result
  cases phase with
  | absent | entering | expiring => trivial
  | awaiting | reaping => exact Nat.lt_of_lt_of_le valid started
  | stopQueued stop | stopping stop =>
      cases stop with
      | expiry => exact Nat.lt_of_lt_of_le valid started
      | stopStep => trivial
  | recording | reaped => exact ⟨kept _ valid.1, Nat.lt_of_lt_of_le valid.2 started⟩
  | done ending =>
      cases ending with
      | returned | timeoutExpired =>
          exact ⟨kept _ valid.1, Nat.lt_of_lt_of_le valid.2 started⟩
      | left pending =>
          refine ⟨Nat.lt_of_lt_of_le valid.1 started, fun succeeded => ?_⟩
          obtain ⟨settled, recorded⟩ := Option.ne_none_iff_exists'.mp (valid.2 succeeded)
          rw [kept settled recorded]
          exact Option.some_ne_none settled
      | raised error => trivial

section Weigh

variable [DecidableEq ε]

/-- A settle step that failed owes its caller an error, unless a block's own
exception is already on its way. -/
theorem arbitrate_failed (stop : StepReport ε) (callerCancelled : Bool)
    (error : Raised ε) :
    arbitrate stop (.of callerCancelled (some error)) false ≠ none := by
  cases callerCancelled with
  | true => simp [arbitrate, StepReport.of]
  | false =>
      cases error with
      | cancelled => simp [arbitrate, StepReport.of]
      | error error => cases stop <;> simp [arbitrate, StepReport.of, StepReport.failure]

theorem weigh_valid {stopper : Stopper} {stop settle : StepReport ε}
    (started : 0 < shared.started)
    (settled : arbitrate stop settle false = none → shared.result ≠ none) :
    (weigh stopper stop settle : Phase δ ε ρ).Valid shared := by
  cases stopper with
  | exit pending =>
      simp only [weigh]
      cases owed : arbitrate stop settle pending with
      | some error => trivial
      | none =>
          refine ⟨started, ?_⟩
          rintro rfl
          exact settled owed
  | terminate | kill =>
      simp only [weigh]
      cases arbitrate stop settle false with
      | none => trivial
      | some error => trivial

theorem Watcher.resume_valid {watcher : Watcher δ ε} {result : ρ}
    (recorded : shared.result = some result) (started : 0 < shared.started) :
    (watcher.resume result).Valid shared := by
  cases watcher with
  | direct deadline => exact ⟨recorded, started⟩
  | settleStep stopper stop callerCancelled =>
      apply weigh_valid started
      intro
      rw [recorded]
      exact Option.some_ne_none result

theorem Watcher.fail_valid (watcher : Watcher δ ε) (isTimeoutError : ε → Bool)
    (error : Raised ε) (started : 0 < shared.started) :
    (watcher.fail isTimeoutError error : Phase δ ε ρ).Valid shared := by
  cases watcher with
  | settleStep stopper stop callerCancelled =>
      apply weigh_valid started
      exact fun owed => absurd owed (arbitrate_failed stop callerCancelled error)
  | direct deadline =>
      cases error with
      | cancelled => cases deadline <;> trivial
      | error error =>
          cases deadline with
          | none => trivial
          | some deadline => cases expires : isTimeoutError error <;>
              simp [Watcher.fail, expires, Phase.Valid]

end Weigh

theorem Phase.cancel_valid (cancelled : phase.cancel = some phase')
    (valid : phase.Valid shared) : phase'.Valid shared := by
  cases phase with
  | absent | done => cases cancelled
  | entering watcher | recording watcher =>
      cases watcher <;> cases cancelled
      · trivial
      · exact valid
  | awaiting watcher =>
      cases watcher <;> cases cancelled
      · trivial
      · exact valid
  | stopQueued stop | stopping stop =>
      cases stop <;> cases cancelled <;> trivial
  | expiring | reaping | reaped =>
      cases cancelled
      trivial

theorem outcome_valid [OfNat δ 0] [LE δ] [DecidableLE δ] (deadline : Option δ) :
    (outcome deadline : Phase δ ε ρ).Valid shared := by
  cases deadline with
  | none => trivial
  | some deadline =>
      simp only [outcome]
      split <;> trivial

theorem Stop.finish_valid {stop : Stop δ} {callerCancelled : Bool}
    (raised : Option (Raised ε))
    (valid : (Phase.stopping stop callerCancelled : Phase δ ε ρ).Valid shared) :
    (stop.finish callerCancelled raised : Phase δ ε ρ).Valid shared := by
  cases stop with
  | stopStep => trivial
  | expiry deadline settling =>
      cases callerCancelled with
      | true => trivial
      | false =>
          match raised with
          | none => exact valid
          | some _ => trivial

namespace Shared

theorem Sound.beginStop (sound : shared.Sound run) (caller : Nat) :
    (shared.beginStop caller).Sound run ∧ shared.Extends (shared.beginStop caller) :=
  ⟨⟨sound.once, sound.unstarted, sound.task, sound.held, sound.result, sound.first,
    sound.accounts, sound.uncancelled⟩,
    Nat.le_refl _, fun _ recorded => recorded, fun _ _ ended => ended⟩

theorem Sound.acquireStop (sound : shared.Sound run) (caller : Nat) :
    (shared.acquireStop caller).Sound run ∧ shared.Extends (shared.acquireStop caller) :=
  ⟨⟨sound.once, sound.unstarted, sound.task, sound.held, sound.result, sound.first,
    sound.accounts, sound.uncancelled⟩,
    Nat.le_refl _, fun _ recorded => recorded, fun _ _ ended => ended⟩

theorem Sound.releaseStop (sound : shared.Sound run) (caller : Nat) :
    (shared.releaseStop caller).Sound run ∧ shared.Extends (shared.releaseStop caller) := by
  unfold Shared.releaseStop
  split
  · exact ⟨⟨sound.once, sound.unstarted, sound.task, sound.held, sound.result,
      sound.first, sound.accounts, sound.uncancelled⟩,
      Nat.le_refl _, fun _ recorded => recorded, fun _ _ ended => ended⟩
  · exact ⟨sound, .refl shared⟩

theorem Sound.noteExited (sound : shared.Sound run) (caller : Nat) :
    (shared.noteExited caller).Sound run ∧ shared.Extends (shared.noteExited caller) :=
  ⟨⟨sound.once, sound.unstarted, sound.task, sound.held, sound.result, sound.first,
    sound.accounts, sound.uncancelled⟩,
    Nat.le_refl _, fun _ recorded => recorded, fun _ _ ended => ended⟩

theorem Extends.recordDeadline (caller : Nat) (deadline : δ) :
    shared.Extends (shared.recordDeadline caller deadline) :=
  ⟨Nat.le_refl _, fun _ recorded => recorded, fun _ _ ended => ended⟩

theorem Extends.trans {middle : Shared δ ε ρ η} (first : before.Extends middle)
    (second : middle.Extends after) : before.Extends after where
  started := Nat.le_trans first.started second.started
  result settled recorded := second.result settled (first.result settled recorded)
  finished settlement ending ended :=
    second.finished settlement ending (first.finished settlement ending ended)

end Shared

/-- No step of a caller harms the settlement, whatever the caller meets. -/
theorem Acts.sound [OfNat δ 0] [LE δ] [LT δ] [DecidableLE δ] [DecidableLT δ]
    [DecidableEq ε]
    (acts : Acts run caller shared phase shared' phase') (sound : shared.Sound run)
    (valid : phase.Valid shared) :
    shared'.Sound run ∧ shared.Extends shared' ∧ phase'.Valid shared' := by
  cases acts with
  | waits => exact ⟨sound, .refl shared, outcome_valid _⟩
  | kills =>
      obtain ⟨sound, extension⟩ := sound.beginStop caller
      exact ⟨sound, extension, trivial⟩
  | queues => exact ⟨sound, .refl shared, trivial⟩
  | reads watcher settled result =>
      refine ⟨sound, .refl shared, ?_⟩
      exact watcher.resume_valid result (sound.started_of_result result)
  | drives watcher result =>
      obtain ⟨driven, created⟩ := sound.ensureTask result
      exact ⟨driven, .ensureTask sound, created⟩
  | answered watcher settling awaited finished =>
      have recorded := sound.result_of_finished finished
      exact ⟨sound, .refl shared, recorded, sound.started_of_result recorded⟩
  | fails watcher settling error finished =>
      refine ⟨sound, .refl shared, ?_⟩
      exact watcher.fail_valid run.isTimeoutError error (Nat.zero_lt_of_lt valid)
  | records watcher awaited =>
      exact ⟨sound.record valid.1, .record valid.1, watcher.resume_valid rfl valid.2⟩
  | spared deadline settled result =>
      exact ⟨sound, .refl shared, result, sound.started_of_result result⟩
  | sparedExited deadline settled result =>
      obtain ⟨noted, extension⟩ := sound.noteExited caller
      exact ⟨noted, extension, result, sound.started_of_result result⟩
  | findsExited deadline result =>
      obtain ⟨noted, extension⟩ := sound.noteExited caller
      exact ⟨(noted.ensureTask result).1, extension.trans (.ensureTask noted), trivial⟩
  | expires deadline result =>
      have recorded := sound.recordDeadline caller deadline
      obtain ⟨driven, created⟩ := recorded.ensureTask result
      exact ⟨driven, (Shared.Extends.recordDeadline caller deadline).trans
        (.ensureTask recorded), created⟩
  | stops stop callerCancelled =>
      obtain ⟨sound, extension⟩ := sound.acquireStop caller
      refine ⟨sound, extension, ?_⟩
      cases stop with
      | expiry => exact valid
      | stopStep => trivial
  | stopped stop callerCancelled raised =>
      obtain ⟨sound, extension⟩ := sound.releaseStop caller
      exact ⟨sound, extension, (stop.finish_valid raised valid).mono extension⟩
  | stopEscapes stop error =>
      obtain ⟨sound, extension⟩ := sound.releaseStop caller
      exact ⟨sound, extension, trivial⟩
  | settleEscapes => exact ⟨sound, .refl shared, trivial⟩
  | reaps deadline settling result finished =>
      have recorded := sound.result_of_finished finished
      exact ⟨sound, .refl shared, recorded, sound.started_of_result recorded⟩
  | reapFails deadline settling error =>
      exact ⟨sound, .refl shared, trivial⟩
  | tells deadline result =>
      exact ⟨sound.record valid.1, .record valid.1, rfl, valid.2⟩
  | clock => exact ⟨sound, .refl shared, trivial⟩
  | cancel _ _ cancelled => exact ⟨sound, .refl shared, Phase.cancel_valid cancelled valid⟩

/-- A caller starts a settlement or leaves every one as it is. -/
theorem Acts.settlements [OfNat δ 0] [LE δ] [LT δ] [DecidableLE δ] [DecidableLT δ]
    [DecidableEq ε]
    (acts : Acts run caller shared phase shared' phase') {settlement : Nat}
    (started : settlement < shared.started) :
    shared'.settlements settlement = shared.settlements settlement := by
  have ensured (shared : Shared δ ε ρ η) (started : settlement < shared.started) :
      shared.ensureTask.2.settlements settlement = shared.settlements settlement := by
    unfold Shared.ensureTask
    split
    · rfl
    · exact Function.update_of_ne (Nat.ne_of_lt started) _ _
  cases acts with
  | drives => exact ensured shared started
  | findsExited | expires => exact ensured _ started
  | stopped | stopEscapes =>
      unfold Shared.releaseStop
      split <;> rfl
  | waits | kills | queues | reads | answered | fails | records | spared | sparedExited
  | stops | settleEscapes | reaps | reapFails | tells | clock | cancel => rfl

end Cuprum.Handle
