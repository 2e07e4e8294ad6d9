import Cuprum.Deadline.Verdict

namespace Cuprum.Deadline

open Cuprum.Effect

variable {ε : Type} {env : Env ε} {ledger : Ledger ε}

/-- What a run without readers has failed on. -/
structure Ledger.Broke (env : Env ε) (error : Raised ε) (after : Ledger ε) : Prop where
  bare : after.Bare
  struck : ∃ last, after.met.getLast? = some last ∧
    env.reported .direct error = env.verdict .direct last ∧
    ∀ site, last = .deadline site → env.timeout ≠ .absent

theorem direct_verdict {last : Strike ε}
    (timed : ∀ site, last = .deadline site → env.timeout ≠ .absent) {error : Raised ε}
    (raises : error = last.raised ∨ error = env.expiry ∧ ∃ site, last = .deadline site)
    (translates : ∀ site own, last = .own site own → env.translates .direct site = true) :
    env.reported .direct error = env.verdict .direct last := by
  cases last with
  | cancelled site =>
      rcases raises with rfl | ⟨_, _, wrong⟩
      · simp [Strike.raised, Env.reported, Env.verdict, Env.isTimeoutError]
      · cases wrong
  | deadline site =>
      have configured := timed site rfl
      rcases raises with rfl | ⟨rfl, _⟩ <;>
        simp [Strike.raised, Env.reported, Env.verdict, Env.isTimeoutError, Env.expiry,
          configured]
  | own site own =>
      have translated := translates site own rfl
      rcases raises with rfl | ⟨_, _, wrong⟩
      · simp [Strike.raised, Env.reported, Env.verdict, Env.isTimeoutError, translated]
      · cases wrong

theorem direct_exit_verdict {last : Strike ε} (early : last.early = true)
    (timed : ∀ site, last = .deadline site → env.timeout ≠ .absent) :
    env.reported .direct (env.exitRaises last) = env.verdict .direct last := by
  cases last with
  | cancelled | deadline =>
      apply direct_verdict timed (.inl rfl)
      exact fun _ _ wrong => (by cases wrong)
  | own site error =>
      cases timeout : env.isTimeout error <;> by_cases absent : env.timeout = .absent <;>
        cases site <;>
        simp_all [Strike.early, Env.exitRaises, Env.isTimeoutError, Env.reported, Env.verdict,
          Env.translates, Site.origin]

theorem Ledger.Collected.translates {last : Strike ε}
    (collected : ledger.Collected env .direct last) (site : Site) (own : ε)
    (same : last = .own site own) : env.translates .direct site = true := by
  subst same
  have owner := collected.collected
  cases site <;> simp_all [Strike.collected, Env.translates]

/-- A writer that is settled without a strike leaves a run without readers as it was. -/
theorem Ledger.Still.settles {after : Ledger ε} (still : ledger.Still after)
    (fresh : ledger.Fresh) (bare : ledger.Bare) : after.Fresh ∧ after.Bare := by
  refine ⟨⟨?_, ?_, ?_⟩, still.bare bare⟩
  · exact still.torn.trans fresh.torn
  · exact still.hasty.trans fresh.hasty
  · exact still.met.trans fresh.met

/-- The scope around the writer raises what has struck it. -/
theorem writerScope_ends (fresh : ledger.Fresh) (bare : ledger.Bare)
    (unstopped : ledger.writer.isCancelled = false) :
    Ends (timeoutScope env (awaitWriterToCompletion env))
      (fun _ after => env.reclaims after.writer = true ∧ after.Fresh ∧ after.Bare)
      (fun error after => after.Bare ∧
        ∃ last, after.Collected env .direct last ∧ error = last.raised) ledger := by
  have fresh : ({ ledger with expired := false } : Ledger ε).Fresh :=
    ⟨fresh.torn, fresh.hasty, fresh.met⟩
  have body : Ends (awaitWriterToCompletion env)
      (fun _ after => env.reclaims after.writer = true ∧ after.Fresh ∧ after.Bare)
      (fun error after => after.Bare ∧
        ∃ last, after.Collected env .direct last ∧ error = last.scopeRaises)
      { ledger with expired := false } := by
    apply (awaitWriterToCompletion_ends .direct _).mono
    · exact fun _ _ ends => ⟨ends.1, ends.2.settles fresh bare⟩
    · exact fun _ _ broken => ⟨broken.bare bare, broken.gathered fresh⟩
    · exact unstopped
  apply timeoutScope_ends body
  · intro after ends
    obtain ⟨bare, last, collected, raises⟩ := ends
    refine ⟨bare, last, { collected with }, ?_⟩
    cases last with
    | deadline site => rfl
    | cancelled | own => cases raises
  · intro origin error after ends
    obtain ⟨bare, last, collected, raises⟩ := ends
    refine ⟨bare, last, { collected with }, ?_⟩
    cases last with
    | own site own => exact raises
    | cancelled | deadline => cases raises
  · intro error after ends unexpired _
    obtain ⟨bare, last, collected, raises⟩ := ends
    refine ⟨bare, last, collected, ?_⟩
    cases last with
    | deadline site => exact absurd raises unexpired
    | cancelled | own => exact raises

/-- A `TimeoutError` that is not the writer's is an expiry. -/
theorem raiseDirectWriterTimeout_ends {last : Strike ε} (bare : ledger.Bare)
    (collected : ledger.Collected env .direct last)
    (timeout : env.isTimeoutError last.raised = true) {returned : Unit → Ledger ε → Prop} :
    Ends (raiseDirectWriterTimeout env last.raised) returned
      (fun error after => after.Broke env error) ledger := by
  have broke : ∀ error : Raised ε,
      error = last.raised ∨ error = env.expiry ∧ (∃ site, last = .deadline site) →
      ledger.Broke env error := fun error raises =>
    ⟨bare, last, collected.ends,
      direct_verdict collected.timed raises collected.translates, collected.timed⟩
  apply Ends.branch
  · exact fun _ => Ends.raises (broke _ (.inl rfl))
  · intro foreign
    apply handleStreamTimeout_ends.mono
    · exact fun _ _ returns => returns
    · intro _ _ ends
      obtain ⟨rfl, rfl⟩ := ends
      apply broke _ (.inr ⟨rfl, _⟩)
      cases last with
      | deadline site => exact ⟨site, rfl⟩
      | cancelled site => cases timeout
      | own site own =>
          have owner := collected.collected
          cases site <;>
            simp_all [Strike.collected, Strike.raised, Raised.isWriterFailure, Site.origin]

/-- The wait for the writer, under what is left of the deadline or without one. -/
theorem awaitWriterWithinDeadline_ends (fresh : ledger.Fresh) (bare : ledger.Bare)
    (unstopped : ledger.writer.isCancelled = false) :
    Ends (awaitWriterWithinDeadline env)
      (fun _ after => env.reclaims after.writer = true ∧ after.Fresh ∧ after.Bare)
      (fun error after => after.Broke env error) ledger := by
  apply Ends.branch
  · intro absent
    apply (settleStdinWriter_ends .direct unstopped).mono
    · exact fun _ _ ends => ⟨ends.1, ends.2.settles fresh bare⟩
    · intro error after broken
      obtain ⟨last, collected, raises⟩ := broken.gathered fresh
      refine ⟨broken.bare bare, last, collected.ends, ?_, collected.timed⟩
      apply direct_verdict collected.timed _ collected.translates
      cases last with
      | deadline site => exact absurd absent (collected.timed site rfl)
      | cancelled | own => exact .inl raises
  · intro configured
    apply Ends.handle
    apply (writerScope_ends fresh bare unstopped).mono
    · exact fun _ _ ends => ends
    · intro error after ends
      obtain ⟨bare, last, collected, rfl⟩ := ends
      apply Ends.branch
      · exact fun timeout => raiseDirectWriterTimeout_ends bare collected timeout
      · intro _
        refine Ends.raises ⟨bare, last, collected.ends, ?_, collected.timed⟩
        exact direct_verdict collected.timed (.inl rfl) collected.translates

theorem cleanupDirectRun_ends {error : Raised ε} (broke : ledger.Broke env error)
    {returned : Unit → Ledger ε → Prop} :
    Ends (do cleanupDirectRun env; throw error) returned
      (fun error after => after.Ended env .direct (env.reported .direct) error) ledger := by
  have does : ∀ ledger : Ledger ε, settleWriterThenGroup env ledger =
      .ok () { ledger with
        writer := ledger.writer.stop env.outlives
        torn := ledger.torn || env.owns } := by
    intro ledger
    unfold settleWriterThenGroup settleOwnedGroupBeforeDraining
    cases owns : env.owns with
    | true =>
        rw [Bool.or_true]
        rfl
    | false =>
        rw [Bool.or_false]
        rfl
  have settled : Ledger.Settled env { ledger with
      writer := ledger.writer.stop env.outlives
      torn := ledger.torn || env.owns } :=
    ⟨env.reclaims_stop ledger.writer, .inl broke.bare.1, broke.bare.2⟩
  apply Ends.bind
  apply shieldedCleanup_ends _ does
  · intro _
    exact Ends.raises ⟨settled, broke.struck, fun wrong => absurd rfl wrong⟩
  · intro _
    apply Ledger.ended_interrupted settled rfl _ reported_cancelled
    exact fun wrong => absurd rfl wrong

theorem runSubprocessWithoutStreams_ends (fresh : ledger.Fresh) (bare : ledger.Bare)
    (unstopped : ledger.writer.isCancelled = false)
    (unfed : env.feeds = false → env.reclaims ledger.writer = true) :
    Ends (runSubprocessWithoutStreams env) (fun _ after => after.Settled env ∧ after.Fresh)
      (fun error after => after.Ended env .direct (env.reported .direct) error) ledger := by
  apply Ends.handle
  apply Ends.bind
  apply awaitExitOrWriterFailure_ends.mono
  · rintro _ exited ⟨kept, torn, met⟩
    have quiet : exited.Fresh :=
      ⟨torn.trans fresh.torn, kept.hasty.trans fresh.hasty, met.trans fresh.met⟩
    apply Ends.branch
    · intro _
      apply (awaitWriterWithinDeadline_ends quiet (kept.bare bare)
        (kept.writer_uncancelled unstopped)).mono
      · rintro _ after ⟨idle, fresh, bare⟩
        exact ⟨⟨idle, .inl bare.1, bare.2⟩, fresh⟩
      · exact fun _ _ broke => cleanupDirectRun_ends broke
    · intro starved
      have bare := kept.bare bare
      have idle := kept.writer_reclaimed (unfed (eq_false_of_ne_true starved))
      exact Ends.returns ⟨⟨idle, .inl bare.1, bare.2⟩, quiet⟩
  · intro error middle struck
    obtain ⟨met, last, all, opening, raises, _⟩ := struck.struck
    have timed : ∀ site, last = .deadline site → env.timeout ≠ .absent := by
      rintro site rfl
      exact struck.timed raises
    have early : last.early = true :=
      List.all_eq_true.mp opening.early last (List.mem_of_getLast? opening.ends)
    apply cleanupDirectRun_ends
    refine ⟨struck.kept.bare bare, last, ?_, ?_, timed⟩
    · rw [all, fresh.met, List.nil_append]
      exact opening.ends
    · rw [raises]
      exact direct_exit_verdict early timed

end Cuprum.Deadline
