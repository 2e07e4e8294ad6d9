import Cuprum.Deadline.Shapes

namespace Cuprum.Deadline

open Cuprum.Effect

variable {ε : Type} {env : Env ε} {ledger : Ledger ε} {shape : Shape}

/-- What the frame around a shape makes of the errors that reach it. -/
def Env.reported (env : Env ε) (shape : Shape) (error : Raised ε) : Raised ε :=
  match error with
  | .subprocessTimeout => .timeoutExpired
  | error =>
      if shape = .direct ∧ env.isTimeoutError error then
        if env.timeout = .absent then .invariant else .timeoutExpired
      else error

/-- What an expiry comes to, with a timeout configured or without. -/
def Env.expiry (env : Env ε) : Raised ε :=
  if env.timeout = .absent then .invariant else .subprocessTimeout

/-- A run of this shape has ended, struck by what is left to be reported. -/
structure Ledger.Ended (env : Env ε) (shape : Shape) (report : Raised ε → Raised ε)
    (error : Raised ε) (after : Ledger ε) : Prop where
  settled : after.Settled env
  struck : ∃ last, after.met.getLast? = some last ∧ report error = env.verdict shape last ∧
    ∀ site, last = .deadline site → env.timeout ≠ .absent
  hasty : shape ≠ .direct → env.owns = true → after.hasty = after.met.any (env.hastensReaders shape)

theorem handleStreamTimeout_ends {α : Type} {returned : α → Ledger ε → Prop} :
    Ends (handleStreamTimeout env) returned
      (fun error after => after = ledger ∧ error = env.expiry) ledger := by
  apply Ends.bind
  apply Ends.branch
  · intro absent
    exact Ends.raises ⟨rfl, (if_pos absent).symm⟩
  · intro configured
    apply Ends.returns
    exact Ends.raises ⟨rfl, (if_neg configured).symm⟩

namespace Ledger

/-- The caller of a shield is cancelled meanwhile. -/
def interrupted (site : Site) (ledger : Ledger ε) : Ledger ε :=
  { ledger with met := ledger.met ++ [.cancelled site] }

theorem Settled.interrupted {site : Site} (settled : ledger.Settled env) :
    (ledger.interrupted site).Settled env :=
  { settled with }

/-- A cancellation that hastens nothing is what the caller is left with. -/
theorem ended_interrupted {site : Site} {report : Raised ε → Raised ε}
    (settled : ledger.Settled env) (calm : env.hastensReaders shape (.cancelled site) = false)
    (hasty : shape ≠ .direct → env.owns = true →
      ledger.hasty = ledger.met.any (env.hastensReaders shape))
    (reports : report .cancelled = .cancelled) :
    (ledger.interrupted site).Ended env shape report .cancelled where
  settled := settled.interrupted
  struck := by
    refine ⟨.cancelled site, List.getLast?_concat, reports, ?_⟩
    exact fun _ wrong => (by cases wrong)
  hasty := by
    intro reads owns
    change ledger.hasty = (ledger.met ++ [Strike.cancelled site]).any (env.hastensReaders shape)
    rw [List.any_append, List.any_cons, calm, List.any_nil, Bool.or_false, Bool.or_false]
    exact hasty reads owns

end Ledger

theorem reported_cancelled : env.reported shape (.cancelled : Raised ε) = .cancelled :=
  if_neg fun wrong => (by cases wrong.2)

/-- What a failure is answered with: a shielded cleanup that settles the run, and then the
expiry or the failure itself. -/
theorem failure_ends {α : Type} {cleanup : Step ε Unit} {expires : Bool} {error : Raised ε}
    {last : Strike ε} {returned : α → Ledger ε → Prop} (update : Ledger ε → Ledger ε)
    (does : ∀ ledger, cleanup ledger = .ok () (update ledger))
    (settled : (update ledger).Settled env) (met : (update ledger).met = ledger.met)
    (hasty : shape ≠ .direct → env.owns = true →
      (update ledger).hasty = ledger.met.any (env.hastensReaders shape))
    (ends : ledger.met.getLast? = some last)
    (verdict : env.reported shape (if expires then env.expiry else error) =
      env.verdict shape last)
    (timed : ∀ site, last = .deadline site → env.timeout ≠ .absent) :
    Ends (do
      shieldedCleanup env .reconcile cleanup
      if expires then handleStreamTimeout env else throw error : Step ε α) returned
      (fun error after => after.Ended env shape (env.reported shape) error) ledger := by
  rw [← met] at hasty ends
  apply Ends.bind
  apply shieldedCleanup_ends update does
  · intro _
    apply Ends.branch
    · intro expired
      rw [if_pos expired] at verdict
      apply handleStreamTimeout_ends.mono
      · exact fun _ _ returns => returns
      · intro error after ends
        obtain ⟨rfl, rfl⟩ := ends
        exact ⟨settled, ⟨last, ‹_›, verdict, timed⟩, hasty⟩
    · intro fails
      rw [if_neg fails] at verdict
      exact Ends.raises ⟨settled, ⟨last, ends, verdict, timed⟩, hasty⟩
  · exact fun _ => Ledger.ended_interrupted settled rfl hasty reported_cancelled

/-! The wait for the exit. -/

/-- A run as it is started, but for its writer. -/
structure Ledger.Fresh (ledger : Ledger ε) : Prop where
  torn : ledger.torn = false
  hasty : ledger.hasty = false
  met : ledger.met = []

theorem hastens_of_tears {strike : Strike ε} (early : strike.early = true)
    (tears : env.tears strike = true) : env.hastens shape strike = false := by
  cases strike with
  | cancelled site => cases site <;> simp_all [Strike.early, Env.hastens]
  | deadline site => cases site <;> simp_all [Strike.early, Env.hastens]
  | own site error => cases site <;> simp_all [Strike.early, Env.hastens, Env.tears]

theorem not_hastens_of_tears {met : List (Strike ε)} (early : met.all Strike.early = true)
    (tears : met.all env.tears = true) : met.any (env.hastensReaders shape) = false := by
  rw [List.all_eq_true] at early tears
  rw [List.any_eq_false]
  intro strike present
  rw [Env.hastensReaders, hastens_of_tears (early strike present) (tears strike present)]
  exact Bool.false_ne_true

/-- A strike that leaves the child alive is a wait's own failure, or a race that is
cancelled after its wait is done. -/
theorem hastens_of_spares {last : Strike ε} (early : last.early = true)
    (spares : env.tears last = false) :
    env.hastens shape last =
      !(env.isTimeoutError (env.exitRaises last) && env.eof) := by
  cases last with
  | cancelled site =>
      cases site <;>
        simp_all [Strike.early, Env.hastens, Env.exitRaises, Env.isTimeoutError, Env.tears]
  | deadline site => cases site <;> simp_all [Env.tears]
  | own site error =>
      cases site <;> simp_all [Strike.early, Env.tears]
      by_cases absent : env.timeout = .absent <;> cases timeout : env.isTimeout error <;>
        simp [Env.hastens, Env.exitRaises, Env.isTimeoutError, absent, timeout, Bool.and_comm]

namespace Ledger.Struck

variable {error : Raised ε} {middle : Ledger ε}

/-- A reconciliation cancels readers in haste where a strike has spared the child, unless the
error is an expiry and the readers end by themselves. -/
theorem hasty_reconciled (struck : ledger.Struck env error middle) (fresh : ledger.Fresh)
    (reading : ledger.readers = .running) {expires : Bool}
    (keeps : error.isWriterFailure = false → expires = env.isTimeoutError error) :
    (middle.reconciled env expires).hasty = middle.met.any (env.hastensReaders shape) := by
  obtain ⟨met, last, all, opening, rfl, torn⟩ := struck.struck
  rw [fresh.torn, Bool.false_or] at torn
  rw [fresh.met, List.nil_append] at all
  have calm : middle.hasty = false := struck.kept.hasty.trans fresh.hasty
  have running : middle.readers = .running := struck.kept.readers.trans reading
  simp only [Ledger.reconciled, calm, running, decide_true, Bool.true_and, Bool.false_or, all]
  cases tears : met.all env.tears with
  | true =>
      rw [torn, tears, not_hastens_of_tears opening.early tears]
      simp
  | false =>
      have alone := opening.alone tears
      subst alone
      have early := opening.early
      rw [List.all_cons, List.all_nil, Bool.and_true] at early tears
      have owner : (env.exitRaises last).isWriterFailure = false := by
        cases last with
        | cancelled | deadline => rfl
        | own site error =>
            cases site <;> simp_all [Strike.early, Env.tears]
            simp only [Env.exitRaises]
            split <;> rfl
      rw [torn, List.all_cons, List.all_nil, tears, keeps owner, List.any_cons, List.any_nil,
        Env.hastensReaders, hastens_of_spares early tears]
      simp

end Ledger.Struck

/-- What a shape with readers takes for the expiry among the errors of its wait for the
exit. -/
def Shape.expires (env : Env ε) (shape : Shape) (error : Raised ε) : Bool :=
  env.isTimeoutError error && (decide (shape = .streamed) || !error.isWriterFailure)

theorem exit_verdict {last : Strike ε} (reads : shape ≠ .direct) (early : last.early = true)
    (timed : ∀ site, last = .deadline site → env.timeout ≠ .absent) :
    env.reported shape
        (if shape.expires env (env.exitRaises last) then env.expiry
          else env.exitRaises last) =
      env.verdict shape last := by
  cases last with
  | cancelled site =>
      simp [Shape.expires, Env.exitRaises, Env.isTimeoutError, Env.reported, Env.verdict]
  | deadline site =>
      have configured := timed site rfl
      simp [Shape.expires, Env.exitRaises, Env.isTimeoutError, Env.reported, Env.verdict,
        Raised.isWriterFailure, Env.expiry, configured]
  | own site error =>
      cases timeout : env.isTimeout error <;> by_cases absent : env.timeout = .absent <;>
        cases shape <;> cases site <;>
        simp_all [Strike.early, Shape.expires, Env.exitRaises, Env.isTimeoutError,
          Env.reported, Env.verdict, Env.translates, Raised.isWriterFailure, Env.expiry,
          Site.origin]

theorem reconcileFailure_ends {error : Raised ε} {middle : Ledger ε} (reads : shape ≠ .direct)
    (fresh : ledger.Fresh) (reading : ledger.readers = .running)
    (struck : ledger.Struck env error middle) {returned : Unit → Ledger ε → Prop} :
    Ends (reconcileFailure env (shape.expires env error) error) returned
      (fun error after => after.Ended env shape (env.reported shape) error) middle := by
  obtain ⟨met, last, all, opening, raises, _⟩ := struck.struck
  have timed : ∀ site, last = .deadline site → env.timeout ≠ .absent := by
    rintro site rfl
    exact struck.timed raises
  have early : last.early = true :=
    List.all_eq_true.mp opening.early last (List.mem_of_getLast? opening.ends)
  apply failure_ends (Ledger.reconciled env (shape.expires env error))
    (reconcileRunTasks_does _)
  · exact Ledger.reconciled_settled _ middle
  · rfl
  · intro _ _
    apply struck.hasty_reconciled fresh reading
    intro other
    rw [Shape.expires, other, Bool.not_false, Bool.or_true, Bool.and_true]
  · rw [all, fresh.met, List.nil_append]
    exact opening.ends
  · rw [raises]
    exact exit_verdict reads early timed
  · exact timed

theorem waitForStreamedProcessExit_ends (fresh : ledger.Fresh)
    (reading : ledger.readers = .running) :
    Ends (waitForStreamedProcessExit env)
      (fun _ after => ledger.Kept env after ∧ after.torn = ledger.torn ∧ after.met = ledger.met)
      (fun error after => after.Ended env .streamed (env.reported .streamed) error) ledger := by
  apply Ends.handle
  apply awaitExitOrWriterFailure_ends.mono
  · exact fun _ _ ends => ends
  · intro error middle struck
    have same : Shape.streamed.expires env error = env.isTimeoutError error := by
      simp [Shape.expires]
    change Ends (reconcileFailure env (env.isTimeoutError error) error) _ _ middle
    rw [← same]
    exact reconcileFailure_ends (fun wrong => (by cases wrong)) fresh reading struck

theorem awaitLineStreamExit_ends (fresh : ledger.Fresh) (reading : ledger.readers = .running) :
    Ends (awaitLineStreamExit env)
      (fun _ after => ledger.Kept env after ∧ after.torn = ledger.torn ∧ after.met = ledger.met)
      (fun error after => after.Ended env .lines (env.reported .lines) error) ledger := by
  apply Ends.handle
  apply awaitExitOrWriterFailure_ends.mono
  · exact fun _ _ ends => ends
  · intro error middle struck
    have same : Shape.lines.expires env error =
        (env.isTimeoutError error && !error.isWriterFailure) := by
      simp [Shape.expires]
    change Ends (reconcileFailure env (env.isTimeoutError error && !error.isWriterFailure) error)
      _ _ middle
    rw [← same]
    exact reconcileFailure_ends (fun wrong => (by cases wrong)) fresh reading struck

/-! The collection. -/

theorem settleThenReconcile_does (preserve : Bool) (ledger : Ledger ε) :
    settleThenReconcile env preserve ledger =
      .ok () (({ ledger with torn := ledger.torn || env.owns } : Ledger ε).reconciled env
        preserve) := by
  unfold settleThenReconcile settleOwnedGroupBeforeDraining
  cases owns : env.owns with
  | true =>
      rw [Bool.or_true]
      exact reconcileRunTasks_does preserve _
  | false =>
      rw [Bool.or_false]
      exact reconcileRunTasks_does preserve _

/-- The collection has been struck, and its scope has made an error of it. -/
structure Ledger.Collected (env : Env ε) (shape : Shape) (last : Strike ε)
    (after : Ledger ε) : Prop where
  ends : after.met.getLast? = some last
  collected : last.collected shape = true
  hasty : after.hasty = after.met.any (env.hastensReaders shape)
  timed : ∀ site, last = .deadline site → env.timeout ≠ .absent

/-- What a timeout scope makes of what strikes its body. -/
def Strike.raised : Strike ε → Raised ε
  | .cancelled _ => .cancelled
  | .deadline _ => .deadline
  | .own site error => .own site.origin error

theorem Ledger.Broken.gathered {error : Raised ε} {after : Ledger ε} (fresh : ledger.Fresh)
    (broken : ledger.Broken env shape Strike.scopeRaises error after) :
    ∃ last, after.Collected env shape last ∧ error = last.scopeRaises := by
  obtain ⟨met, last, all, ends, collected, raises, hasty, timed⟩ := broken.struck
  rw [fresh.met, List.nil_append] at all
  rw [fresh.hasty, Bool.false_or] at hasty
  refine ⟨last, ⟨by rw [all, ends], collected, by rw [all, hasty], ?_⟩, raises⟩
  intro site deadline absent
  rw [timed site deadline] at absent
  cases absent

/-- The group that a run owns is torn down before its readers are cancelled. -/
theorem settleFailure_ends {α : Type} {expires : Bool} {error : Raised ε} {last : Strike ε}
    {returned : α → Ledger ε → Prop} (ends : ledger.met.getLast? = some last)
    (hasty : ledger.hasty = ledger.met.any (env.hastensReaders shape))
    (verdict : env.reported shape (if expires then env.expiry else error) =
      env.verdict shape last)
    (timed : ∀ site, last = .deadline site → env.timeout ≠ .absent) :
    Ends (settleFailure env expires error) returned
      (fun error after => after.Ended env shape (env.reported shape) error) ledger := by
  apply failure_ends _ (settleThenReconcile_does expires)
  · exact Ledger.reconciled_settled _ _
  · rfl
  · intro _ owns
    rw [← hasty]
    simp [Ledger.reconciled, owns]
  · exact ends
  · exact verdict
  · exact timed

/-- A run whose child has exited by itself, if it has exited. -/
structure Ledger.Open (env : Env ε) (ledger : Ledger ε) : Prop extends ledger.Fresh where
  reading : ledger.readers = .running
  unstopped : ledger.writer.isCancelled = false
  unfed : env.feeds = false → env.reclaims ledger.writer = true

theorem Ledger.Open.kept {after : Ledger ε} (opened : ledger.Open env)
    (kept : ledger.Kept env after) (torn : after.torn = ledger.torn)
    (met : after.met = ledger.met) : after.Open env where
  torn := torn.trans opened.torn
  hasty := kept.hasty.trans opened.hasty
  met := met.trans opened.met
  reading := kept.readers.trans opened.reading
  unstopped := kept.writer_uncancelled opened.unstopped
  unfed := fun starved => kept.writer_reclaimed (opened.unfed starved)

/-- Only the readers are left. -/
structure Ledger.Written (env : Env ε) (ledger : Ledger ε) : Prop extends ledger.Fresh where
  reading : ledger.readers = .running
  idle : env.reclaims ledger.writer = true
  still : ledger.beating = false

variable (shape) in
/-- The collection, up to the readers. -/
theorem collection_ends {α : Type} {rest : Step ε α} {returned : α → Ledger ε → Prop}
    {raised : Raised ε → Ledger ε → Prop} (opened : ledger.Open env)
    (breaks : ∀ last after, after.Collected env shape last → raised last.scopeRaises after)
    (rests : ∀ middle : Ledger ε, middle.Written env → Ends rest returned raised middle) :
    Ends (do stopIdleMonitorInScope env; awaitStdinWriter env; rest) returned raised
      ledger := by
  have broken : ∀ {middle : Ledger ε}, middle.Fresh → ∀ error after,
      middle.Broken env shape Strike.scopeRaises error after → raised error after := by
    intro middle fresh error after broken
    obtain ⟨last, collected, rfl⟩ := broken.gathered fresh
    exact breaks last after collected
  apply Ends.bind
  apply (stopIdleMonitorInScope_ends shape).mono
  · intro _ middle ends
    obtain ⟨kept, torn, met⟩ := ends
    have silent : ({ ledger with beating := false } : Ledger ε).Open env :=
      ⟨⟨opened.torn, opened.hasty, opened.met⟩, opened.reading, opened.unstopped,
        opened.unfed⟩
    have stopped := silent.kept kept torn met
    apply Ends.bind
    apply (awaitStdinWriter_ends shape stopped.unstopped stopped.unfed).mono
    · intro _ after ends
      obtain ⟨idle, still⟩ := ends
      refine rests after ⟨⟨?_, ?_, ?_⟩, still.readers.trans stopped.reading, idle, ?_⟩
      · exact still.torn.trans stopped.torn
      · exact still.hasty.trans stopped.hasty
      · exact still.met.trans stopped.met
      · exact still.beating.trans kept.beating
    · exact broken stopped.toFresh
  · exact broken opened.toFresh

variable (shape) in
/-- The scope of the collection: whether its timer has fired is what the shapes ask. -/
theorem collectionScope_ends {α : Type} {body : Step ε α} {returned : α → Ledger ε → Prop}
    (ends : Ends body returned
      (fun error after => ∃ last, after.Collected env shape last ∧
        (error = last.scopeRaises ∨ shape = .lines ∧ error = last.raised))
      { ledger with expired := false }) :
    Ends (timeoutScope env body) returned
      (fun error after => ∃ last, after.Collected env shape last ∧ error = last.raised ∧
        (shape = .streamed → ∀ site, last = .deadline site → after.expired = true) ∧
        ∀ site own, last = .own site own → after.expired = env.late) ledger := by
  apply timeoutScope_ends ends
  · rintro after ⟨last, collected, either⟩
    refine ⟨last, { collected with },
      ?_, fun _ _ _ => rfl, ?_⟩
    · rcases either with inside | ⟨_, raised⟩
      · cases last with
        | deadline site => rfl
        | cancelled | own => cases inside
      · cases last <;> cases raised
    · rintro site own rfl
      rcases either with inside | ⟨_, raised⟩
      · cases inside
      · cases raised
  · rintro origin error after ⟨last, collected, either⟩
    have raises : .own origin error = last.raised := by
      rcases either with inside | ⟨_, raised⟩
      · cases last with
        | own site own => exact inside
        | cancelled | deadline => cases inside
      · exact raised
    refine ⟨last, { collected with },
      raises, ?_, fun _ _ _ => rfl⟩
    rintro _ site rfl
    cases raises
  · rintro error after ⟨last, collected, either⟩ unexpired foreign
    have raises : error = last.raised := by
      rcases either with inside | ⟨_, raised⟩
      · cases last with
        | deadline site => exact absurd inside unexpired
        | cancelled | own => exact inside
      · exact raised
    refine ⟨last, collected, raises, ?_, ?_⟩
    · rintro streamed site rfl
      rcases either with inside | ⟨other, _⟩
      · exact absurd inside unexpired
      · cases streamed.symm.trans other
    · rintro site own rfl
      exact absurd raises (foreign _ _)

/-- What a shape with readers takes for the expiry among the errors of its collection. -/
theorem collection_verdict {last : Strike ε} (reads : shape ≠ .direct)
    (collected : ledger.Collected env shape last)
    (fired : shape = .streamed → ∀ site, last = .deadline site → ledger.expired = true)
    (late : ∀ site own, last = .own site own → ledger.expired = env.late) :
    env.reported shape
        (if env.isTimeoutError last.raised &&
            (ledger.expired || decide (shape = .lines) && !last.raised.isWriterFailure)
          then env.expiry else last.raised) =
      env.verdict shape last := by
  cases last with
  | cancelled site =>
      simp [Strike.raised, Env.isTimeoutError, Env.reported, Env.verdict]
  | deadline site =>
      have configured := collected.timed site rfl
      have expires : ledger.expired = true ∨ shape = .lines := by
        cases shape with
        | direct => exact absurd rfl reads
        | streamed => exact .inl (fired rfl site rfl)
        | lines => exact .inr rfl
      rcases expires with expired | rfl <;>
        simp [Strike.raised, Env.isTimeoutError, Env.reported, Env.verdict, Env.expiry,
          Raised.isWriterFailure, *]
  | own site error =>
      have same := late site error rfl
      have configured : env.late = true → env.timeout ≠ .absent := by
        intro fires absent
        rw [env.late_timed fires] at absent
        cases absent
      have owner := collected.collected
      cases timeout : env.isTimeout error <;> cases fires : env.late <;>
        cases shape <;> cases site <;>
        simp_all [Strike.collected, Strike.raised, Env.isTimeoutError, Env.reported,
          Env.verdict, Env.translates, Raised.isWriterFailure, Env.expiry, Site.origin]

theorem Ledger.Open.armed (opened : ledger.Open env) :
    ({ ledger with expired := false } : Ledger ε).Open env :=
  ⟨⟨opened.torn, opened.hasty, opened.met⟩, opened.reading, opened.unstopped, opened.unfed⟩

/-- The body of a streamed run's collection. -/
theorem gathering_ends (opened : ledger.Open env) :
    Ends (do stopIdleMonitorInScope env; awaitStdinWriter env; gatherConsumers env)
      (fun _ after => after.Settled env ∧ after.Fresh)
      (fun error after => ∃ last, after.Collected env .streamed last ∧
        (error = last.scopeRaises ∨ Shape.streamed = .lines ∧ error = last.raised)) ledger := by
  apply collection_ends .streamed opened
  · exact fun last _ collected => ⟨last, collected, .inl rfl⟩
  · intro middle written
    apply (gatherConsumers_ends written.reading written.torn).mono
    · intro _ after ends
      obtain ⟨kept, torn, met⟩ := ends
      refine ⟨⟨kept.writer_reclaimed written.idle, .inr kept.readers, ?_⟩, ?_, ?_, ?_⟩
      · exact kept.beating.trans written.still
      · exact torn.trans written.torn
      · exact kept.hasty.trans written.hasty
      · exact met.trans written.met
    · intro error after broken
      obtain ⟨last, collected, raises⟩ := broken.gathered written.toFresh
      exact ⟨last, collected, .inl raises⟩

theorem collectStreamOutput_ends (opened : ledger.Open env) :
    Ends (collectStreamOutput env) (fun _ after => after.Settled env ∧ after.Fresh)
      (fun error after => after.Ended env .streamed (env.reported .streamed) error) ledger := by
  apply Ends.handle
  apply (collectionScope_ends .streamed (gathering_ends opened.armed)).mono
  · exact fun _ _ ends => ends
  · rintro _ middle ⟨last, collected, rfl, fired, late⟩
    apply Ends.bind
    apply Ends.reads
    have verdict := collection_verdict (fun wrong => (by cases wrong)) collected fired late
    apply settleFailure_ends collected.ends collected.hasty ?_ collected.timed
    simpa using verdict

/-- The body of the collection of `lines()`. -/
theorem watching_ends (opened : ledger.Open env) :
    Ends (do stopIdleMonitorInScope env; awaitStdinWriter env; awaitConsumers env)
      (fun failure after => after.Fresh ∧ (failure = none → after.Settled env))
      (fun error after => ∃ last, after.Collected env .lines last ∧
        (error = last.scopeRaises ∨ Shape.lines = .lines ∧ error = last.raised)) ledger := by
  apply collection_ends .lines opened
  · exact fun last _ collected => ⟨last, collected, .inl rfl⟩
  · intro middle written
    apply (awaitConsumers_ends written.reading).mono
    · intro failure after ends
      obtain ⟨beating, hasty, torn, met, idle, settles⟩ := ends
      refine ⟨⟨torn.trans written.torn, hasty.trans written.hasty, met.trans written.met⟩, ?_⟩
      intro whole
      exact ⟨idle written.idle, .inr (settles whole), beating.trans written.still⟩
    · rintro error after (broken | ⟨rfl, broken⟩)
      · obtain ⟨last, collected, raises⟩ := broken.gathered written.toFresh
        exact ⟨last, collected, .inl raises⟩
      · obtain ⟨last, collected, raises⟩ := broken.gathered written.toFresh
        refine ⟨last, collected, .inr ⟨rfl, ?_⟩⟩
        cases last with
        | deadline site => rfl
        | cancelled | own => cases raises

theorem collectLineStreamAfterExit_ends (opened : ledger.Open env) :
    Ends (collectLineStreamAfterExit env) (fun _ after => after.Settled env ∧ after.Fresh)
      (fun error after => after.Ended env .lines (env.reported .lines) error) ledger := by
  apply Ends.bind
  apply Ends.handle
  apply (collectionScope_ends .lines (watching_ends opened.armed)).mono
  · rintro failure middle ⟨fresh, settles⟩
    cases failure with
    | none =>
        apply Ends.branch
        · intro _
          apply Ends.bind
          apply Ends.updates
          apply Ends.raises
          apply Ledger.ended_interrupted (settles rfl) rfl _ reported_cancelled
          intro _ _
          rw [fresh.hasty, fresh.met]
          rfl
        · exact fun _ => Ends.returns ⟨settles rfl, fresh⟩
    | some error =>
        apply Ends.bind
        apply Ends.updates
        have struck : (middle.met ++ [Strike.own .readers error]).getLast? =
            some (Strike.own .readers error) := List.getLast?_concat
        apply settleFailure_ends struck
        · rw [fresh.hasty, fresh.met]
          rfl
        · simp [Env.reported, Env.verdict, Env.translates, Site.origin]
        · exact fun _ wrong => (by cases wrong)
  · rintro _ middle ⟨last, collected, rfl, fired, late⟩
    apply Ends.bind
    apply Ends.reads
    have verdict := collection_verdict (fun wrong => (by cases wrong)) collected fired late
    apply settleFailure_ends collected.ends collected.hasty ?_ collected.timed
    simpa using verdict

/-! The runs. -/

theorem shieldedNothing_ends {site : Site} (report : Raised ε → Raised ε)
    (settled : ledger.Settled env) (fresh : ledger.Fresh)
    (calm : env.hastensReaders shape (.cancelled site) = false)
    (reports : report .cancelled = .cancelled) :
    Ends (shieldedCleanup env site (pure ())) (fun _ after => after.Settled env ∧ after.Fresh)
      (fun error after => after.Ended env shape report error) ledger := by
  apply shieldedCleanup_ends id
  · exact fun _ => rfl
  · exact fun _ => ⟨settled, fresh⟩
  · intro _
    apply Ledger.ended_interrupted settled calm _ reports
    intro _ _
    rw [fresh.hasty, fresh.met]
    rfl

theorem runSubprocessWithStreams_ends (opened : ledger.Open env) :
    Ends (runSubprocessWithStreams env) (fun _ after => after.Settled env ∧ after.Fresh)
      (fun error after => after.Ended env .streamed (env.reported .streamed) error) ledger := by
  apply Ends.bind
  apply (waitForStreamedProcessExit_ends opened.toFresh opened.reading).mono
  · intro _ exited ends
    obtain ⟨kept, torn, met⟩ := ends
    apply Ends.bind
    apply (collectStreamOutput_ends (opened.kept kept torn met)).mono
    · rintro _ after ⟨settled, fresh⟩
      exact shieldedNothing_ends _ settled fresh rfl reported_cancelled
    · exact fun _ _ ends => ends
  · exact fun _ _ ends => ends

theorem waitForLineStreamExit_ends (opened : ledger.Open env) :
    Ends (waitForLineStreamExit env) (fun _ after => after.Settled env ∧ after.Fresh)
      (fun error after => after.Ended env .lines (env.reported .lines) error) ledger := by
  apply Ends.bind
  apply (awaitLineStreamExit_ends opened.toFresh opened.reading).mono
  · intro _ exited ends
    obtain ⟨kept, torn, met⟩ := ends
    exact collectLineStreamAfterExit_ends (opened.kept kept torn met)
  · exact fun _ _ ends => ends

end Cuprum.Deadline
