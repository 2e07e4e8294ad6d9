import Cuprum.Deadline.ExitWait

namespace Cuprum.Deadline

open Cuprum.Effect

section Programs

variable {ε : Type} (env : Env ε)

/-- The writer's task is awaited once it is done. -/
def awaitDoneWriter : Step ε Unit := do
  match (← get).writer with
  | .ended (some error) => fail .writer error
  | .stopped => throw .cancelled
  | _ => pure ()

def expireOrReclaimWriter : Step ε Unit := do
  suspend env .window
  match (← get).writer with
  | .ended _ => awaitDoneWriter
  | _ => cancelStdinWriter env

def settleStdinWriter : Step ε Unit := do
  match (← get).writer with
  | .absent => pure ()
  | .running | .pending => shieldedCleanup env .window (expireOrReclaimWriter env)
  | _ => awaitDoneWriter

/-- `_await_task_to_completion` of the writer. -/
def awaitWriterToCompletion : Step ε Unit := do
  await env .writer
  endWriter env
  awaitDoneWriter

/-- The writer is settled by a task of its own, which the run does not cancel. -/
def awaitStdinWriter : Step ε Unit :=
  if env.feeds then do
    await env .writer
    settleStdinWriter env
  else pure ()

/-- The heartbeat is stopped before a cancellation of this await is raised. -/
def stopIdleMonitorInScope : Step ε Unit := do
  stopIdleMonitor
  await env .heartbeat

/-- The gather of the readers hands on to them whatever cancels it. -/
def gatherConsumers : Step ε Unit := do
  suspend env .readers
  match env.answers .readers with
  | .returns =>
      match env.reader with
      | none => settleReaders
      | some error => do
          if env.late then cancelReaders env else pure ()
          fail .readers error
  | .cancelled => do
      cancelReaders env
      strike (.cancelled .readers)
      throw .cancelled
  | .expires => do
      cancelReaders env
      strike (.deadline .readers)
      throw .expiry

/-- The readers are only watched; a failure of theirs is returned. -/
def awaitConsumers : Step ε (Option ε) := do
  await env .readers
  match env.reader with
  | some error => pure (some error)
  | none =>
      if env.lapses then do
        strike (.deadline .readers)
        throw .deadline
      else do
        settleReaders
        pure none

/-- An owned group is torn down before its readers are drained. -/
def settleThenReconcile (preserve : Bool) : Step ε Unit := do
  settleOwnedGroupBeforeDraining env
  reconcileRunTasks env preserve

end Programs

/-- The ways in which a run of one command is driven. -/
inductive Shape
  | direct
  | streamed
  | lines
  deriving DecidableEq

variable {ε : Type} {env : Env ε} {ledger : Ledger ε}

/-- Where a shape takes a `TimeoutError` of one of its tasks for its deadline. -/
def Env.translates (env : Env ε) : Shape → Site → Bool
  | _, .event | _, .drains => false
  | .direct, _ => true
  | .streamed, .race => true
  | _, .race => false
  | _, .exit => true
  | .lines, .readers => false
  | _, _ => env.late

/-- What the last strike comes to: a cancellation wins over all, and an error of a task's own
is raised as it is, but for the `TimeoutError`s that the shape translates. -/
def Env.verdict (env : Env ε) (shape : Shape) : Strike ε → Raised ε
  | .cancelled _ => .cancelled
  | .deadline _ => .timeoutExpired
  | .own site error =>
      if env.isTimeout error ∧ env.translates shape site then
        if env.timeout = .absent then .invariant else .timeoutExpired
      else .own site.origin error

/-- The strikes on which readers are cancelled before the group of the run is torn down. -/
def Env.hastens (env : Env ε) (shape : Shape) : Strike ε → Bool
  | .cancelled .race => !env.tears (.cancelled .race)
  | .own .exit error =>
      !(env.eof && env.isTimeout error && decide (env.timeout ≠ .absent))
  | .cancelled .readers | .deadline .readers => decide (shape = .streamed)
  | .own .readers _ => decide (shape = .streamed) && env.late
  | _ => false

/-- A strike that hastens cancels the readers that still run. -/
def Env.hastensReaders (env : Env ε) (shape : Shape) (strike : Strike ε) : Bool :=
  env.hastens shape strike && !env.finished

/-- The writer is done, or was cancelled and is one that outlives its time. -/
def Env.reclaims (env : Env ε) : Writer ε → Bool
  | .running => false
  | .pending => env.outlives
  | .absent | .ended _ | .stopped => true

def Writer.isCancelled : Writer ε → Bool
  | .stopped | .pending => true
  | .absent | .running | .ended _ => false

@[simp]
theorem Env.reclaims_stop (env : Env ε) (writer : Writer ε) :
    env.reclaims (writer.stop env.outlives) = true := by
  cases writer with
  | absent | ended | stopped => rfl
  | running | pending =>
      unfold Writer.stop
      cases outlives : env.outlives with
      | true => exact outlives
      | false => rfl

/-- No task of the run is left to await, but for a writer that outlives the time it is given
to unwind. -/
structure Ledger.Settled (env : Env ε) (ledger : Ledger ε) : Prop where
  writer : env.reclaims ledger.writer = true
  readers : ledger.readers = .absent ∨ ledger.readers = .settled
  beating : ledger.beating = false

/-- What the awaits within a timeout scope make of what strikes them. -/
def Strike.scopeRaises : Strike ε → Raised ε
  | .cancelled _ => .cancelled
  | .deadline _ => .expiry
  | .own site error => .own site.origin error

/-- The errors of their own that tasks raise within the scope of the collection. -/
def Strike.collected (shape : Shape) : Strike ε → Bool
  | .own site _ => decide (site = .writer ∨ site = .readers ∧ shape = .streamed)
  | _ => true

/-- A run without readers, and so without a heartbeat. -/
def Ledger.Bare (ledger : Ledger ε) : Prop :=
  ledger.readers = .absent ∧ ledger.beating = false

/-- An await after the exit has been struck. -/
structure Ledger.Broken (env : Env ε) (shape : Shape) (raises : Strike ε → Raised ε)
    (ledger : Ledger ε) (error : Raised ε) (after : Ledger ε) : Prop where
  torn : after.torn = ledger.torn
  bare : ledger.Bare → after.Bare
  struck : ∃ met last, after.met = ledger.met ++ met ∧ met.getLast? = some last ∧
    last.collected shape = true ∧ error = raises last ∧
    after.hasty = (ledger.hasty || met.any (env.hastensReaders shape)) ∧
    ∀ site, last = .deadline site → env.timeout = .positive

/-- But for the writer nothing has changed. -/
structure Ledger.Still (ledger after : Ledger ε) : Prop where
  readers : after.readers = ledger.readers
  beating : after.beating = ledger.beating
  hasty : after.hasty = ledger.hasty
  torn : after.torn = ledger.torn
  met : after.met = ledger.met

theorem Ledger.Still.refl (ledger : Ledger ε) : ledger.Still ledger :=
  ⟨rfl, rfl, rfl, rfl, rfl⟩

theorem Ledger.Still.trans {middle after : Ledger ε} (first : ledger.Still middle)
    (second : middle.Still after) : ledger.Still after where
  readers := second.readers.trans first.readers
  beating := second.beating.trans first.beating
  hasty := second.hasty.trans first.hasty
  torn := second.torn.trans first.torn
  met := second.met.trans first.met

theorem Ledger.Still.of_kept {after : Ledger ε} (kept : ledger.Kept env after)
    (torn : after.torn = ledger.torn) (met : after.met = ledger.met) : ledger.Still after where
  readers := kept.readers
  beating := kept.beating
  hasty := kept.hasty
  torn := torn
  met := met

theorem Ledger.Still.bare {after : Ledger ε} (still : ledger.Still after) (bare : ledger.Bare) :
    after.Bare :=
  ⟨still.readers.trans bare.1, still.beating.trans bare.2⟩

theorem Ledger.Kept.bare {after : Ledger ε} (kept : ledger.Kept env after)
    (bare : ledger.Bare) : after.Bare :=
  ⟨kept.readers.trans bare.1, kept.beating.trans bare.2⟩

theorem Ledger.Broken.of_still {shape : Shape} {raises : Strike ε → Raised ε}
    {middle after : Ledger ε} {error : Raised ε} (still : ledger.Still middle)
    (broken : middle.Broken env shape raises error after) :
    ledger.Broken env shape raises error after where
  torn := broken.torn.trans still.torn
  bare := fun bare => broken.bare (still.bare bare)
  struck := by
    have struck := broken.struck
    rwa [still.hasty, still.met] at struck

/-- A caller that is cancelled meanwhile, where that hastens nothing. -/
theorem Ledger.Broken.interrupt {shape : Shape} {after : Ledger ε} {error : Raised ε}
    {site : Site} (calm : env.hastensReaders shape (.cancelled site) = false)
    (broken : ledger.Broken env shape Strike.scopeRaises error after) :
    ledger.Broken env shape Strike.scopeRaises .cancelled
      { after with met := after.met ++ [.cancelled site] } where
  torn := broken.torn
  bare := broken.bare
  struck := by
    obtain ⟨met, last, all, _, _, _, hasty, _⟩ := broken.struck
    refine ⟨met ++ [.cancelled site], .cancelled site, ?_, ?_, rfl, rfl, ?_, ?_⟩
    · rw [all, List.append_assoc]
    · rw [List.getLast?_concat]
    · rw [List.any_append, List.any_cons, calm, List.any_nil, Bool.or_false, Bool.or_false]
      exact hasty
    · exact fun _ wrong => (by cases wrong)

/-- A strike that comes alone, with no reader to cancel. -/
theorem Ledger.Broken.of_strike {shape : Shape} {raises : Strike ε → Raised ε}
    {after : Ledger ε} (last : Strike ε) (torn : after.torn = ledger.torn)
    (hasty : after.hasty = (ledger.hasty || env.hastensReaders shape last))
    (met : after.met = ledger.met ++ [last]) (collected : last.collected shape = true)
    (timed : ∀ site, last = .deadline site → env.timeout = .positive)
    (bare : ledger.Bare → after.Bare) :
    ledger.Broken env shape raises (raises last) after where
  torn := torn
  bare := bare
  struck := by
    refine ⟨[last], last, met, rfl, collected, rfl, ?_, timed⟩
    rw [hasty, List.any_cons, List.any_nil, Bool.or_false]

theorem Ledger.Broken.of_cancelled {shape : Shape} {after : Ledger ε} {site : Site}
    (calm : env.hastensReaders shape (.cancelled site) = false) (still : ledger.Still after) :
    ledger.Broken env shape Strike.scopeRaises .cancelled
      { after with met := after.met ++ [.cancelled site] } := by
  apply Ledger.Broken.of_strike (.cancelled site)
  · exact still.torn
  · rw [calm, Bool.or_false]
    exact still.hasty
  · rw [← still.met]
  · rfl
  · exact fun _ wrong => (by cases wrong)
  · exact still.bare

theorem await_ends (shape : Shape) {site : Site}
    (cancels : env.hastensReaders shape (.cancelled site) = false)
    (expires : env.hastensReaders shape (.deadline site) = false) :
    Ends (await env site)
      (fun _ after => ledger.Kept env after ∧ after.torn = ledger.torn ∧ after.met = ledger.met)
      (fun error after => ledger.Broken env shape Strike.scopeRaises error after) ledger := by
  apply Ends.bind
  apply (suspend_ends site).mono
  · intro _ middle suspended
    obtain ⟨kept, torn, met⟩ := suspended
    cases answer : env.answers site with
    | returns => exact Ends.returns ⟨kept, torn, met⟩
    | cancelled =>
        apply Ends.bind
        apply Ends.updates
        apply Ends.raises
        exact .of_cancelled cancels (.of_kept kept torn met)
    | expires =>
        apply Ends.bind
        apply Ends.updates
        apply Ends.raises
        apply Ledger.Broken.of_strike (.deadline site)
        · exact torn
        · rw [expires, Bool.or_false]
          exact kept.hasty
        · rw [← met]
        · rfl
        · exact fun _ _ => env.expires_timed site answer
        · exact kept.bare
  · exact fun _ _ wrong => wrong

theorem awaitDoneWriter_ends (shape : Shape) {failure : Option ε}
    (ended : ledger.writer = .ended failure) :
    Ends awaitDoneWriter (fun _ after => after = ledger)
      (fun error after => ledger.Broken env shape Strike.scopeRaises error after) ledger := by
  apply Ends.bind
  apply Ends.reads
  rw [ended]
  cases failure with
  | none => exact Ends.returns rfl
  | some error =>
      apply Ends.bind
      apply Ends.updates
      apply Ends.raises
      apply Ledger.Broken.of_strike (.own .writer error)
      · rfl
      · exact (Bool.or_false _).symm
      · rfl
      · rfl
      · exact fun _ wrong => (by cases wrong)
      · exact fun bare => bare

variable (env) in
theorem expireOrReclaimWriter_ends (shape : Shape) (running : ledger.writer = .running) :
    Ends (expireOrReclaimWriter env)
      (fun _ after => env.reclaims after.writer = true ∧ ledger.Still after)
      (fun error after => ledger.Broken env shape Strike.scopeRaises error after) ledger := by
  apply Ends.bind
  apply (suspend_ends .window).mono
  · intro _ middle suspended
    obtain ⟨kept, torn, met⟩ := suspended
    have still : ledger.Still middle := .of_kept kept torn met
    apply Ends.bind
    apply Ends.reads
    cases writes : middle.writer with
    | ended failure =>
        apply (awaitDoneWriter_ends shape writes).mono
        · intro _ after same
          subst same
          exact ⟨by rw [writes]; rfl, still⟩
        · exact fun _ _ broken => broken.of_still still
    | running =>
        apply Ends.updates
        refine ⟨?_, still.readers, still.beating, still.hasty, still.torn, still.met⟩
        simp [writes]
    | absent | stopped | pending =>
        rcases kept.writer with same | finished
        · rw [same, running] at writes
          cases writes
        · rw [finished, running] at writes
          cases writes
  · exact fun _ _ wrong => wrong

/-- A writer that has not been stopped is settled, whether it ends by itself or not. -/
theorem settleStdinWriter_ends (shape : Shape) (unstopped : ledger.writer.isCancelled = false) :
    Ends (settleStdinWriter env)
      (fun _ after => env.reclaims after.writer = true ∧ ledger.Still after)
      (fun error after => ledger.Broken env shape Strike.scopeRaises error after) ledger := by
  apply Ends.bind
  apply Ends.reads
  have same : ledger.Still ledger := .refl ledger
  cases writes : ledger.writer with
  | absent => exact Ends.returns ⟨by rw [writes]; rfl, same⟩
  | stopped | pending =>
      rw [writes] at unstopped
      cases unstopped
  | ended failure =>
      apply (awaitDoneWriter_ends shape writes).mono
      · intro _ after equal
        subst equal
        exact ⟨by rw [writes]; rfl, same⟩
      · exact fun _ _ broken => broken
  | running =>
      have reclaims := expireOrReclaimWriter_ends env shape writes
      apply Ends.branch
      · intro _
        change ledger.Broken env shape Strike.scopeRaises .cancelled
          (left (tryFinally (expireOrReclaimWriter env) (strike (.cancelled .window))) ledger)
        rw [left_tryFinally]
        refine reclaims.holds_left ?_ ?_
        · exact fun _ _ ends => .of_cancelled rfl ends.2
        · exact fun _ _ broken => broken.interrupt rfl
      · exact fun _ => reclaims

theorem Env.reclaims_finish {writer : Writer ε} (idle : env.reclaims writer = true)
    (failure : Option ε) : env.reclaims (writer.finish failure) = true := by
  cases writer with
  | running => rfl
  | absent | ended | stopped | pending => exact idle

theorem Ledger.Kept.writer_reclaimed {after : Ledger ε} (kept : ledger.Kept env after)
    (idle : env.reclaims ledger.writer = true) : env.reclaims after.writer = true := by
  rcases kept.writer with same | finished
  · rwa [same]
  · rw [finished]
    exact Env.reclaims_finish idle _

theorem Ledger.Kept.writer_uncancelled {after : Ledger ε} (kept : ledger.Kept env after)
    (unstopped : ledger.writer.isCancelled = false) : after.writer.isCancelled = false := by
  rcases kept.writer with same | finished
  · rwa [same]
  · rw [finished]
    cases writes : ledger.writer with
    | stopped | pending =>
        rw [writes] at unstopped
        cases unstopped
    | absent | running | ended => rfl

theorem awaitStdinWriter_ends (shape : Shape) (unstopped : ledger.writer.isCancelled = false)
    (unfed : env.feeds = false → env.reclaims ledger.writer = true) :
    Ends (awaitStdinWriter env)
      (fun _ after => env.reclaims after.writer = true ∧ ledger.Still after)
      (fun error after => ledger.Broken env shape Strike.scopeRaises error after) ledger := by
  apply Ends.branch
  · intro _
    apply Ends.bind
    apply (await_ends shape rfl rfl).mono
    · intro _ middle ends
      obtain ⟨kept, torn, met⟩ := ends
      have still : ledger.Still middle := .of_kept kept torn met
      apply (settleStdinWriter_ends shape (kept.writer_uncancelled unstopped)).mono
      · intro _ after ends
        obtain ⟨idle, later⟩ := ends
        exact ⟨idle, still.trans later⟩
      · exact fun _ _ broken => broken.of_still still
    · exact fun _ _ broken => broken
  · intro starved
    exact Ends.returns ⟨unfed (eq_false_of_ne_true starved), .refl ledger⟩

theorem stopIdleMonitorInScope_ends (shape : Shape) :
    Ends (stopIdleMonitorInScope env)
      (fun _ after => ({ ledger with beating := false } : Ledger ε).Kept env after ∧
        after.torn = ledger.torn ∧ after.met = ledger.met)
      (fun error after => ledger.Broken env shape Strike.scopeRaises error after) ledger := by
  apply Ends.bind
  apply Ends.updates
  apply (await_ends shape rfl rfl).mono
  · exact fun _ _ ends => ends
  · exact fun _ _ broken => ⟨broken.torn, fun bare => broken.bare ⟨bare.1, rfl⟩, broken.struck⟩

theorem cancelReaders_ends (running : ledger.readers = .running) (untorn : ledger.torn = false)
    {raised : Raised ε → Ledger ε → Prop} :
    Ends (cancelReaders env)
      (fun _ after => after.torn = ledger.torn ∧ after.met = ledger.met ∧
        after.hasty = (ledger.hasty || !env.finished))
      raised ledger := by
  apply Ends.updates
  rw [if_pos running]
  cases finished : env.finished with
  | true => exact ⟨rfl, rfl, (Bool.or_false _).symm⟩
  | false => exact ⟨rfl, rfl, by simp [untorn]⟩

/-- A strike that the gather hands on to its readers. -/
theorem handedOn_ends {middle : Ledger ε} (kept : ledger.Kept env middle)
    (torn : middle.torn = ledger.torn) (met : middle.met = ledger.met)
    (running : ledger.readers = .running) (untorn : ledger.torn = false) (last : Strike ε)
    (collected : last.collected .streamed = true) (hastens : env.hastens .streamed last = true)
    (timed : ∀ site, last = .deadline site → env.timeout = .positive)
    {returned : Unit → Ledger ε → Prop} :
    Ends (do cancelReaders env; strike last; throw last.scopeRaises) returned
      (fun error after => ledger.Broken env .streamed Strike.scopeRaises error after) middle := by
  have reading : middle.readers = .running := kept.readers.trans running
  have unsettled : middle.torn = false := torn.trans untorn
  apply Ends.bind
  apply (cancelReaders_ends reading unsettled).mono
  · rintro _ cancelled ⟨unmoved, unmet, hasty⟩
    apply Ends.bind
    apply Ends.updates
    apply Ends.raises
    apply Ledger.Broken.of_strike last
    · exact unmoved.trans torn
    · rw [Env.hastensReaders, hastens, Bool.true_and, ← kept.hasty]
      exact hasty
    · rw [← met, ← unmet]
    · exact collected
    · exact timed
    · intro bare
      cases running.symm.trans bare.1
  · exact fun _ _ wrong => wrong

/-- A gather that is cancelled, or expires, cancels the readers at once. -/
theorem gatherConsumers_ends (running : ledger.readers = .running)
    (untorn : ledger.torn = false) :
    Ends (gatherConsumers env)
      (fun _ after => ({ ledger with readers := .settled } : Ledger ε).Kept env after ∧
        after.torn = ledger.torn ∧ after.met = ledger.met)
      (fun error after => ledger.Broken env .streamed Strike.scopeRaises error after)
      ledger := by
  apply Ends.bind
  apply (suspend_ends .readers).mono
  · intro _ middle suspended
    obtain ⟨kept, torn, met⟩ := suspended
    have reading : middle.readers = .running := kept.readers.trans running
    cases answer : env.answers .readers with
    | returns =>
        cases fails : env.reader with
        | none =>
            apply Ends.updates
            exact ⟨⟨by rw [reading]; rfl, kept.hasty, kept.beating, kept.writer⟩, torn, met⟩
        | some error =>
            apply Ends.branch
            · intro late
              apply handedOn_ends kept torn met running untorn (.own .readers error)
              · rfl
              · exact late
              · exact fun _ wrong => (by cases wrong)
            · intro early
              apply Ends.bind
              apply Ends.updates
              apply Ends.raises
              apply Ledger.Broken.of_strike (.own .readers error)
              · exact torn
              · rw [Env.hastensReaders, Env.hastens, eq_false_of_ne_true early, Bool.and_false,
                  Bool.false_and, Bool.or_false]
                exact kept.hasty
              · rw [← met]
              · rfl
              · exact fun _ wrong => (by cases wrong)
              · exact kept.bare
    | cancelled =>
        apply handedOn_ends kept torn met running untorn (.cancelled .readers)
        · rfl
        · rfl
        · exact fun _ wrong => (by cases wrong)
    | expires =>
        apply handedOn_ends kept torn met running untorn (.deadline .readers)
        · rfl
        · rfl
        · exact fun _ _ => env.expires_timed .readers answer
  · exact fun _ _ wrong => wrong

theorem awaitWriterToCompletion_ends (shape : Shape) (unstopped : ledger.writer.isCancelled = false) :
    Ends (awaitWriterToCompletion env)
      (fun _ after => env.reclaims after.writer = true ∧ ledger.Still after)
      (fun error after => ledger.Broken env shape Strike.scopeRaises error after) ledger := by
  apply Ends.bind
  apply (await_ends shape rfl rfl).mono
  · intro _ middle ends
    obtain ⟨kept, torn, met⟩ := ends
    have still : ledger.Still middle := .of_kept kept torn met
    have unstopped : middle.writer.isCancelled = false := kept.writer_uncancelled unstopped
    apply Ends.bind
    apply Ends.updates
    cases writes : middle.writer with
    | stopped | pending =>
        rw [writes] at unstopped
        cases unstopped
    | absent =>
        refine Ends.of_ok rfl ⟨rfl, ?_⟩
        exact ⟨still.readers, still.beating, still.hasty, still.torn, still.met⟩
    | running | ended =>
        apply (awaitDoneWriter_ends shape rfl).mono
        · intro _ after same
          subst same
          refine ⟨rfl, ?_⟩
          exact ⟨still.readers, still.beating, still.hasty, still.torn, still.met⟩
        · intro error after broken
          have broken : middle.Broken env shape Strike.scopeRaises error after :=
            ⟨broken.torn, broken.bare, broken.struck⟩
          exact broken.of_still still
  · exact fun _ _ broken => broken

/-- Readers that are only watched are not cancelled. -/
theorem awaitConsumers_ends (running : ledger.readers = .running) :
    Ends (awaitConsumers env)
      (fun failure after => after.beating = ledger.beating ∧ after.hasty = ledger.hasty ∧
        after.torn = ledger.torn ∧ after.met = ledger.met ∧
        (env.reclaims ledger.writer = true → env.reclaims after.writer = true) ∧
        (failure = none → after.readers = .settled))
      (fun error after => ledger.Broken env .lines Strike.scopeRaises error after ∨
        error = .deadline ∧ ledger.Broken env .lines Strike.scopeRaises .expiry after)
      ledger := by
  apply Ends.bind
  apply (await_ends .lines rfl rfl).mono
  · intro _ middle ends
    obtain ⟨kept, torn, met⟩ := ends
    cases fails : env.reader with
    | some error =>
        refine Ends.returns ⟨kept.beating, kept.hasty, torn, met, kept.writer_reclaimed, ?_⟩
        exact fun wrong => (by cases wrong)
    | none =>
        apply Ends.branch
        · intro lapses
          apply Ends.bind
          apply Ends.updates
          refine Ends.raises (.inr ⟨rfl, ?_⟩)
          apply Ledger.Broken.of_strike (.deadline .readers)
          · exact torn
          · exact kept.hasty.trans (Bool.or_false _).symm
          · rw [← met]
          · rfl
          · exact fun _ _ => env.lapses_timed lapses
          · exact kept.bare
        · intro _
          apply Ends.bind
          apply Ends.updates
          refine Ends.returns ⟨kept.beating, kept.hasty, torn, met, kept.writer_reclaimed, ?_⟩
          rw [kept.readers, running]
          exact fun _ => rfl
  · exact fun _ _ broken => .inl broken

/-- A scope raises a `TimeoutError` of its own where its timer has ended the body. -/
theorem timeoutScope_ends {α : Type} {body : Step ε α} {returned : α → Ledger ε → Prop}
    {raised later : Raised ε → Ledger ε → Prop}
    (ends : Ends body returned raised { ledger with expired := false })
    (expires : ∀ after, raised .expiry after → later .deadline { after with expired := true })
    (fails : ∀ origin error after, raised (.own origin error) after →
      later (.own origin error) { after with expired := env.late })
    (passes : ∀ error after, raised error after → error ≠ .expiry →
      (∀ origin own, error ≠ .own origin own) → later error after) :
    Ends (timeoutScope env body) returned later ledger := by
  apply Ends.bind
  apply Ends.updates
  apply Ends.handle
  apply ends.mono
  · exact fun _ _ returns => returns
  · intro error after raises
    cases error with
    | expiry =>
        apply Ends.bind
        apply Ends.updates
        exact Ends.raises (expires after raises)
    | own origin own =>
        apply Ends.bind
        apply Ends.updates
        exact Ends.raises (fails origin own after raises)
    | cancelled | deadline | subprocessTimeout | invariant | timeoutExpired =>
        apply Ends.raises
        apply passes _ after raises
        · exact fun wrong => (by cases wrong)
        · exact fun _ _ wrong => (by cases wrong)

/-- What a reconciliation leaves. -/
def Ledger.reconciled (env : Env ε) (preserve : Bool) (ledger : Ledger ε) : Ledger ε :=
  { ledger with
    beating := false
    writer := ledger.writer.stop env.outlives
    readers := if ledger.readers = .absent then .absent else .settled
    hasty := ledger.hasty ||
      (decide (ledger.readers = .running) && !(preserve && env.eof) && !ledger.torn &&
        !env.finished) }

theorem reconcileRunTasks_does (preserve : Bool) (ledger : Ledger ε) :
    reconcileRunTasks env preserve ledger = .ok () (ledger.reconciled env preserve) := by
  obtain ⟨writer, readers, beating, torn, hasty, expired, met⟩ := ledger
  unfold reconcileRunTasks drainStreamConsumers Ledger.reconciled
  cases preserve && env.eof with
  | true => cases readers <;> simp <;> rfl
  | false =>
      cases finished : env.finished with
      | true => cases readers <;> simp [cancelReaders, finished] <;> rfl
      | false => cases readers <;> simp [cancelReaders, finished] <;> rfl

theorem Ledger.reconciled_settled (preserve : Bool) (ledger : Ledger ε) :
    (ledger.reconciled env preserve).Settled env where
  writer := env.reclaims_stop ledger.writer
  readers := by
    by_cases absent : ledger.readers = .absent
    · exact .inl (if_pos absent)
    · exact .inr (if_neg absent)
  beating := rfl

end Cuprum.Deadline
