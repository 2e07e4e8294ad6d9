import Cuprum.Deadline.Run

namespace Cuprum.Deadline

open Cuprum.Effect

section Programs

variable {ε : Type} (env : Env ε)

/-- `_await_process_exit`, which may fail on its own. -/
def awaitProcessExit (answer : Answer) : Step ε Unit := do
  suspend env .exit
  match answer with
  | .returns =>
      match env.child with
      | none => pure ()
      | some error => fail .exit error
  | .cancelled => do
      strike (.cancelled .exit)
      throw .cancelled
  | .expires => do
      strike (.deadline .exit)
      throw .expiry

/-- A cancellation ends the child, whether the caller asks for it or the timer. -/
def waitForExitCode (answer : Answer) : Step ε Unit :=
  tryCatch (awaitProcessExit env answer) fun error =>
    if error.isCancellation then do
      terminateAllShielded env
      throw error
    else throw error

def waitForExitCodeWithinTimeout (answer : Answer) : Step ε Unit :=
  if env.timeout = .nonPositive then do
    terminateAllShielded env
    strike (.deadline .exit)
    throw .deadline
  else
    tryCatch (timeoutScope env (waitForExitCode env answer)) fun error =>
      if env.isTimeoutError error then do
        requireTimeout env
        throw error
      else throw error

/-- The exit wait runs in a task of its own. -/
def cancelExitWait : Step ε Unit :=
  unobserved (waitForExitCodeWithinTimeout env .cancelled)

/-- The first of the exit wait and the writer to be done, unless the caller is cancelled. -/
def race : Step ε Unit := do
  if env.interrupts .race then do
    suspend env .race
    strike (.cancelled .race)
    throw .cancelled
  else if env.exitDone then suspend env .race
  else endWriter env

def awaitExitOrWriterFailure : Step ε Unit :=
  if env.feeds then do
    tryCatch (race env) fun error => do
      if env.exitDone then
        unobserved (waitForExitCodeWithinTimeout env (env.answers .exit))
      else shieldedCleanup env .abandon (cancelExitWait env)
      throw error
    if env.exitDone then waitForExitCodeWithinTimeout env (env.answers .exit)
    else
      match ← stdinWriterFailure with
      | some failure => do
          shieldedCleanup env .abandon (cancelExitWait env)
          fail .race failure
      | none => waitForExitCodeWithinTimeout env (env.answers .exit)
  else waitForExitCodeWithinTimeout env (env.answers .exit)

end Programs

variable {ε : Type} {env : Env ε} {ledger : Ledger ε}

/-- What the exit wait and the race make of what strikes them. -/
def Env.exitRaises (env : Env ε) : Strike ε → Raised ε
  | .cancelled _ => .cancelled
  | .deadline _ => .deadline
  | .own site error =>
      if site = .exit ∧ env.isTimeout error ∧ env.timeout = .absent then .invariant
      else .own site.origin error

/-- The exit wait ends the child, unless it fails on its own. -/
def Env.exitTears (env : Env ε) (answer : Answer) : Bool :=
  decide (env.timeout = .nonPositive) || decide (answer ≠ .returns)

/-- What strikes the run before the exit wait is over leaves its child, and the group it
owns, torn down. -/
def Env.tears (env : Env ε) : Strike ε → Bool
  | .own .exit _ => false
  | .cancelled .race => !env.exitDone || env.exitTears (env.answers .exit)
  | _ => true

/-- The strikes of the exit wait and the race. -/
def Strike.early : Strike ε → Bool
  | .cancelled site => decide (site = .race ∨ site = .exit ∨ site = .terminate ∨ site = .abandon)
  | .deadline site => decide (site = .exit)
  | .own site _ => decide (site = .exit ∨ site = .race)

/-- The strikes with which a wait for the exit has ended: one that leaves the child alive
stands alone. -/
structure Env.Opening (env : Env ε) (met : List (Strike ε)) (last : Strike ε) : Prop where
  ends : met.getLast? = some last
  early : met.all Strike.early = true
  alone : met.all env.tears = false → met = [last]

theorem Env.Opening.single {last : Strike ε} (early : last.early = true) :
    env.Opening [last] last where
  ends := rfl
  early := by rw [List.all_cons, early]; rfl
  alone := fun _ => rfl

theorem Env.Opening.interrupt {met : List (Strike ε)} {last : Strike ε}
    (opening : env.Opening met last) (site : Site) (tears : met.all env.tears = true)
    (early : (.cancelled site : Strike ε).early = true)
    (interrupts : env.tears (.cancelled site) = true) :
    env.Opening (met ++ [.cancelled site]) (.cancelled site) where
  ends := List.getLast?_concat
  early := by
    rw [List.all_append, opening.early, List.all_cons, early]
    rfl
  alone := by
    rw [List.all_append, tears, List.all_cons, interrupts]
    exact fun wrong => (by cases wrong)

/-- Only the writer moves on. -/
structure Ledger.Kept (env : Env ε) (ledger after : Ledger ε) : Prop where
  readers : after.readers = ledger.readers
  hasty : after.hasty = ledger.hasty
  beating : after.beating = ledger.beating
  writer : after.writer = ledger.writer ∨ after.writer = ledger.writer.finish env.writer

/-- A wait for the exit has been struck, and raises what its last strike has come to. -/
structure Ledger.Struck (env : Env ε) (ledger : Ledger ε) (error : Raised ε)
    (after : Ledger ε) : Prop where
  kept : ledger.Kept env after
  struck : ∃ met last, after.met = ledger.met ++ met ∧ env.Opening met last ∧
    error = env.exitRaises last ∧ after.torn = (ledger.torn || met.all env.tears)
  timed : error = .deadline → env.timeout ≠ .absent

@[simp]
theorem Writer.finish_finish (writer : Writer ε) (failure : Option ε) :
    (writer.finish failure).finish failure = writer.finish failure := by
  cases writer <;> rfl

namespace Ledger.Kept

theorem refl (ledger : Ledger ε) : ledger.Kept env ledger where
  readers := rfl
  hasty := rfl
  beating := rfl
  writer := .inl rfl

theorem trans {middle after : Ledger ε} (first : ledger.Kept env middle)
    (second : middle.Kept env after) : ledger.Kept env after where
  readers := second.readers.trans first.readers
  hasty := second.hasty.trans first.hasty
  beating := second.beating.trans first.beating
  writer := by
    rcases second.writer with same | finished
    · rw [same]
      exact first.writer
    · rw [finished]
      rcases first.writer with same | ended
      · exact .inr (by rw [same])
      · exact .inr (by rw [ended, Writer.finish_finish])

end Ledger.Kept

theorem suspend_ends (site : Site) {raised : Raised ε → Ledger ε → Prop} :
    Ends (suspend env site)
      (fun _ after => ledger.Kept env after ∧ after.torn = ledger.torn ∧
        after.met = ledger.met) raised ledger := by
  apply Ends.branch
  · intro ends
    exact Ends.updates ⟨⟨rfl, rfl, rfl, .inr rfl⟩, rfl, rfl⟩
  · intro runs
    exact Ends.returns ⟨.refl ledger, rfl, rfl⟩

theorem awaitProcessExit_ends (answer : Answer) :
    Ends (awaitProcessExit env answer)
      (fun _ after => answer = .returns ∧ ledger.Kept env after ∧
        after.torn = ledger.torn ∧ after.met = ledger.met)
      (fun error after => ledger.Kept env after ∧ after.torn = ledger.torn ∧
        ((answer = .cancelled ∧ error = .cancelled ∧
            after.met = ledger.met ++ [.cancelled .exit]) ∨
          (answer = .expires ∧ error = .expiry ∧
            after.met = ledger.met ++ [.deadline .exit]) ∨
          ∃ own, answer = .returns ∧ error = .own .child own ∧
            after.met = ledger.met ++ [.own .exit own])) ledger := by
  apply Ends.bind
  apply (suspend_ends .exit).mono
  · intro _ middle suspended
    obtain ⟨kept, torn, met⟩ := suspended
    cases answer with
    | returns =>
        cases fails : env.child with
        | none => exact Ends.returns ⟨rfl, kept, torn, met⟩
        | some own =>
            apply Ends.bind
            apply Ends.updates
            refine Ends.raises ⟨{ kept with }, torn,
              .inr (.inr ?_)⟩
            exact ⟨own, rfl, rfl, by rw [← met]⟩
    | cancelled =>
        apply Ends.bind
        apply Ends.updates
        refine Ends.raises ⟨{ kept with }, torn, .inl ?_⟩
        exact ⟨rfl, rfl, by rw [← met]⟩
    | expires =>
        apply Ends.bind
        apply Ends.updates
        refine Ends.raises ⟨{ kept with }, torn,
          .inr (.inl ?_)⟩
        exact ⟨rfl, rfl, by rw [← met]⟩
  · exact fun _ _ wrong => wrong

/-- A cleanup that does not fail is cut short by nothing. -/
theorem shieldedCleanup_ends {site : Site} {cleanup : Step ε Unit}
    (update : Ledger ε → Ledger ε) {returned : Unit → Ledger ε → Prop}
    {raised : Raised ε → Ledger ε → Prop}
    (does : ∀ ledger, cleanup ledger = .ok () (update ledger))
    (returns : env.interrupts site = false → returned () (update ledger))
    (raises : env.interrupts site = true → raised .cancelled
      { update ledger with met := (update ledger).met ++ [.cancelled site] }) :
    Ends (shieldedCleanup env site cleanup) returned raised ledger := by
  apply Ends.branch
  · intro interrupts
    have done : left cleanup ledger = update ledger := by
      unfold left
      rw [does]
    change raised .cancelled (left (tryFinally cleanup (strike (.cancelled site))) ledger)
    rw [left_tryFinally, done]
    exact raises interrupts
  · intro silent
    exact Ends.of_ok (does ledger) (returns (eq_false_of_ne_true silent))

theorem terminateAllShielded_ends :
    Ends (terminateAllShielded env)
      (fun _ after => after = { ledger with torn := true })
      (fun error after => error = .cancelled ∧
        after = { ledger with
          torn := true
          met := ledger.met ++ [.cancelled .terminate] }) ledger := by
  apply shieldedCleanup_ends fun ledger => { ledger with torn := true }
  · exact fun _ => rfl
  · exact fun _ => rfl
  · exact fun _ => ⟨rfl, rfl⟩

theorem waitForExitCode_ends (answer : Answer) :
    Ends (waitForExitCode env answer)
      (fun _ after => answer = .returns ∧ ledger.Kept env after ∧
        after.torn = ledger.torn ∧ after.met = ledger.met)
      (fun error after => ledger.Kept env after ∧
        ((answer = .expires ∧ error = .expiry ∧ after.torn = true ∧
            after.met = ledger.met ++ [.deadline .exit]) ∨
          (answer ≠ .returns ∧ error = .cancelled ∧ after.torn = true ∧
            ∃ met site, after.met = ledger.met ++ met ∧ env.Opening met (.cancelled site) ∧
              met.all env.tears = true) ∨
          ∃ own, answer = .returns ∧ error = .own .child own ∧ after.torn = ledger.torn ∧
            after.met = ledger.met ++ [.own .exit own])) ledger := by
  apply Ends.handle
  apply (awaitProcessExit_ends answer).mono
  · exact fun _ _ returns => returns
  · intro error struck ends
    obtain ⟨kept, torn, ended⟩ := ends
    rcases ended with ⟨cancels, rfl, met⟩ | ⟨expires, rfl, met⟩ | ⟨own, returns, rfl, met⟩
    · apply Ends.bind
      apply terminateAllShielded_ends.mono
      · intro _ after same
        subst same
        refine Ends.raises ⟨{ kept with }, .inr (.inl ?_)⟩
        exact ⟨by rw [cancels]; decide, rfl, rfl, _, _, met, .single rfl, rfl⟩
      · intro error after ends
        obtain ⟨rfl, rfl⟩ := ends
        refine ⟨{ kept with }, .inr (.inl ?_)⟩
        have opening : env.Opening [.cancelled .exit] (.cancelled .exit) := .single rfl
        refine ⟨by rw [cancels]; decide, rfl, rfl, _, _, ?_,
          opening.interrupt .terminate rfl rfl rfl, rfl⟩
        rw [met, List.append_assoc]
    · apply Ends.bind
      apply terminateAllShielded_ends.mono
      · intro _ after same
        subst same
        refine Ends.raises ⟨{ kept with }, .inl ?_⟩
        exact ⟨expires, rfl, rfl, met⟩
      · intro error after ends
        obtain ⟨rfl, rfl⟩ := ends
        refine ⟨{ kept with }, .inr (.inl ?_)⟩
        have opening : env.Opening [.deadline .exit] (.deadline .exit) := .single rfl
        refine ⟨by rw [expires]; decide, rfl, rfl, _, _, ?_,
          opening.interrupt .terminate rfl rfl rfl, rfl⟩
        rw [met, List.append_assoc]
    · exact Ends.raises ⟨kept, .inr (.inr ⟨own, returns, rfl, torn, met⟩)⟩

/-- A timeout that is not positive has the child ended at once. -/
theorem nonPositive_ends {answer : Answer} (nonPositive : env.timeout = .nonPositive)
    {returned : Unit → Ledger ε → Prop} :
    Ends (do
      terminateAllShielded env
      strike (.deadline .exit)
      throw .deadline) returned
      (fun error after => ledger.Struck env error after ∧
        after.torn = (ledger.torn || env.exitTears answer)) ledger := by
  have tears : env.exitTears answer = true := by simp [Env.exitTears, nonPositive]
  apply Ends.bind
  apply terminateAllShielded_ends.mono
  · intro _ torn same
    subst same
    apply Ends.bind
    apply Ends.updates
    refine Ends.raises ⟨⟨⟨rfl, rfl, rfl, .inl rfl⟩, ?_, ?_⟩, by rw [tears, Bool.or_true]⟩
    · exact ⟨_, _, rfl, .single rfl, rfl, (Bool.or_true _).symm⟩
    · intro _ absent
      rw [nonPositive] at absent
      cases absent
  · intro error after ends
    obtain ⟨rfl, rfl⟩ := ends
    refine ⟨⟨⟨rfl, rfl, rfl, .inl rfl⟩, ?_, fun wrong => (by cases wrong)⟩,
      by rw [tears, Bool.or_true]⟩
    exact ⟨_, _, rfl, .single rfl, rfl, (Bool.or_true _).symm⟩

/-- A wait that fails by itself leaves the child as it is. -/
theorem Ledger.Struck.of_own {own : ε} {answer : Answer} {error : Raised ε}
    {after : Ledger ε} (untorn : env.exitTears answer = false) (kept : ledger.Kept env after)
    (torn : after.torn = ledger.torn) (met : after.met = ledger.met ++ [.own .exit own])
    (raises : error = env.exitRaises (.own .exit own)) (named : error ≠ .deadline) :
    ledger.Struck env error after ∧
      after.torn = (ledger.torn || env.exitTears answer) := by
  refine ⟨⟨kept, ?_, fun wrong => absurd wrong named⟩, ?_⟩
  · exact ⟨_, _, met, .single rfl, raises, torn.trans (Bool.or_false _).symm⟩
  · rw [torn, untorn, Bool.or_false]

/-- A `TimeoutError` of the wait's own is an expiry that nothing is configured for, or is
raised as it is. -/
theorem ownExit_ends {own : ε} {answer : Answer} {middle : Ledger ε}
    (untorn : env.exitTears answer = false) (kept : ledger.Kept env middle)
    (torn : middle.torn = ledger.torn) (met : middle.met = ledger.met ++ [.own .exit own])
    {returned : Unit → Ledger ε → Prop} :
    Ends (if env.isTimeoutError (.own .child own) then do
        requireTimeout env
        throw (.own .child own)
      else throw (.own .child own)) returned
      (fun error after => ledger.Struck env error after ∧
        after.torn = (ledger.torn || env.exitTears answer)) middle := by
  apply Ends.branch
  · intro isTimeout
    have isTimeout : env.isTimeout own = true := isTimeout
    apply Ends.bind
    apply Ends.branch
    · intro absent
      refine Ends.raises (Ledger.Struck.of_own untorn kept torn met ?_
        (fun wrong => (by cases wrong)))
      simp [Env.exitRaises, isTimeout, absent]
    · intro configured
      apply Ends.returns
      refine Ends.raises (Ledger.Struck.of_own untorn kept torn met ?_
        (fun wrong => (by cases wrong)))
      simp [Env.exitRaises, configured, Site.origin]
  · intro other
    have other : env.isTimeout own = false := eq_false_of_ne_true other
    refine Ends.raises (Ledger.Struck.of_own untorn kept torn met ?_
        (fun wrong => (by cases wrong)))
    simp [Env.exitRaises, other, Site.origin]

/-- The wait for the exit, under the timeout it is configured with. -/
theorem waitForExitCodeWithinTimeout_ends (answer : Answer)
    (timed : answer = .expires → env.timeout = .positive) :
    Ends (waitForExitCodeWithinTimeout env answer)
      (fun _ after => env.exitTears answer = false ∧ ledger.Kept env after ∧
        after.torn = ledger.torn ∧ after.met = ledger.met)
      (fun error after => ledger.Struck env error after ∧
        after.torn = (ledger.torn || env.exitTears answer)) ledger := by
  apply Ends.branch
  · exact fun nonPositive => nonPositive_ends nonPositive
  · intro positive
    apply Ends.handle
    apply Ends.bind
    apply Ends.updates
    apply Ends.handle
    apply (waitForExitCode_ends answer).mono
    · intro _ after ends
      obtain ⟨returns, kept, torn, met⟩ := ends
      refine ⟨by simp [Env.exitTears, positive, returns], ?_, torn, met⟩
      exact { kept with }
    · intro error after ends
      obtain ⟨kept, ended⟩ := ends
      have kept : ledger.Kept env after := { kept with }
      rcases ended with ⟨expires, rfl, torn, met⟩ | ⟨cancels, rfl, torn, met, site, ended⟩ |
        ⟨own, returns, rfl, torn, met⟩
      · have configured : env.timeout ≠ .absent := by
          rw [timed expires]
          decide
        apply Ends.bind
        apply Ends.updates
        apply Ends.raises
        apply Ends.branch
        · intro _
          apply Ends.bind
          apply Ends.branch
          · exact fun absent => absurd absent configured
          · intro _
            apply Ends.returns
            refine Ends.raises ⟨⟨{ kept with }, ?_, ?_⟩, ?_⟩
            · exact ⟨_, _, met, .single rfl, rfl, torn.trans (Bool.or_true _).symm⟩
            · exact fun _ => configured
            · rw [torn, expires]
              simp [Env.exitTears]
        · exact fun wrong => absurd rfl wrong
      · obtain ⟨all, opening, tears⟩ := ended
        apply Ends.raises
        apply Ends.branch
        · exact fun wrong => (by cases wrong)
        · intro _
          refine Ends.raises ⟨⟨kept, ?_, fun wrong => (by cases wrong)⟩, ?_⟩
          · exact ⟨met, _, all, opening, rfl, torn.trans (by rw [tears, Bool.or_true])⟩
          · rw [torn, Env.exitTears, decide_eq_true cancels, Bool.or_true, Bool.or_true]
      · have untorn : env.exitTears answer = false := by
          simp [Env.exitTears, positive, returns]
        have kept : ledger.Kept env { after with expired := env.late } := { kept with }
        apply Ends.bind
        apply Ends.updates
        apply Ends.raises
        exact ownExit_ends untorn kept torn met

variable (env) in
/-- What an exit wait leaves that nobody has asked for its outcome. -/
theorem left_unobserved (answer : Answer)
    (timed : answer = .expires → env.timeout = .positive) (ledger : Ledger ε) :
    ledger.Kept env (left (unobserved (waitForExitCodeWithinTimeout env answer)) ledger) ∧
      (left (unobserved (waitForExitCodeWithinTimeout env answer)) ledger).torn =
        (ledger.torn || env.exitTears answer) := by
  have same : ledger.Kept env (left (waitForExitCodeWithinTimeout env answer) ledger) ∧
      (left (waitForExitCodeWithinTimeout env answer) ledger).torn =
        (ledger.torn || env.exitTears answer) := by
    refine (waitForExitCodeWithinTimeout_ends answer timed).holds_left ?_ ?_
    · intro _ after ends
      obtain ⟨untorn, kept, torn, _⟩ := ends
      exact ⟨kept, by rw [torn, untorn, Bool.or_false]⟩
    · exact fun _ after ends => ⟨ends.1.kept, ends.2⟩
  obtain ⟨kept, torn⟩ := same
  exact ⟨{ kept with }, torn⟩

/-- An exit wait that is cancelled has ended the child. -/
theorem shieldedCancelExitWait_ends :
    Ends (shieldedCleanup env .abandon (cancelExitWait env))
      (fun _ after => ledger.Kept env after ∧ after.torn = true ∧ after.met = ledger.met)
      (fun error after => error = .cancelled ∧ ledger.Kept env after ∧ after.torn = true ∧
        after.met = ledger.met ++ [.cancelled .abandon]) ledger := by
  have unwound := left_unobserved env .cancelled (fun wrong => (by cases wrong)) ledger
  have tears : env.exitTears .cancelled = true := by simp [Env.exitTears]
  rw [tears, Bool.or_true] at unwound
  obtain ⟨kept, torn⟩ := unwound
  apply shieldedCleanup_ends (left (cancelExitWait env))
  · exact fun _ => rfl
  · exact fun _ => ⟨kept, torn, rfl⟩
  · exact fun _ => ⟨rfl, { kept with }, torn, rfl⟩

theorem race_ends :
    Ends (race env)
      (fun _ after => ledger.Kept env after ∧ after.torn = ledger.torn ∧ after.met = ledger.met)
      (fun error after => error = .cancelled ∧ ledger.Kept env after ∧
        after.torn = ledger.torn ∧ after.met = ledger.met ++ [.cancelled .race]) ledger := by
  apply Ends.branch
  · intro _
    apply Ends.bind
    apply (suspend_ends .race).mono
    · intro _ middle suspended
      obtain ⟨kept, torn, met⟩ := suspended
      apply Ends.bind
      apply Ends.updates
      refine Ends.raises ⟨rfl, { kept with }, torn, ?_⟩
      rw [← met]
    · exact fun _ _ wrong => wrong
  · intro _
    apply Ends.branch
    · exact fun _ => suspend_ends .race
    · exact fun _ => Ends.updates ⟨⟨rfl, rfl, rfl, .inr rfl⟩, rfl, rfl⟩

theorem stdinWriterFailure_ends {raised : Raised ε → Ledger ε → Prop} :
    Ends stdinWriterFailure
      (fun failure after => after = ledger ∧
        ∀ error, failure = some error → ledger.writer = .ended (some error)) raised ledger := by
  apply Ends.bind
  apply Ends.reads
  cases writes : ledger.writer with
  | ended failure => exact Ends.returns ⟨rfl, fun error fails => by rw [fails]⟩
  | absent | running | stopped | pending =>
      exact Ends.returns ⟨rfl, fun _ wrong => (by cases wrong)⟩

namespace Ledger.Struck

theorem of_kept {middle after : Ledger ε} {error : Raised ε} (kept : ledger.Kept env middle)
    (torn : middle.torn = ledger.torn) (met : middle.met = ledger.met)
    (struck : middle.Struck env error after) : ledger.Struck env error after where
  kept := kept.trans struck.kept
  struck := by
    have struck := struck.struck
    rwa [torn, met] at struck
  timed := struck.timed

end Ledger.Struck

/-- The exit is waited for once the race has left the child alone. -/
theorem observedExit_ends {middle : Ledger ε} (kept : ledger.Kept env middle)
    (torn : middle.torn = ledger.torn) (met : middle.met = ledger.met) :
    Ends (waitForExitCodeWithinTimeout env (env.answers .exit))
      (fun _ after => ledger.Kept env after ∧ after.torn = ledger.torn ∧ after.met = ledger.met)
      (fun error after => ledger.Struck env error after) middle := by
  apply (waitForExitCodeWithinTimeout_ends _ (env.expires_timed .exit)).mono
  · intro _ after ends
    obtain ⟨_, later, same, unmet⟩ := ends
    exact ⟨kept.trans later, same.trans torn, unmet.trans met⟩
  · exact fun _ _ ends => ends.1.of_kept kept torn met

/-- A writer that fails before the exit has the child ended, and its failure raised. -/
theorem writerFailure_ends {own : ε} {middle : Ledger ε} (kept : ledger.Kept env middle)
    (met : middle.met = ledger.met) {returned : Unit → Ledger ε → Prop} :
    Ends (do
      shieldedCleanup env .abandon (cancelExitWait env)
      fail .race own) returned
      (fun error after => ledger.Struck env error after) middle := by
  apply Ends.bind
  apply shieldedCancelExitWait_ends.mono
  · intro _ after ends
    obtain ⟨later, tears, unmet⟩ := ends
    have kept := kept.trans later
    apply Ends.bind
    apply Ends.updates
    refine Ends.raises ⟨{ kept with }, ?_, fun wrong => (by cases wrong)⟩
    refine ⟨[.own .race own], _, ?_, .single rfl, rfl, ?_⟩
    · rw [← met, ← unmet]
    · exact tears.trans (Bool.or_true _).symm
  · intro raised after ends
    obtain ⟨rfl, later, tears, unmet⟩ := ends
    refine ⟨kept.trans later, ?_, fun wrong => (by cases wrong)⟩
    refine ⟨[.cancelled .abandon], _, by rw [unmet, met], .single rfl, rfl, ?_⟩
    exact tears.trans (Bool.or_true _).symm

/-- A cancelled race leaves a child whose exit is known as it is, and ends any other. -/
theorem cancelledRace_ends {middle : Ledger ε} (kept : ledger.Kept env middle)
    (torn : middle.torn = ledger.torn) (met : middle.met = ledger.met ++ [.cancelled .race])
    {returned : Unit → Ledger ε → Prop} :
    Ends (do
      if env.exitDone then
        unobserved (waitForExitCodeWithinTimeout env (env.answers .exit))
      else shieldedCleanup env .abandon (cancelExitWait env)
      throw .cancelled) returned
      (fun error after => ledger.Struck env error after) middle := by
  apply Ends.branch
  · intro done
    obtain ⟨later, tears⟩ := left_unobserved env _ (env.expires_timed .exit) middle
    apply Ends.bind
    refine Ends.of_ok rfl ?_
    refine Ends.raises ⟨kept.trans later, ?_, fun wrong => (by cases wrong)⟩
    refine ⟨[.cancelled .race], _, met, .single rfl, rfl, ?_⟩
    refine tears.trans ?_
    simp [Env.tears, done, torn]
  · intro running
    have torn : env.tears (.cancelled .race) = true := by
      simp [Env.tears, eq_false_of_ne_true running]
    apply Ends.bind
    apply shieldedCancelExitWait_ends.mono
    · intro _ after ends
      obtain ⟨later, tears, unmet⟩ := ends
      refine Ends.raises ⟨kept.trans later, ?_, fun wrong => (by cases wrong)⟩
      refine ⟨[.cancelled .race], _, unmet.trans met, .single rfl, rfl, ?_⟩
      simp [torn, tears]
    · intro raised after ends
      obtain ⟨rfl, later, tears, unmet⟩ := ends
      refine ⟨kept.trans later, ?_, fun wrong => (by cases wrong)⟩
      have opening : env.Opening [.cancelled .race] (.cancelled .race) := .single rfl
      have all : [Strike.cancelled .race].all env.tears = true := by
        rw [List.all_cons, torn]
        rfl
      refine ⟨_, _, ?_, opening.interrupt .abandon all rfl rfl, rfl, ?_⟩
      · rw [unmet, met, List.append_assoc]
      · rw [tears, List.all_append, all]
        exact (Bool.or_true _).symm

/-- However the wait ends, for the exit or for a writer that fails before it. -/
theorem awaitExitOrWriterFailure_ends :
    Ends (awaitExitOrWriterFailure env)
      (fun _ after => ledger.Kept env after ∧ after.torn = ledger.torn ∧ after.met = ledger.met)
      (fun error after => ledger.Struck env error after) ledger := by
  apply Ends.branch
  · intro _
    apply Ends.bind
    apply Ends.handle
    apply race_ends.mono
    · intro _ middle raced
      obtain ⟨kept, torn, met⟩ := raced
      apply Ends.branch
      · exact fun _ => observedExit_ends kept torn met
      · intro _
        apply Ends.bind
        apply stdinWriterFailure_ends.mono
        · intro failure same ends
          obtain ⟨rfl, _⟩ := ends
          cases failure with
          | none => exact observedExit_ends kept torn met
          | some error => exact writerFailure_ends kept met
        · exact fun _ _ wrong => wrong
    · intro error middle raced
      obtain ⟨rfl, kept, torn, met⟩ := raced
      exact cancelledRace_ends kept torn met
  · exact fun _ => observedExit_ends (.refl ledger) rfl rfl

end Cuprum.Deadline
