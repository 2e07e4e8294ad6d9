import Cuprum.Finalization.Ledger

namespace Cuprum.Finalization

open Cuprum.Effect

variable {count : Nat} {env : Env count}

/-- What has been reached of a run's settlement. -/
structure Ledger.Reached (closed told drained : Bool) (ledger : Ledger count) : Prop where
  settles : ∀ stage, ledger.settled stage ≤ (ledger.planned stage).toNat
  opened : ledger.opens ≤ 1
  bracket : ledger.closes + ledger.session.toNat = ledger.opens
  closed : closed = true → ledger.session = false
  told : told = true → ∀ stage, ledger.settled stage = (ledger.planned stage).toNat
  drained : drained = true → ledger.pending = 0

/-- Wherever the step ends, it ends there. -/
abbrev Comes (step : Step count) (reached : Ledger count → Prop) (ledger : Ledger count) :
    Prop :=
  Ends step (fun _ => reached) (fun _ => reached) ledger

variable {closed told drained : Bool} {ledger : Ledger count}

theorem call_ends {site : Site count} {returned : Unit → Ledger count → Prop}
    {raised : Raised → Ledger count → Prop} (returns : env.raises site = none → returned () ledger)
    (raises : ∀ error, env.raises site = some error → raised error ledger) :
    Ends (call env site) returned raised ledger := by
  unfold call
  cases answer : env.raises site with
  | none => exact returns answer
  | some error => exact raises error answer

theorem call_comes {site : Site count} {reached : Ledger count → Prop}
    (here : reached ledger) : Comes (call env site) reached ledger :=
  call_ends (fun _ => here) (fun _ _ => here)

theorem schedule_ends {site : Site count} {returned : Unit → Ledger count → Prop}
    {raised : Raised → Ledger count → Prop}
    (reached : ledger.Reached closed told drained)
    (returns : ∀ after, after.Reached closed told false →
      after.iteration = ledger.iteration → returned () after) :
    Ends (schedule env site) returned raised ledger := by
  apply Ends.updates
  apply returns
  · exact { reached with drained := fun wrong => nomatch wrong }
  · rfl

theorem execute_ends {site : Site count} (reached : ledger.Reached closed told drained) :
    Ends (execute env site)
      (fun _ after => after.Reached closed told false ∧ env.raises site = none)
      (fun error after => after.Reached closed told false ∧ env.raises site = some error)
      ledger := by
  apply Ends.bind
  apply schedule_ends reached
  intro after scheduled _
  apply call_ends
  · exact fun answer => ⟨scheduled, answer⟩
  · exact fun error answer => ⟨scheduled, answer⟩

theorem execute_comes {site : Site count} (reached : ledger.Reached closed told drained) :
    Comes (execute env site) (Ledger.Reached closed told false) ledger :=
  (execute_ends reached).mono (fun _ _ executed => executed.1) (fun _ _ executed => executed.1)

theorem suppressed_ends {step : Step count} {returned : Unit → Ledger count → Prop}
    {raised : Raised → Ledger count → Prop}
    (ends : Ends step returned
      (fun error after =>
        (error.isSuppressed = true → returned () after) ∧
          (error.isSuppressed = false → raised error after)) ledger) :
    Ends (suppressed step) returned raised ledger := by
  apply Ends.handle
  apply ends.mono (fun _ _ holds => holds)
  intro error after holds
  cases quiet : error.isSuppressed with
  | true =>
      simp only [if_true]
      exact Ends.returns (holds.1 quiet)
  | false =>
      simp only [Bool.false_eq_true, if_false]
      exact Ends.raises (holds.2 quiet)

/-- The hooks of the plan event, if there are any, return. -/
def Env.plans (env : Env count) (stage : Fin count) : Bool :=
  !env.observed || (env.raises (.plan stage)).isNone

/-- The plan marks its stage, and any of its hooks may raise. -/
theorem emitPlan_ends {stage : Fin count} (reached : ledger.Reached closed told drained) :
    Ends (emitPlan env stage)
      (fun _ after => after.Reached closed false false ∧ env.plans stage = true)
      (fun _ after => after.Reached closed false false ∧ env.plans stage = false)
      ledger := by
  unfold emitPlan
  cases observed : env.observed with
  | false =>
      apply Ends.returns
      refine ⟨?_, by simp [Env.plans, observed]⟩
      exact { reached with
        told := fun wrong => nomatch wrong
        drained := fun wrong => nomatch wrong }
  | true =>
      simp only [if_true]
      apply Ends.bind
      apply Ends.updates
      unfold emit
      simp only [observed, if_true]
      apply Ends.bind
      have planned : Ledger.Reached closed false drained { ledger with
          planned := Function.update ledger.planned stage true } :=
        { reached with
          settles := by
            intro other
            by_cases same : other = stage
            · subst same
              have settles := reached.settles other
              simp only [Function.update_self, Bool.toNat_true]
              exact settles.trans (Bool.toNat_le _)
            · simpa only [Function.update_of_ne same] using reached.settles other
          told := fun wrong => nomatch wrong }
      apply schedule_ends planned
      intro after scheduled _
      apply call_ends
      · exact fun answer => ⟨scheduled, by simp [Env.plans, answer]⟩
      · exact fun error answer => ⟨scheduled, by simp [Env.plans, observed, answer]⟩

/-- The stage is told, exactly once if it was planned. -/
def Ledger.Told (stages : Fin count → Prop) (ledger : Ledger count) : Prop :=
  ∀ stage, stages stage → ledger.settled stage = (ledger.planned stage).toNat

theorem emitTerminal_ends {stage : Fin count} {stages : Fin count → Prop}
    (reached : ledger.Reached closed told drained) (earlier : ledger.Told stages) :
    Ends (emitTerminal env stage)
      (fun _ after => after.Reached closed told false ∧
        after.Told fun other => other = stage ∨ stages other)
      (fun error after => env.raises (.settled stage) = some error ∧
        after.Reached closed told false ∧
        after.Told fun other => other = stage ∨ stages other) ledger := by
  apply Ends.bind
  apply Ends.reads
  split
  · rename_i settled
    apply Ends.returns
    refine ⟨{ reached with drained := fun wrong => nomatch wrong }, ?_⟩
    intro other among
    rcases among with rfl | among
    · have settles := reached.settles other
      rcases settled with settled | unplanned
      · cases planned : ledger.planned other with
        | false =>
            rw [planned] at settles
            exact Nat.le_zero.mp settles
        | true =>
            rw [planned] at settles
            exact Nat.le_antisymm settles (Nat.pos_of_ne_zero settled)
      · rw [unplanned] at settles ⊢
        exact Nat.le_zero.mp settles
    · exact earlier other among
  · rename_i unsettled
    rw [not_or, not_not, Bool.not_eq_false] at unsettled
    obtain ⟨unsettled, planned⟩ := unsettled
    have settle : Ledger.Reached closed told drained { ledger with
        settled := Function.update ledger.settled stage (ledger.settled stage + 1) } :=
      { reached with
        settles := by
          intro other
          by_cases same : other = stage
          · subst same
            simp [planned, unsettled]
          · simpa only [Function.update_of_ne same] using reached.settles other
        told := by
          intro told
          have wrong := reached.told told stage
          rw [unsettled, planned] at wrong
          cases wrong }
    have tells : Ledger.Told (fun other => other = stage ∨ stages other) { ledger with
        settled := Function.update ledger.settled stage (ledger.settled stage + 1) } := by
      intro other among
      by_cases same : other = stage
      · subst same
        simp [planned, unsettled]
      · simpa only [Function.update_of_ne same] using earlier other (among.resolve_left same)
    apply Ends.bind
    apply Ends.updates
    unfold emit
    split
    · apply Ends.bind
      apply Ends.updates
      apply call_ends
      · intro _
        exact ⟨{ settle with drained := fun wrong => nomatch wrong }, tells⟩
      · intro error answer
        exact ⟨answer, { settle with drained := fun wrong => nomatch wrong }, tells⟩
    · apply Ends.returns
      exact ⟨{ settle with drained := fun wrong => nomatch wrong }, tells⟩

theorem Ledger.Reached.initially : Ledger.Reached true true true ({} : Ledger count) where
  settles := fun _ => Nat.le_refl 0
  opened := Nat.zero_le 1
  bracket := rfl
  closed := fun _ => rfl
  told := fun _ _ => rfl
  drained := fun _ => rfl

theorem Ledger.Reached.unclosed (reached : ledger.Reached closed told drained) :
    ledger.Reached false told drained :=
  { reached with closed := fun wrong => nomatch wrong }

theorem Comes.rethrow {step : Step count} {error : Raised} {reached : Ledger count → Prop}
    {returned : Unit → Ledger count → Prop} (comes : Comes step reached ledger) :
    Ends (do step; throw error) returned (fun _ => reached) ledger := by
  apply Ends.bind
  apply comes.mono
  · exact fun _ _ holds => Ends.raises holds
  · exact fun _ _ holds => holds

/-- Once every stage is told, a terminal event is told to nobody. -/
theorem emitTerminal_told {stage : Fin count} (reached : ledger.Reached closed true drained) :
    Ends (emitTerminal env stage) (fun _ => Ledger.Reached closed true drained)
      (fun _ _ => False) ledger := by
  have told := reached.told rfl stage
  apply Ends.bind
  apply Ends.reads
  split
  · exact Ends.returns reached
  · rename_i unsettled
    rw [not_or, not_not, Bool.not_eq_false] at unsettled
    rw [unsettled.1, unsettled.2] at told
    cases told

theorem safeEmitTerminal_told {stage : Fin count}
    (reached : ledger.Reached closed true drained) :
    Ends (safeEmitTerminal env stage) (fun _ => Ledger.Reached closed true drained)
      (fun _ _ => False) ledger := by
  apply suppressed_ends
  apply (emitTerminal_told reached).mono (fun _ _ holds => holds)
  exact fun _ _ wrong => nomatch wrong

theorem emitTerminalEventsOf_told {stages : List (Fin count)} :
    ∀ {ledger : Ledger count}, ledger.Reached closed true drained →
      Ends (emitTerminalEventsOf env stages) (fun _ => Ledger.Reached closed true drained)
        (fun _ _ => False) ledger := by
  induction stages with
  | nil => exact fun reached => Ends.returns reached
  | cons stage stages induction =>
      intro ledger reached
      apply Ends.bind
      apply (safeEmitTerminal_told reached).mono
      · exact fun _ _ told => induction told
      · exact fun _ _ wrong => wrong

/-- The iteration goes on from where it was. -/
abbrev Stays (step : Step count) (ledger : Ledger count) : Prop :=
  Comes step (fun after => after.iteration = ledger.iteration) ledger

theorem execute_stays (site : Site count) : Stays (execute env site) ledger := by
  apply Ends.bind
  apply Ends.updates
  exact call_comes rfl

theorem emit_stays (site : Site count) : Stays (emit env site) ledger := by
  unfold emit
  split
  · exact execute_stays site
  · exact Ends.returns rfl

theorem emitPlan_stays (stage : Fin count) : Stays (emitPlan env stage) ledger := by
  unfold emitPlan
  split
  · apply Ends.bind
    apply Ends.updates
    exact emit_stays (.plan stage)
  · exact Ends.returns rfl

theorem emitTerminal_stays (stage : Fin count) : Stays (emitTerminal env stage) ledger := by
  apply Ends.bind
  apply Ends.reads
  split
  · exact Ends.returns rfl
  · apply Ends.bind
    apply Ends.updates
    exact emit_stays (.settled stage)

/-- No hook raises out of a terminal event that is emitted safely. -/
def Env.quietTerminals (env : Env count) : Bool :=
  (List.finRange count).all fun stage =>
    (env.raises (.settled stage)).all Raised.isSuppressed

theorem Env.quietTerminals_suppressed (quiet : env.quietTerminals = true)
    {stage : Fin count} {error : Raised} (answer : env.raises (.settled stage) = some error) :
    error.isSuppressed = true := by
  have suppressed := List.all_eq_true.mp quiet stage (List.mem_finRange stage)
  simpa only [answer, Option.all_some] using suppressed

theorem safeEmitTerminal_ends {stage : Fin count} {stages : Fin count → Prop}
    (quiet : env.quietTerminals = true) (reached : ledger.Reached closed told drained)
    (earlier : ledger.Told stages) :
    Ends (safeEmitTerminal env stage)
      (fun _ after => after.Reached closed told false ∧
        after.Told fun other => other = stage ∨ stages other)
      (fun _ _ => False) ledger := by
  apply suppressed_ends
  apply (emitTerminal_ends reached earlier).mono (fun _ _ holds => holds)
  rintro error after ⟨answer, emitted⟩
  refine ⟨fun _ => emitted, fun loud => ?_⟩
  rw [env.quietTerminals_suppressed quiet answer] at loud
  cases loud

theorem Ledger.Told.append {head : Fin count} {tail : List (Fin count)}
    {stages : Fin count → Prop}
    (tells : ledger.Told fun other => other ∈ tail ∨ other = head ∨ stages other) :
    ledger.Told fun other => other ∈ head :: tail ∨ stages other := by
  intro other among
  apply tells other
  rcases among with among | among
  · rcases List.mem_cons.mp among with same | among
    · exact .inr (.inl same)
    · exact .inl among
  · exact .inr (.inr among)

theorem emitTerminalEventsOf_ends (quiet : env.quietTerminals = true) :
    ∀ {stages : List (Fin count)} {earlier : Fin count → Prop} {drained : Bool}
      {ledger : Ledger count}, ledger.Reached closed told drained → ledger.Told earlier →
      Ends (emitTerminalEventsOf env stages)
        (fun _ after => after.Reached closed told false ∧
          after.Told fun other => other ∈ stages ∨ earlier other)
        (fun _ _ => False) ledger := by
  intro stages
  induction stages with
  | nil =>
      intro earlier drained ledger reached tells
      apply Ends.returns
      refine ⟨{ reached with drained := fun wrong => nomatch wrong }, ?_⟩
      simpa only [List.not_mem_nil, false_or] using tells
  | cons stage stages induction =>
      intro earlier drained ledger reached tells
      apply Ends.bind
      apply (safeEmitTerminal_ends quiet reached tells).mono
      · rintro _ between ⟨emitted, toldBefore⟩
        apply (induction emitted toldBefore).mono
        · rintro _ after ⟨settled, toldAfter⟩
          exact ⟨settled, toldAfter.append⟩
        · exact fun _ _ wrong => wrong
      · exact fun _ _ wrong => wrong

theorem Ledger.Reached.tell (reached : ledger.Reached closed told drained)
    {earlier : Fin count → Prop}
    (tells : ledger.Told fun stage => stage ∈ List.finRange count ∨ earlier stage) :
    ledger.Reached closed true drained :=
  { reached with told := fun _ stage => tells stage (.inl (List.mem_finRange stage)) }

/-- Every planned stage is told, once, and the emission returns. -/
theorem emitTerminalEvents_ends (quiet : env.quietTerminals = true)
    (reached : ledger.Reached closed told drained) :
    Ends (emitTerminalEvents env) (fun _ => Ledger.Reached closed true false)
      (fun _ _ => False) ledger := by
  have none : ledger.Told fun _ => False := fun _ wrong => nomatch wrong
  apply (emitTerminalEventsOf_ends quiet reached none).mono
  · rintro _ after ⟨settled, tells⟩
    exact settled.tell tells
  · exact fun _ _ wrong => wrong

theorem emitResultTerminalEventsOf_ends :
    ∀ {stages : List (Fin count)} {earlier : Fin count → Prop} {drained : Bool}
      {ledger : Ledger count}, ledger.Reached closed told drained → ledger.Told earlier →
      Ends (emitResultTerminalEventsOf env stages)
        (fun _ after => after.Reached closed told false ∧
          after.Told fun other => other ∈ stages ∨ earlier other)
        (fun _ _ => False) ledger := by
  intro stages
  induction stages with
  | nil =>
      intro earlier drained ledger reached tells
      apply Ends.returns
      refine ⟨{ reached with drained := fun wrong => nomatch wrong }, ?_⟩
      simpa only [List.not_mem_nil, false_or] using tells
  | cons stage stages induction =>
      intro earlier drained ledger reached tells
      have rest : ∀ (first : Option Raised) (between : Ledger count),
          (between.Reached closed told false ∧
            between.Told fun other => other = stage ∨ earlier other) →
          Ends (do
              let later ← emitResultTerminalEventsOf env stages
              pure (first.or later))
            (fun _ after => after.Reached closed told false ∧
              after.Told fun other => other ∈ stage :: stages ∨ earlier other)
            (fun _ _ => False) between := by
        rintro first between ⟨emitted, toldBefore⟩
        apply Ends.bind
        apply (induction emitted toldBefore).mono
        · rintro later after ⟨settled, toldAfter⟩
          exact Ends.returns ⟨settled, toldAfter.append⟩
        · exact fun _ _ wrong => wrong
      apply Ends.bind
      apply Ends.handle
      apply Ends.bind
      apply (emitTerminal_ends reached tells).mono
      · intro _ between emitted
        apply Ends.returns
        exact rest none between emitted
      · rintro error between ⟨_, emitted⟩
        apply Ends.returns
        exact rest (some error) between emitted

theorem emitResultTerminalEvents_ends {bestEffort : Bool}
    (reached : ledger.Reached closed told drained) :
    Ends (emitResultTerminalEvents env bestEffort)
      (fun _ => Ledger.Reached closed true false)
      (fun _ after => bestEffort = false ∧ after.Reached closed true false) ledger := by
  have none : ledger.Told fun _ => False := fun _ wrong => nomatch wrong
  apply Ends.bind
  apply (emitResultTerminalEventsOf_ends reached none).mono
  · rintro first after ⟨settled, tells⟩
    have toldAll := settled.tell tells
    cases first with
    | none => exact Ends.returns toldAll
    | some error =>
        cases bestEffort with
        | false => exact Ends.raises ⟨rfl, toldAll⟩
        | true => exact Ends.returns toldAll
  · exact fun _ _ wrong => nomatch wrong

theorem openSession_ends {returned : Unit → Ledger count → Prop}
    {raised : Raised → Ledger count → Prop}
    (returns : ∀ after : Ledger count, after.Reached false true true →
      after.iteration = .unbuilt → env.raises .openSink = none → returned () after)
    (raises : ∀ error, env.raises .openSink = some error → raised error {}) :
    Ends (openSession env) returned raised {} := by
  have opened : Ledger.Reached false true true
      ({ opens := 1, session := true } : Ledger count) := {
    settles := fun _ => Nat.le_refl 0
    opened := Nat.le_refl 1
    bracket := rfl
    closed := fun wrong => nomatch wrong
    told := fun _ _ => rfl
    drained := fun _ => rfl }
  apply Ends.bind
  apply call_ends
  · intro answer
    split
    · apply Ends.returns
      exact returns _ Ledger.Reached.initially.unclosed rfl answer
    · apply Ends.updates
      exact returns _ opened rfl answer
  · exact raises

/-- A close that the run makes there comes to `session.close`. -/
def Env.closesAt (env : Env count) (site : Site count) : Bool :=
  env.framing != .bounded || env.closing site == .called

theorem closeSession_none {site : Site count} {returned : Unit → Ledger count → Prop}
    {raised : Raised → Ledger count → Prop} (empty : ledger.session = false)
    (returns : returned () ledger) :
    Ends (closeSession env site) returned raised ledger := by
  apply Ends.bind
  apply Ends.reads
  rw [empty]
  exact Ends.returns returns

/-- The session is taken before anything that its close can raise. -/
theorem close_ends {site : Site count} (owned : ledger.session = true)
    (reached : ledger.Reached closed told drained) :
    Ends (close env site) (fun _ => Ledger.Reached true told drained)
      (fun error after => env.raises site = some error ∧
        after.Reached true told drained) ledger := by
  have bracket := reached.bracket
  rw [owned] at bracket
  have closes : Ledger.Reached true told drained
      { ledger with session := false, closes := ledger.closes + 1 } :=
    { reached with
      bracket := bracket
      closed := fun _ => rfl }
  apply Ends.bind
  apply Ends.updates
  apply call_ends
  · exact fun _ => closes
  · exact fun error answer => ⟨answer, closes⟩

/-- A bracket that is empty already has nothing more to close. -/
theorem closeSession_ends {site : Site count}
    (closes : closed = true ∨ env.closesAt site = true)
    (reached : ledger.Reached closed told drained) :
    Ends (closeSession env site) (fun _ => Ledger.Reached true told drained)
      (fun error after => env.raises site = some error ∧
        after.Reached true told drained) ledger := by
  cases owned : ledger.session with
  | false => exact closeSession_none owned { reached with closed := fun _ => owned }
  | true =>
      have closes := closes.resolve_left fun closed => by simp [reached.closed closed] at owned
      apply Ends.bind
      apply Ends.reads
      rw [owned, if_pos rfl]
      split
      · rename_i bounded
        have called : env.closing site = .called := by
          simpa [Env.closesAt, bounded] using closes
        unfold closeBounded
        rw [called]
        exact close_ends owned reached
      · exact close_ends owned reached

/-- The closing thread cannot be started. -/
def Env.refusesAt (env : Env count) (site : Site count) : Bool :=
  match env.closing site with
  | .refused _ => true
  | .called | .outlasted => false

/-- A close whose thread cannot be started leaves the session in its bracket. -/
theorem closeSession_refused {site : Site count} (refuses : env.refusesAt site = true)
    (reached : ledger.Reached false told drained)
    (unclosable : env.closesAt site = false) :
    Ends (closeSession env site) (fun _ => Ledger.Reached true told drained)
      (fun _ => Ledger.Reached false told drained) ledger := by
  have bounded : env.framing = .bounded := by
    simp only [Env.closesAt, Bool.or_eq_false_iff, bne_eq_false_iff_eq] at unclosable
    exact unclosable.1
  cases owned : ledger.session with
  | false => exact closeSession_none owned { reached with closed := fun _ => owned }
  | true =>
      apply Ends.bind
      apply Ends.reads
      rw [owned, if_pos rfl, if_pos bounded]
      unfold closeBounded
      cases closing : env.closing site with
      | refused error => exact Ends.raises reached
      | called => simp [Env.refusesAt, closing] at refuses
      | outlasted => simp [Env.refusesAt, closing] at refuses

theorem waitForExecHookTasks_comes (reached : ledger.Reached closed told drained) :
    Comes (waitForExecHookTasks env) (Ledger.Reached closed told true) ledger := by
  apply Ends.bind
  apply Ends.updates
  apply call_comes
  exact { reached with drained := fun _ => rfl }

theorem drainTasksDuringCleanup_comes (reached : ledger.Reached closed told drained) :
    Comes (drainTasksDuringCleanup env) (Ledger.Reached closed told true) ledger := by
  apply Ends.handle
  apply (waitForExecHookTasks_comes reached).mono (fun _ _ drained => drained)
  exact fun _ _ drained => Ends.raises drained

/-- What a cleanup reaches is reached although its caller is cancelled. -/
theorem shieldedCleanup_comes {site : Site count} {cleanup : Step count}
    {reached : Ledger count → Prop} (comes : Comes cleanup reached ledger) :
    Comes (shieldedCleanup env site cleanup) reached ledger :=
  Ends.shield comes fun _ _ => ends_left_iff.mp comes

theorem shieldedCleanup_ends {site : Site count} {cleanup : Step count}
    {returned : Unit → Ledger count → Prop} {raised : Raised → Ledger count → Prop}
    (uninterrupted : env.interrupts site = false)
    (ends : Ends cleanup returned raised ledger) :
    Ends (shieldedCleanup env site cleanup) returned raised ledger := by
  apply Ends.shield ends
  intro error interrupted
  rw [Env.interruption, uninterrupted] at interrupted
  cases interrupted

theorem Env.unhurt_iff {site : Site count} :
    env.unhurt site = true ↔ env.raises site = none ∧ env.interrupts site = false := by
  simp only [Env.unhurt, Bool.and_eq_true, Option.isNone_iff_eq_none, Bool.not_eq_true']

theorem shieldedClose_comes {site : Site count}
    (closes : closed = true ∨ env.closesAt site = true)
    (reached : ledger.Reached closed told drained) :
    Comes (shieldedCleanup env site (closeSession env site))
      (Ledger.Reached true told drained) ledger := by
  apply shieldedCleanup_comes
  apply (closeSession_ends closes reached).mono (fun _ _ closes => closes)
  exact fun _ _ closes => closes.2

theorem shieldedClose_ends {site : Site count} (closes : env.closesAt site = true)
    (unhurt : env.unhurt site = true) (reached : ledger.Reached closed told drained) :
    Ends (shieldedCleanup env site (closeSession env site))
      (fun _ => Ledger.Reached true told drained) (fun _ _ => False) ledger := by
  obtain ⟨answer, uninterrupted⟩ := env.unhurt_iff.mp unhurt
  apply shieldedCleanup_ends uninterrupted
  apply (closeSession_ends (.inr closes) reached).mono (fun _ _ closes => closes)
  rintro error after ⟨wrong, _⟩
  rw [answer] at wrong
  cases wrong

/-- What a shielded await raises: its caller's cancellation before its own failure. -/
def Env.shieldedError (env : Env count) (site : Site count) : Option Raised :=
  (env.interruption site).or (env.raises site)

theorem Env.shieldedError_none {site : Site count} :
    env.shieldedError site = none ↔ env.unhurt site = true := by
  rw [env.unhurt_iff, Env.shieldedError, Option.or_eq_none_iff, Env.interruption]
  cases env.interrupts site <;> simp

theorem shieldedCall_ends {site : Site count} {returned : Unit → Ledger count → Prop}
    {raised : Raised → Ledger count → Prop}
    (returns : env.shieldedError site = none → returned () ledger)
    (raises : ∀ error, env.shieldedError site = some error → raised error ledger) :
    Ends (shieldedCleanup env site (call env site)) returned raised ledger := by
  unfold shieldedCleanup
  cases interrupted : env.interruption site with
  | none =>
      have own : env.shieldedError site = env.raises site := by
        rw [Env.shieldedError, interrupted, Option.none_or]
      exact call_ends (fun answer => returns (own.trans answer))
        (fun error answer => raises error (own.trans answer))
  | some error =>
      have stays : left (call env site) ledger = ledger := by
        unfold call
        cases env.raises site <;> rfl
      have answer : env.shieldedError site = some error := by
        rw [Env.shieldedError, interrupted, Option.some_or]
      change raised error (left (call env site) ledger)
      rw [stays]
      exact raises error answer

theorem shieldedCall_returns {site : Site count} {reached : Ledger count → Prop}
    (unhurt : env.unhurt site = true) (here : reached ledger) :
    Ends (shieldedCleanup env site (call env site)) (fun _ => reached)
      (fun _ _ => False) ledger := by
  apply shieldedCall_ends (fun _ => here)
  intro error wrong
  rw [env.shieldedError_none.mpr unhurt] at wrong
  cases wrong

theorem shieldedDrain_comes (reached : ledger.Reached closed told drained) :
    Comes (shieldedCleanup env .drain (drainTasksDuringCleanup env))
      (Ledger.Reached closed told true) ledger :=
  shieldedCleanup_comes (drainTasksDuringCleanup_comes reached)

end Cuprum.Finalization
