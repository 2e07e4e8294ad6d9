import Cuprum.Context.Nesting

namespace Cuprum.Context

open ContextVar Transition

variable {v : Vocabulary} {Manager : Type} [DecidableEq Manager]
  {config : Manager → ScopeConfig v}

/-! Entries and registrations are known by their numbers. -/

def ScopeEvent.issues : ScopeEvent v Manager → Prop
  | .enter _ _ => True
  | .register _ _ => True
  | _ => False

def ScopeEvent.registers : ScopeEvent v Manager → Prop
  | .register _ _ => True
  | _ => False

section Counts

variable {state after : ScopeState v Manager} {event : ScopeEvent v Manager}

theorem length_tokens_exit (state : ScopeState v Manager) (context : Nat) (manager : Manager) :
    (state.resetScopedEntry context manager).2.currentContext.tokens.length =
        state.currentContext.tokens.length ∧
      (state.resetScopedEntry context manager).2.registrations = state.registrations := by
  rcases state.resetScopedEntry_cases context manager with
    ⟨_, raised, _⟩ | ⟨token, ctx, _, _, restored⟩
  · rw [raised]
    exact ⟨rfl, rfl⟩
  · rw [restored]
    exact ⟨List.length_set, rfl⟩

omit [DecidableEq Manager] in
theorem length_tokens_detach (state : ScopeState v Manager) (context handle : Nat) :
    (state.detach context handle).2.currentContext.tokens.length =
        state.currentContext.tokens.length ∧
      (state.detach context handle).2.registrations.length = state.registrations.length := by
  rcases state.detach_cases context handle with
    ⟨raised, same⟩ | ⟨token, ctx, _, _, restored⟩ | ⟨_, marked⟩
  · rw [same]
    exact ⟨rfl, rfl⟩
  · rw [restored]
    exact ⟨List.length_set, List.length_set⟩
  · rw [marked]
    exact ⟨rfl, List.length_set⟩

theorem length_tokens_le (step : (scopes config).next state event = some after) :
    state.currentContext.tokens.length ≤ after.currentContext.tokens.length ∧
      state.registrations.length ≤ after.registrations.length := by
  obtain ⟨_, rfl⟩ := scopes_next.mp step
  cases event with
  | copy context => exact ⟨Nat.le_refl _, Nat.le_refl _⟩
  | enter context manager =>
      rw [perform, ScopeState.tokens_enter, List.length_append]
      exact ⟨Nat.le_add_right _ _, Nat.le_refl _⟩
  | exit context manager =>
      obtain ⟨tokens, registrations⟩ := length_tokens_exit state context manager
      rw [perform, tokens, registrations]
      exact ⟨Nat.le_refl _, Nat.le_refl _⟩
  | register context derivation =>
      rw [perform, ScopeState.tokens_register, ScopeState.registrations_register,
        List.length_append, List.length_append]
      exact ⟨Nat.le_add_right _ _, Nat.le_add_right _ _⟩
  | detach context handle =>
      obtain ⟨tokens, registrations⟩ := length_tokens_detach state context handle
      rw [perform, tokens, registrations]
      exact ⟨Nat.le_refl _, Nat.le_refl _⟩

theorem length_tokens_lt (issues : event.issues)
    (step : (scopes config).next state event = some after) :
    state.currentContext.tokens.length < after.currentContext.tokens.length := by
  obtain ⟨_, rfl⟩ := scopes_next.mp step
  cases event with
  | enter context manager =>
      rw [perform, ScopeState.tokens_enter, List.length_append]
      exact Nat.lt_succ_self _
  | register context derivation =>
      rw [perform, ScopeState.tokens_register, List.length_append]
      exact Nat.lt_succ_self _
  | copy context => exact issues.elim
  | exit context manager => exact issues.elim
  | detach context handle => exact issues.elim

theorem length_registrations_lt (registers : event.registers)
    (step : (scopes config).next state event = some after) :
    state.registrations.length < after.registrations.length := by
  obtain ⟨_, rfl⟩ := scopes_next.mp step
  cases event with
  | register context derivation =>
      rw [perform, ScopeState.registrations_register, List.length_append]
      exact Nat.lt_succ_self _
  | enter context manager => exact registers.elim
  | copy context => exact registers.elim
  | exit context manager => exact registers.elim
  | detach context handle => exact registers.elim

end Counts

section Identity

variable {events : List (ScopeEvent v Manager)} {state : ScopeState v Manager}

theorem Opened.unique (runs : (scopes config).exec .initial events = some state)
    {entry : Manager × Nat} {home other : Nat} {before earlier : ScopeState v Manager}
    (first : Opened config events entry home before)
    (second : Opened config events entry other earlier) : home = other ∧ before = earlier := by
  obtain ⟨same, equal⟩ := System.Took.unique (scopes config)
    (fun step => (length_tokens_le step).1) length_tokens_lt runs first.1 second.1 trivial
    trivial (first.2.symm.trans second.2)
  cases same
  exact ⟨rfl, equal⟩

theorem Registered.unique (runs : (scopes config).exec .initial events = some state)
    {handle home other : Nat} {before earlier : ScopeState v Manager}
    (first : Registered config events handle home before)
    (second : Registered config events handle other earlier) :
    home = other ∧ before = earlier := by
  obtain ⟨⟨derivation, took⟩, numbered⟩ := first
  obtain ⟨⟨another, again⟩, counted⟩ := second
  obtain ⟨same, equal⟩ := System.Took.unique (scopes config)
    (fun step => (length_tokens_le step).2) length_registrations_lt runs took again trivial
    trivial (numbered.symm.trans counted)
  cases same
  exact ⟨rfl, equal⟩

theorem Registered.below (runs : (scopes config).exec .initial events = some state)
    {handle home : Nat} {before : ScopeState v Manager}
    (registered : Registered config events handle home before) :
    handle < state.registrations.length := by
  obtain ⟨⟨derivation, took⟩, numbered⟩ := registered
  rw [numbered]
  exact System.Took.count_lt (scopes config) (fun step => (length_tokens_le step).2)
    length_registrations_lt runs took trivial

end Identity

/-! Blocks. -/

variable (config) in
/-- A well-nested block of one logical context: its scopes and registrations end in the
order opposite to the one they began in, whatever other contexts do meanwhile. -/
inductive Block (context : Nat) : ScopeState v Manager → ScopeState v Manager → Prop
  | done (state : ScopeState v Manager) : Block context state state
  | elsewhere {state after last : ScopeState v Manager} {event : ScopeEvent v Manager}
      (other : event.context ≠ context ∨ event = .copy context)
      (step : (scopes config).next state event = some after)
      (rest : Block context after last) : Block context state last
  | scope {state entered left after last : ScopeState v Manager} {manager : Manager}
      (enter : (scopes config).next state (.enter context manager) = some entered)
      (body : Block context entered left)
      (exit : (scopes config).next left (.exit context manager) = some after)
      (rest : Block context after last) : Block context state last
  | registration {state registered left after last : ScopeState v Manager}
      {derivation : Derivation v}
      (register : (scopes config).next state (.register context derivation) =
        some registered)
      (body : Block context registered left)
      (detach : (scopes config).next left (.detach context state.registrations.length) =
        some after)
      (rest : Block context after last) : Block context state last

/-- What a logical context sees and can still restore is as it was. -/
structure Unmoved (context : Nat) (state after : ScopeState v Manager) : Prop where
  contexts : state.contexts ≤ after.contexts
  current : after.currentContext.get context = state.currentContext.get context
  entries : after.scopedEntries.get context = state.scopedEntries.get context
  tokens : ∀ (token : Nat) (ctx : CuprumContext v) (used : Bool),
    state.currentContext.tokens[token]? = some ⟨context, ctx, used⟩ →
      after.currentContext.tokens[token]? = some ⟨context, ctx, used⟩
  registrations : ∀ (handle token : Nat) (ctx : CuprumContext v),
    state.registrations[handle]? = some ⟨some token, false⟩ →
      state.currentContext.tokens[token]? = some ⟨context, ctx, false⟩ →
        after.registrations[handle]? = some ⟨some token, false⟩

omit [DecidableEq Manager] in
theorem Unmoved.refl (context : Nat) (state : ScopeState v Manager) :
    Unmoved context state state :=
  ⟨Nat.le_refl _, rfl, rfl, fun _ _ _ found => found, fun _ _ _ attached _ => attached⟩

omit [DecidableEq Manager] in
theorem Unmoved.trans {context : Nat} {state middle after : ScopeState v Manager}
    (first : Unmoved context state middle) (second : Unmoved context middle after) :
    Unmoved context state after where
  contexts := first.contexts.trans second.contexts
  current := second.current.trans first.current
  entries := second.entries.trans first.entries
  tokens token ctx used found := second.tokens token ctx used (first.tokens token ctx used found)
  registrations handle token ctx attached found :=
    second.registrations handle token ctx (first.registrations handle token ctx attached found)
      (first.tokens token ctx false found)

omit [DecidableEq Manager] in
theorem token_kept {context other token : Nat} {state : ScopeState v Manager}
    {held ctx : CuprumContext v} {marked used : Bool} (differ : other ≠ context)
    (mine : state.currentContext.tokens[token]? = some ⟨other, held, marked⟩) {mark : Bool}
    {second : Nat} (found : state.currentContext.tokens[second]? = some ⟨context, ctx, used⟩) :
    (state.currentContext.tokens.set token ⟨other, held, mark⟩)[second]? =
      some ⟨context, ctx, used⟩ := by
  have distinct : token ≠ second := by
    intro same
    subst same
    cases mine.symm.trans found
    exact differ rfl
  rw [List.getElem?_set_ne distinct, found]

theorem unmoved_elsewhere {context : Nat} {state after : ScopeState v Manager}
    {event : ScopeEvent v Manager} (here : context < state.contexts)
    (other : event.context ≠ context ∨ event = .copy context)
    (step : (scopes config).next state event = some after) : Unmoved context state after := by
  obtain ⟨valid, rfl⟩ := scopes_next.mp step
  cases event with
  | copy creator =>
      have old : context ≠ state.contexts := Nat.ne_of_lt here
      exact ⟨Nat.le_succ _, Variable.get_copy_of_ne _ old _, Variable.get_copy_of_ne _ old _,
        fun _ _ _ found => found, fun _ _ _ attached _ => attached⟩
  | enter home manager =>
      have differ : home ≠ context := other.resolve_right nofun
      refine ⟨Nat.le_refl _, Variable.get_set_of_ne _ differ.symm _,
        Variable.get_set_of_ne _ differ.symm _, ?_, fun _ _ _ attached _ => attached⟩
      exact fun _ _ _ found => Variable.token_set_of_some found ..
  | exit home manager =>
      have differ : home ≠ context := other.resolve_right nofun
      rw [perform]
      rcases state.resetScopedEntry_cases home manager with
        ⟨_, raised, _⟩ | ⟨token, ctx, _, mine, restored⟩
      · rw [raised]
        exact .refl _ _
      · rw [restored]
        refine ⟨Nat.le_refl _, Function.update_of_ne differ.symm ..,
          Variable.get_set_of_ne _ differ.symm _, ?_, fun _ _ _ attached _ => attached⟩
        exact fun _ _ _ found => token_kept differ mine found
  | register home derivation =>
      have differ : home ≠ context := other.resolve_right nofun
      refine ⟨Nat.le_refl _, Variable.get_set_of_ne _ differ.symm _, rfl, ?_, ?_⟩
      · exact fun _ _ _ found => Variable.token_set_of_some found ..
      · intro handle token ctx attached _
        have below := (List.getElem?_eq_some_iff.mp attached).1
        rw [perform, ScopeState.registrations_register, List.getElem?_append_left below,
          attached]
  | detach home handle =>
      have differ : home ≠ context := other.resolve_right nofun
      rw [perform]
      rcases state.detach_cases home handle with
        ⟨raised, same⟩ | ⟨token, ctx, attached, mine, restored⟩ | ⟨bare, marked⟩
      · rw [same]
        exact .refl _ _
      · rw [restored]
        refine ⟨Nat.le_refl _, Function.update_of_ne differ.symm .., rfl,
          fun _ _ _ found => token_kept differ mine found, ?_⟩
        intro second token' ctx' known found
        have distinct : handle ≠ second := by
          intro same
          subst same
          cases attached.symm.trans known
          cases mine.symm.trans found
          exact differ rfl
        rw [ScopeState.detachedFrom, List.getElem?_set_ne distinct, known]
      · rw [marked]
        refine ⟨Nat.le_refl _, rfl, rfl, fun _ _ _ found => found, ?_⟩
        intro second token ctx known found
        have distinct : handle ≠ second := by
          intro same
          subst same
          cases bare.symm.trans known
        rw [List.getElem?_set_ne distinct, known]

omit [DecidableEq Manager] in
/-- A token from before stays where the one issued next is marked. -/
theorem token_before {context token : Nat} {state left : ScopeState v Manager}
    {ctx held : CuprumContext v} {used mark : Bool}
    (found : state.currentContext.tokens[token]? = some ⟨context, ctx, used⟩)
    (kept : left.currentContext.tokens[token]? = some ⟨context, ctx, used⟩) :
    (left.currentContext.tokens.set state.currentContext.tokens.length
      ⟨context, held, mark⟩)[token]? = some ⟨context, ctx, used⟩ := by
  have below := (List.getElem?_eq_some_iff.mp found).1
  rw [List.getElem?_set_ne (Nat.ne_of_gt below), kept]

theorem unmoved_scope {context : Nat} {state left after : ScopeState v Manager}
    {manager : Manager} (body : Unmoved context (state.enter config context manager) left)
    (exit : (scopes config).next left (.exit context manager) = some after) :
    Unmoved context state after := by
  obtain ⟨_, rfl⟩ := scopes_next.mp exit
  have entries : left.scopedEntries.get context = state.scopedEntries.get context ++
      [(manager, state.currentContext.tokens.length)] :=
    body.entries.trans (Variable.get_set ..)
  have last : left.innermost context = some (manager, state.currentContext.tokens.length) := by
    rw [ScopeState.innermost, entries, List.getLast?_concat]
  have found := body.tokens _ _ _ (Variable.token_set_new state.currentContext context _)
  have restored := ScopeState.resetScopedEntry_of_token last found
  rw [perform, restored]
  refine ⟨body.contexts, Function.update_self .., ?_, ?_, ?_⟩
  · rw [ScopeState.exited, Variable.get_set, entries, List.dropLast_concat]
  · intro token ctx used held
    exact token_before held (body.tokens _ _ _ (Variable.token_set_of_some held ..))
  · intro handle token ctx attached held
    exact body.registrations handle token ctx attached (Variable.token_set_of_some held ..)

theorem unmoved_registration {context : Nat} {state left after : ScopeState v Manager}
    {derivation : Derivation v} (body : Unmoved context (state.register context derivation) left)
    (detach : (scopes config).next left (.detach context state.registrations.length) =
      some after) : Unmoved context state after := by
  obtain ⟨_, rfl⟩ := scopes_next.mp detach
  have fresh := Variable.token_set_new state.currentContext context
    (derivation.derive (state.currentContext.get context))
  have found := body.tokens _ _ _ fresh
  have attached := body.registrations state.registrations.length _ _
    List.getElem?_concat_length fresh
  have restored := ScopeState.detach_of_token attached found
  rw [perform, restored]
  refine ⟨body.contexts, Function.update_self .., body.entries, ?_, ?_⟩
  · intro token ctx used held
    exact token_before held (body.tokens _ _ _ (Variable.token_set_of_some held ..))
  · intro handle token ctx known held
    have below := (List.getElem?_eq_some_iff.mp known).1
    have listed : (state.register context derivation).registrations[handle]? =
        some ⟨some token, false⟩ := by
      rw [ScopeState.registrations_register, List.getElem?_append_left below, known]
    rw [ScopeState.detachedFrom, List.getElem?_set_ne (Nat.ne_of_gt below)]
    exact body.registrations handle token ctx listed (Variable.token_set_of_some held ..)

theorem Block.unmoved {context : Nat} {state after : ScopeState v Manager}
    (block : Block config context state after) (here : context < state.contexts) :
    Unmoved context state after := by
  induction block with
  | done state => exact .refl _ _
  | elsewhere other step rest induction =>
      have first := unmoved_elsewhere here other step
      exact first.trans (induction (Nat.lt_of_lt_of_le here first.contexts))
  | scope enter body exit rest inner outer =>
      obtain ⟨_, rfl⟩ := scopes_next.mp enter
      have first := unmoved_scope (inner here) exit
      exact first.trans (outer (Nat.lt_of_lt_of_le here first.contexts))
  | registration register body detach rest inner outer =>
      obtain ⟨_, rfl⟩ := scopes_next.mp register
      have first := unmoved_registration (inner here) detach
      exact first.trans (outer (Nat.lt_of_lt_of_le here first.contexts))

/-! The discipline of a run. -/

variable (config) in
/-- Scopes nest like a stack, after a run. -/
structure Nests (events : List (ScopeEvent v Manager)) (state : ScopeState v Manager) :
    Prop where
  /-- An exit succeeds when its manager's entry is the innermost one visible, was made in
  the same logical context and is still open. -/
  exits : ∀ context manager, (state.resetScopedEntry context manager).1 = none ↔
    ∃ entry before, state.innermost context = some entry ∧ entry.1 = manager ∧
      Opened config events entry context before ∧ ¬ Closed config events entry
  /-- It restores what was current when that entry was made, and removes the entry. -/
  restores : ∀ context entry before, state.innermost context = some entry →
    Opened config events entry context before →
    ∀ after, state.resetScopedEntry context entry.1 = (none, after) →
      after.currentContext.get context = before.currentContext.get context ∧
      after.scopedEntries.get context = (state.scopedEntries.get context).dropLast ∧
      ∀ other, other ≠ context →
        after.currentContext.get other = state.currentContext.get other ∧
        after.scopedEntries.get other = state.scopedEntries.get other
  refuses : ∀ context manager error after,
    state.resetScopedEntry context manager = (some error, after) → after = state
  /-- The first successful detach restores what was current when the registration was
  created; later ones do nothing. -/
  detaches : ∀ handle home before, Registered config events handle home before →
    ∀ context, (Detached config events handle → state.detach context handle = (none, state)) ∧
      (¬ Detached config events handle →
        ((state.detach context handle).1 = none ↔ context = home) ∧
        (∀ error after, state.detach context handle = (some error, after) → after = state) ∧
        ∀ after, state.detach context handle = (none, after) →
          after.currentContext.get context = before.currentContext.get context ∧
          (∀ other, after.scopedEntries.get other = state.scopedEntries.get other) ∧
          ∀ other, other ≠ context →
            after.currentContext.get other = state.currentContext.get other)
  blocks : ∀ context after, context < state.contexts → Block config context state after →
    after.currentContext.get context = state.currentContext.get context ∧
      after.scopedEntries.get context = state.scopedEntries.get context

section Discipline

variable {events : List (ScopeEvent v Manager)} {state : ScopeState v Manager}

theorem innermost_token (runs : (scopes config).exec .initial events = some state)
    {context home : Nat} {entry : Manager × Nat} {before : ScopeState v Manager}
    (last : state.innermost context = some entry)
    (opened : Opened config events entry home before) :
    ∃ used, state.currentContext.tokens[entry.2]? =
        some ⟨home, before.currentContext.get home, used⟩ ∧
      (used = true ↔ Closed config events entry) := by
  obtain ⟨other, earlier, used, again, found, closed⟩ :=
    (traced_of_exec runs).entries context entry (List.mem_of_getLast? last)
  obtain ⟨rfl, rfl⟩ := opened.unique runs again
  exact ⟨used, found, closed⟩

theorem exit_succeeds_iff (runs : (scopes config).exec .initial events = some state)
    (context : Nat) (manager : Manager) :
    (state.resetScopedEntry context manager).1 = none ↔
      ∃ entry before, state.innermost context = some entry ∧ entry.1 = manager ∧
        Opened config events entry context before ∧ ¬ Closed config events entry := by
  constructor
  · intro succeeds
    rcases state.resetScopedEntry_cases context manager with
      ⟨_, raised, _⟩ | ⟨token, ctx, last, found, _⟩
    · rw [raised] at succeeds
      cases succeeds
    · obtain ⟨home, before, used, opened, held, closed⟩ :=
        (traced_of_exec runs).entries context _ (List.mem_of_getLast? last)
      cases held.symm.trans found
      exact ⟨_, before, last, rfl, opened, fun shut => Bool.false_ne_true (closed.mpr shut)⟩
  · intro entered
    obtain ⟨entry, before, last, rfl, opened, still⟩ := entered
    obtain ⟨used, found, closed⟩ := innermost_token runs last opened
    have unused : used = false := Bool.eq_false_iff.mpr fun marked => still (closed.mp marked)
    rw [unused] at found
    rw [ScopeState.resetScopedEntry_of_token last found]

theorem exit_restores (runs : (scopes config).exec .initial events = some state)
    {context : Nat} {entry : Manager × Nat} {before after : ScopeState v Manager}
    (last : state.innermost context = some entry)
    (opened : Opened config events entry context before)
    (exit : state.resetScopedEntry context entry.1 = (none, after)) :
    after.currentContext.get context = before.currentContext.get context ∧
      after.scopedEntries.get context = (state.scopedEntries.get context).dropLast ∧
      ∀ other, other ≠ context →
        after.currentContext.get other = state.currentContext.get other ∧
        after.scopedEntries.get other = state.scopedEntries.get other := by
  obtain ⟨used, held, _⟩ := innermost_token runs last opened
  rcases state.resetScopedEntry_cases context entry.1 with
    ⟨_, raised, _⟩ | ⟨token, ctx, innermost, found, restored⟩
  · cases raised.symm.trans exit
  · have same : entry.2 = token :=
      congrArg Prod.snd (Option.some.inj (last.symm.trans innermost))
    subst same
    cases held.symm.trans found
    cases restored.symm.trans exit
    refine ⟨Function.update_self .., Variable.get_set .., ?_⟩
    intro other differ
    exact ⟨Function.update_of_ne differ .., Variable.get_set_of_ne _ differ _⟩

theorem detach_released (runs : (scopes config).exec .initial events = some state)
    {handle home : Nat} {before : ScopeState v Manager}
    (registered : Registered config events handle home before)
    (detached : Detached config events handle) (context : Nat) :
    state.detach context handle = (none, state) := by
  have known := List.getElem?_eq_getElem (registered.below runs)
  obtain ⟨_, _, _, ⟨released, _⟩ | ⟨attached, _⟩⟩ :=
    (traced_of_exec runs).registrations handle _ known
  · exact ScopeState.detach_of_detached known (by rw [released]) context
  · exact absurd detached attached

theorem detach_attached (runs : (scopes config).exec .initial events = some state)
    {handle home : Nat} {before : ScopeState v Manager}
    (registered : Registered config events handle home before)
    (attached : ¬ Detached config events handle) (context : Nat) :
    ((state.detach context handle).1 = none ↔ context = home) ∧
      (∀ error after, state.detach context handle = (some error, after) → after = state) ∧
      ∀ after, state.detach context handle = (none, after) →
        after.currentContext.get context = before.currentContext.get context ∧
        (∀ other, after.scopedEntries.get other = state.scopedEntries.get other) ∧
        ∀ other, other ≠ context →
          after.currentContext.get other = state.currentContext.get other := by
  have known := List.getElem?_eq_getElem (registered.below runs)
  obtain ⟨other, earlier, again, ⟨_, released⟩ | ⟨_, token, same, found⟩⟩ :=
    (traced_of_exec runs).registrations handle _ known
  · exact absurd released attached
  · obtain ⟨rfl, rfl⟩ := registered.unique runs again
    rw [same] at known
    by_cases here : context = home
    · subst here
      rw [ScopeState.detach_of_token known found]
      refine ⟨iff_of_true rfl rfl, nofun, ?_⟩
      intro after restored
      cases restored
      refine ⟨Function.update_self .., fun _ => rfl, ?_⟩
      intro other differ
      exact Function.update_of_ne differ ..
    · rw [ScopeState.detach_of_other known found here]
      refine ⟨iff_of_false nofun here, ?_, nofun⟩
      intro error after raised
      cases raised
      rfl

/-- Scopes nest like a stack, and registrations restore what they replaced, in every run
over any number of logical contexts. -/
theorem scopes_nest (config : Manager → ScopeConfig v)
    (runs : (scopes config).exec .initial events = some state) : Nests config events state where
  exits := exit_succeeds_iff runs
  restores _ _ _ last opened _ exit := exit_restores runs last opened exit
  refuses context manager error after raised := by
    rcases state.resetScopedEntry_cases context manager with
      ⟨other, same, _⟩ | ⟨_, _, _, _, restored⟩
    · cases same.symm.trans raised
      rfl
    · cases restored.symm.trans raised
  detaches handle home before registered context :=
    ⟨fun detached => detach_released runs registered detached context,
      fun attached => detach_attached runs registered attached context⟩
  blocks context after here block := by
    have unmoved := block.unmoved here
    exact ⟨unmoved.current, unmoved.entries⟩

/-- One manager entered twice, the inner entry by a task that starts in a copy. -/
theorem scopes_nest_reentered :
    ∃ state, (scopes fun _ : Unit => (⟨some ∅, [], [], [], none, none, .overlay, none, none⟩ :
        ScopeConfig ⟨Unit, Unit, Unit, Unit⟩)).exec .initial
          [.enter 0 (), .copy 0, .enter 1 (), .exit 1 (), .exit 1 (), .exit 0 ()] =
        some state ∧
      Nests (fun _ : Unit => ⟨some ∅, [], [], [], none, none, .overlay, none, none⟩)
        [.enter 0 (), .copy 0, .enter 1 (), .exit 1 (), .exit 1 (), .exit 0 ()] state :=
  ⟨_, rfl, scopes_nest _ rfl⟩

end Discipline

end Cuprum.Context
