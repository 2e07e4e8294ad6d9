import Cuprum.Context.Scopes

namespace Cuprum.Context

open ContextVar Transition

variable {v : Vocabulary} {Manager : Type}

namespace ScopeState

variable {self : ScopeState v Manager} {context : Nat}

/-! What an exit and a detach do. -/

def innermost (self : ScopeState v Manager) (context : Nat) : Option (Manager × Nat) :=
  (self.scopedEntries.get context).getLast?

def exited (self : ScopeState v Manager) (context token : Nat)
    (ctx : CuprumContext v) : ScopeState v Manager :=
  { self with
    currentContext :=
      { values := Function.update self.currentContext.values context ctx
        tokens := self.currentContext.tokens.set token ⟨context, ctx, true⟩ }
    scopedEntries :=
      (self.scopedEntries.set context (self.scopedEntries.get context).dropLast).2 }

theorem resetScopedEntry_of_token [DecidableEq Manager] {manager : Manager} {token : Nat} {ctx : CuprumContext v}
    (last : self.innermost context = some (manager, token))
    (found : self.currentContext.tokens[token]? = some ⟨context, ctx, false⟩) :
    self.resetScopedEntry context manager = (none, self.exited context token ctx) := by
  have last : (self.scopedEntries.get context).getLast? = some (manager, token) := last
  have reset := Variable.reset_of_token found
  simp [resetScopedEntry, last, resetContext, reset, Except.map, exited]

/-- An exit is refused, and changes nothing, unless its manager's entry is the innermost
one and its token can still be used here. -/
theorem resetScopedEntry_cases [DecidableEq Manager] (self : ScopeState v Manager) (context : Nat)
    (manager : Manager) :
    (∃ error, self.resetScopedEntry context manager = (some error, self) ∧
        ∀ token ctx, self.innermost context = some (manager, token) →
          self.currentContext.tokens[token]? ≠ some ⟨context, ctx, false⟩) ∨
      ∃ token ctx, self.innermost context = some (manager, token) ∧
        self.currentContext.tokens[token]? = some ⟨context, ctx, false⟩ ∧
        self.resetScopedEntry context manager = (none, self.exited context token ctx) := by
  by_cases usable : ∃ token ctx, self.innermost context = some (manager, token) ∧
      self.currentContext.tokens[token]? = some ⟨context, ctx, false⟩
  · obtain ⟨token, ctx, last, found⟩ := usable
    exact .inr ⟨token, ctx, last, found, resetScopedEntry_of_token last found⟩
  · have refused : ∀ token ctx, self.innermost context = some (manager, token) →
        self.currentContext.tokens[token]? ≠ some ⟨context, ctx, false⟩ :=
      fun token ctx last found => usable ⟨token, ctx, last, found⟩
    suffices raises : ∃ error, self.resetScopedEntry context manager = (some error, self) from
      .inl (raises.imp fun _ raised => ⟨raised, refused⟩)
    unfold resetScopedEntry
    dsimp only
    split
    next => exact ⟨_, rfl⟩
    next entered token last =>
      split
      next same =>
        subst same
        cases reset : self.currentContext.reset context token with
        | error error =>
            cases error with
            | alreadyUsed => exact ⟨.tokenUsed, by simp [resetContext, reset, Except.map]⟩
            | otherContext => exact ⟨.otherContext, by simp [resetContext, reset, Except.map]⟩
        | ok after =>
            obtain ⟨ctx, found⟩ := Variable.reset_isOk_iff.mp ⟨after, reset⟩
            exact absurd found (refused token ctx last)
      next => exact ⟨_, rfl⟩

def detachedFrom (self : ScopeState v Manager) (context handle token : Nat)
    (ctx : CuprumContext v) : ScopeState v Manager :=
  { self with
    currentContext :=
      { values := Function.update self.currentContext.values context ctx
        tokens := self.currentContext.tokens.set token ⟨context, ctx, true⟩ }
    registrations := self.registrations.set handle ⟨none, true⟩ }

theorem detach_of_detached {handle : Nat} {registration : TokenRegistration}
    (found : self.registrations[handle]? = some registration)
    (detached : registration.detached = true) (context : Nat) :
    self.detach context handle = (none, self) := by
  simp [detach, found, detached]

theorem detach_of_token {handle token : Nat} {ctx : CuprumContext v}
    (attached : self.registrations[handle]? = some ⟨some token, false⟩)
    (found : self.currentContext.tokens[token]? = some ⟨context, ctx, false⟩) :
    self.detach context handle = (none, self.detachedFrom context handle token ctx) := by
  have reset := Variable.reset_of_token found
  simp [detach, attached, release, resetContext, reset, Except.map, detachedFrom]

theorem detach_of_other {handle token home : Nat} {ctx : CuprumContext v}
    (attached : self.registrations[handle]? = some ⟨some token, false⟩)
    (found : self.currentContext.tokens[token]? = some ⟨home, ctx, false⟩)
    (other : context ≠ home) :
    self.detach context handle = (some .otherContext, self) := by
  simp [detach, attached, release, resetContext, Variable.reset, found, Except.map,
    other.symm]

/-- A detach changes nothing, or restores what the token holds, or, having none, only
marks the registration. -/
theorem detach_cases (self : ScopeState v Manager) (context handle : Nat) :
    (∃ raised, self.detach context handle = (raised, self)) ∨
      (∃ token ctx, self.registrations[handle]? = some ⟨some token, false⟩ ∧
        self.currentContext.tokens[token]? = some ⟨context, ctx, false⟩ ∧
        self.detach context handle = (none, self.detachedFrom context handle token ctx)) ∨
      self.registrations[handle]? = some ⟨none, false⟩ ∧
        self.detach context handle =
          (none, { self with registrations := self.registrations.set handle ⟨none, true⟩ }) := by
  cases found : self.registrations[handle]? with
  | none => exact .inl ⟨none, by simp [detach, found]⟩
  | some registration =>
      obtain ⟨token, detached⟩ := registration
      cases detached with
      | true => exact .inl ⟨none, detach_of_detached found rfl context⟩
      | false =>
          cases token with
          | none => exact .inr (.inr ⟨rfl, by simp [detach, found, release]⟩)
          | some token =>
              cases reset : self.currentContext.reset context token with
              | error error =>
                  refine .inl ⟨some error, ?_⟩
                  simp [detach, found, release, resetContext, reset, Except.map]
              | ok after =>
                  obtain ⟨ctx, held⟩ := Variable.reset_isOk_iff.mp ⟨after, reset⟩
                  exact .inr (.inl ⟨token, ctx, rfl, held, detach_of_token found held⟩)

/-! What entering and registering add. -/

theorem mem_enter {config : Manager → ScopeConfig v} {manager : Manager} {other : Nat}
    {entry : Manager × Nat} :
    entry ∈ (self.enter config context manager).scopedEntries.get other ↔
      entry ∈ self.scopedEntries.get other ∨
        other = context ∧ entry = (manager, self.currentContext.tokens.length) := by
  by_cases same : other = context
  · subst same
    simp [enter, setContext, pushScopedEntry]
  · have kept : (self.enter config context manager).scopedEntries.get other =
        self.scopedEntries.get other := Variable.get_set_of_ne _ same _
    rw [kept]
    simp [same]

theorem tokens_enter (config : Manager → ScopeConfig v) (manager : Manager) :
    (self.enter config context manager).currentContext.tokens =
      self.currentContext.tokens ++ [⟨context, self.currentContext.get context, false⟩] :=
  rfl

theorem tokens_register (derivation : Derivation v) :
    (self.register context derivation).currentContext.tokens =
      self.currentContext.tokens ++ [⟨context, self.currentContext.get context, false⟩] :=
  rfl

theorem registrations_register (derivation : Derivation v) :
    (self.register context derivation).registrations =
      self.registrations ++ [⟨some self.currentContext.tokens.length, false⟩] :=
  rfl

end ScopeState

section History

variable [DecidableEq Manager] (config : Manager → ScopeConfig v)

def Opened (events : List (ScopeEvent v Manager)) (entry : Manager × Nat) (home : Nat)
    (before : ScopeState v Manager) : Prop :=
  (scopes config).Took events (.enter home entry.1) before ∧
    entry.2 = before.currentContext.tokens.length

def Closed (events : List (ScopeEvent v Manager)) (entry : Manager × Nat) : Prop :=
  ∃ context state, (scopes config).Took events (.exit context entry.1) state ∧
    state.innermost context = some entry ∧
    (state.resetScopedEntry context entry.1).1 = none

def Registered (events : List (ScopeEvent v Manager)) (handle home : Nat)
    (before : ScopeState v Manager) : Prop :=
  (∃ derivation, (scopes config).Took events (.register home derivation) before) ∧
    handle = before.registrations.length

def Detached (events : List (ScopeEvent v Manager)) (handle : Nat) : Prop :=
  ∃ context state, (scopes config).Took events (.detach context handle) state ∧
    (state.detach context handle).1 = none

/-- What the token of an entry tells: where it was made and what was current there, and
whether an exit has closed it. -/
def EntryTraced (events : List (ScopeEvent v Manager)) (state : ScopeState v Manager)
    (entry : Manager × Nat) : Prop :=
  ∃ home before used, Opened config events entry home before ∧
    state.currentContext.tokens[entry.2]? =
      some ⟨home, before.currentContext.get home, used⟩ ∧
    (used = true ↔ Closed config events entry)

/-- What a registration handle tells likewise. -/
def RegistrationTraced (events : List (ScopeEvent v Manager))
    (state : ScopeState v Manager) (handle : Nat) (registration : TokenRegistration) :
    Prop :=
  ∃ home before, Registered config events handle home before ∧
    (registration = ⟨none, true⟩ ∧ Detached config events handle ∨
      ¬ Detached config events handle ∧ ∃ token, registration = ⟨some token, false⟩ ∧
        state.currentContext.tokens[token]? =
          some ⟨home, before.currentContext.get home, false⟩)

/-- The tokens in use tell what a run has opened, registered and restored. -/
structure Traced (events : List (ScopeEvent v Manager)) (state : ScopeState v Manager) :
    Prop where
  entries : ∀ context, ∀ entry ∈ state.scopedEntries.get context,
    EntryTraced config events state entry
  registrations : ∀ handle registration, state.registrations[handle]? = some registration →
    RegistrationTraced config events state handle registration
  named : ∀ context other, ∀ entry ∈ state.scopedEntries.get context,
    ∀ second ∈ state.scopedEntries.get other, entry.2 = second.2 → entry = second
  apart : ∀ context, ∀ entry ∈ state.scopedEntries.get context,
    ∀ registration ∈ state.registrations, registration.token ≠ some entry.2
  distinct : ∀ (handle other : Nat) (first second : TokenRegistration) (token : Nat),
    state.registrations[handle]? = some first → state.registrations[other]? = some second →
      first.token = some token → second.token = some token → handle = other
  closed : ∀ entry, Closed config events entry →
    entry.2 < state.currentContext.tokens.length
  detached : ∀ handle, Detached config events handle → handle < state.registrations.length

variable {config} {events : List (ScopeEvent v Manager)} {state : ScopeState v Manager}

theorem Opened.concat {entry : Manager × Nat} {home : Nat} {before : ScopeState v Manager}
    (opened : Opened config events entry home before)
    (runs : (scopes config).exec .initial events = some state)
    (event : ScopeEvent v Manager) : Opened config (events ++ [event]) entry home before :=
  ⟨((scopes config).took_concat runs event _ _).mpr (.inl opened.1), opened.2⟩

theorem Registered.concat {handle home : Nat} {before : ScopeState v Manager}
    (registered : Registered config events handle home before)
    (runs : (scopes config).exec .initial events = some state)
    (event : ScopeEvent v Manager) :
    Registered config (events ++ [event]) handle home before := by
  obtain ⟨⟨derivation, took⟩, numbered⟩ := registered
  exact ⟨⟨derivation, ((scopes config).took_concat runs event _ _).mpr (.inl took)⟩, numbered⟩

theorem closed_concat (runs : (scopes config).exec .initial events = some state)
    (event : ScopeEvent v Manager) (entry : Manager × Nat) :
    Closed config (events ++ [event]) entry ↔ Closed config events entry ∨
      ∃ context, event = .exit context entry.1 ∧ state.innermost context = some entry ∧
        (state.resetScopedEntry context entry.1).1 = none := by
  have took := (scopes config).took_concat runs event
  constructor
  · intro closed
    obtain ⟨context, before, exits, last, done⟩ := closed
    rcases (took _ _).mp exits with earlier | ⟨same, rfl⟩
    · exact .inl ⟨context, before, earlier, last, done⟩
    · exact .inr ⟨context, same.symm, last, done⟩
  · intro either
    rcases either with ⟨context, before, exits, last, done⟩ | ⟨context, same, last, done⟩
    · exact ⟨context, before, (took _ _).mpr (.inl exits), last, done⟩
    · exact ⟨context, state, (took _ _).mpr (.inr ⟨same.symm, rfl⟩), last, done⟩

theorem detached_concat (runs : (scopes config).exec .initial events = some state)
    (event : ScopeEvent v Manager) (handle : Nat) :
    Detached config (events ++ [event]) handle ↔ Detached config events handle ∨
      ∃ context, event = .detach context handle ∧
        (state.detach context handle).1 = none := by
  have took := (scopes config).took_concat runs event
  constructor
  · intro detached
    obtain ⟨context, before, detaches, done⟩ := detached
    rcases (took _ _).mp detaches with earlier | ⟨same, rfl⟩
    · exact .inl ⟨context, before, earlier, done⟩
    · exact .inr ⟨context, same.symm, done⟩
  · intro either
    rcases either with ⟨context, before, detaches, done⟩ | ⟨context, same, done⟩
    · exact ⟨context, before, (took _ _).mpr (.inl detaches), done⟩
    · exact ⟨context, state, (took _ _).mpr (.inr ⟨same.symm, rfl⟩), done⟩

/-- An entry whose token and fate a step leaves alone. -/
theorem EntryTraced.concat {entry : Manager × Nat} {after : ScopeState v Manager}
    (traced : EntryTraced config events state entry)
    (runs : (scopes config).exec .initial events = some state)
    {event : ScopeEvent v Manager}
    (token : after.currentContext.tokens[entry.2]? = state.currentContext.tokens[entry.2]?)
    (closes : Closed config (events ++ [event]) entry ↔ Closed config events entry) :
    EntryTraced config (events ++ [event]) after entry := by
  obtain ⟨home, before, used, opened, found, closed⟩ := traced
  exact ⟨home, before, used, opened.concat runs event, token.trans found,
    closed.trans closes.symm⟩

theorem RegistrationTraced.concat {handle : Nat} {registration : TokenRegistration}
    {after : ScopeState v Manager}
    (traced : RegistrationTraced config events state handle registration)
    (runs : (scopes config).exec .initial events = some state)
    {event : ScopeEvent v Manager}
    (kept : ∀ token, registration.token = some token →
      after.currentContext.tokens[token]? = state.currentContext.tokens[token]?)
    (detaches : Detached config (events ++ [event]) handle ↔ Detached config events handle) :
    RegistrationTraced config (events ++ [event]) after handle registration := by
  obtain ⟨home, before, registered, told⟩ := traced
  refine ⟨home, before, registered.concat runs event, ?_⟩
  rw [detaches]
  rcases told with released | ⟨attached, token, rfl, found⟩
  · exact .inl released
  · exact .inr ⟨attached, token, rfl, (kept token rfl).trans found⟩

theorem traced_initial : Traced config [] .initial where
  entries _ _ member := absurd member List.not_mem_nil
  registrations _ _ found := by cases found
  named _ _ _ member := absurd member List.not_mem_nil
  apart _ _ member := absurd member List.not_mem_nil
  distinct _ _ _ _ _ found := by cases found
  closed := by
    intro entry closed
    obtain ⟨_, _, took, _⟩ := closed
    exact absurd took ((scopes config).not_took_nil _ _)
  detached := by
    intro handle detached
    obtain ⟨_, _, took, _⟩ := detached
    exact absurd took ((scopes config).not_took_nil _ _)

/-- A step that opens, closes, registers and detaches nothing. -/
theorem Traced.unchanged {after : ScopeState v Manager} {event : ScopeEvent v Manager}
    (traced : Traced config events state)
    (runs : (scopes config).exec .initial events = some state)
    (closes : ∀ entry, Closed config (events ++ [event]) entry ↔ Closed config events entry)
    (detaches : ∀ handle,
      Detached config (events ++ [event]) handle ↔ Detached config events handle)
    (tokens : after.currentContext.tokens = state.currentContext.tokens)
    (registrations : after.registrations = state.registrations)
    (entries : ∀ context, ∃ other,
      after.scopedEntries.get context = state.scopedEntries.get other) :
    Traced config (events ++ [event]) after where
  entries context entry member := by
    obtain ⟨other, same⟩ := entries context
    rw [same] at member
    exact (traced.entries other entry member).concat runs (by rw [tokens]) (closes entry)
  registrations handle registration found := by
    rw [registrations] at found
    exact (traced.registrations handle registration found).concat runs
      (fun token _ => by rw [tokens]) (detaches handle)
  named context other entry member second inside := by
    obtain ⟨first, same⟩ := entries context
    obtain ⟨again, equal⟩ := entries other
    rw [same] at member
    rw [equal] at inside
    exact traced.named first again entry member second inside
  apart context entry member := by
    obtain ⟨other, same⟩ := entries context
    rw [same] at member
    rw [registrations]
    exact traced.apart other entry member
  distinct := by
    rw [registrations]
    exact traced.distinct
  closed entry closed := by
    rw [tokens]
    exact traced.closed entry ((closes entry).mp closed)
  detached handle detached := by
    rw [registrations]
    exact traced.detached handle ((detaches handle).mp detached)

theorem EntryTraced.below {entry : Manager × Nat}
    (traced : EntryTraced config events state entry) :
    entry.2 < state.currentContext.tokens.length := by
  obtain ⟨_, _, _, _, found, _⟩ := traced
  exact (List.getElem?_eq_some_iff.mp found).1

theorem RegistrationTraced.below {handle : Nat} {registration : TokenRegistration}
    (traced : RegistrationTraced config events state handle registration) {token : Nat}
    (holds : registration.token = some token) :
    token < state.currentContext.tokens.length := by
  obtain ⟨_, _, _, ⟨rfl, _⟩ | ⟨_, other, rfl, found⟩⟩ := traced
  · cases holds
  · cases holds
    exact (List.getElem?_eq_some_iff.mp found).1

theorem Traced.enter (traced : Traced config events state)
    (runs : (scopes config).exec .initial events = some state) (context : Nat)
    (manager : Manager) :
    Traced config (events ++ [.enter context manager])
      (state.enter config context manager) := by
  have closes : ∀ entry, Closed config (events ++ [.enter context manager]) entry ↔
      Closed config events entry := by
    intro entry
    rw [closed_concat runs]
    simp
  have detaches : ∀ handle, Detached config (events ++ [.enter context manager]) handle ↔
      Detached config events handle := by
    intro handle
    rw [detached_concat runs]
    simp
  have kept : ∀ token, token < state.currentContext.tokens.length →
      (state.enter config context manager).currentContext.tokens[token]? =
        state.currentContext.tokens[token]? := fun token below =>
    List.getElem?_append_left below
  have fresh : ∀ other, ∀ entry ∈ state.scopedEntries.get other,
      entry.2 ≠ state.currentContext.tokens.length := fun other entry member =>
    Nat.ne_of_lt (traced.entries other entry member).below
  refine {
    entries := ?entries
    registrations := ?registrations
    named := ?named
    apart := ?apart
    distinct := traced.distinct
    closed := ?closed
    detached := fun handle detached => traced.detached handle ((detaches handle).mp detached) }
  case entries =>
    intro other entry member
    rcases ScopeState.mem_enter.mp member with old | ⟨_, rfl⟩
    · have told := traced.entries other entry old
      exact told.concat runs (kept _ told.below) (closes entry)
    · refine ⟨context, state, false, ⟨?_, rfl⟩, List.getElem?_concat_length, ?_⟩
      · exact ((scopes config).took_concat runs _ _ _).mpr (.inr ⟨rfl, rfl⟩)
      · rw [closes]
        refine iff_of_false Bool.false_ne_true fun closed => ?_
        exact Nat.lt_irrefl _ (traced.closed _ closed)
  case registrations =>
    intro handle registration found
    have told := traced.registrations handle registration found
    exact told.concat runs (fun token holds => kept token (told.below holds))
      (detaches handle)
  case named =>
    intro first other entry member second inside same
    rcases ScopeState.mem_enter.mp member with old | ⟨_, rfl⟩
    · rcases ScopeState.mem_enter.mp inside with older | ⟨_, rfl⟩
      · exact traced.named first other entry old second older same
      · exact absurd same (fresh first entry old)
    · rcases ScopeState.mem_enter.mp inside with older | ⟨_, rfl⟩
      · exact absurd same.symm (fresh other second older)
      · rfl
  case apart =>
    intro other entry member registration listed holds
    rcases ScopeState.mem_enter.mp member with old | ⟨_, rfl⟩
    · exact traced.apart other entry old registration listed holds
    · obtain ⟨handle, found⟩ := List.mem_iff_getElem?.mp listed
      exact Nat.lt_irrefl _ ((traced.registrations handle registration found).below holds)
  case closed =>
    intro entry closed
    rw [ScopeState.tokens_enter, List.length_append]
    exact Nat.lt_add_right _ (traced.closed entry ((closes entry).mp closed))

theorem Traced.register (traced : Traced config events state)
    (runs : (scopes config).exec .initial events = some state) (context : Nat)
    (derivation : Derivation v) :
    Traced config (events ++ [.register context derivation])
      (state.register context derivation) := by
  have closes : ∀ entry, Closed config (events ++ [.register context derivation]) entry ↔
      Closed config events entry := by
    intro entry
    rw [closed_concat runs]
    simp
  have detaches : ∀ handle,
      Detached config (events ++ [.register context derivation]) handle ↔
        Detached config events handle := by
    intro handle
    rw [detached_concat runs]
    simp
  have kept : ∀ token, token < state.currentContext.tokens.length →
      (state.register context derivation).currentContext.tokens[token]? =
        state.currentContext.tokens[token]? := fun token below =>
    List.getElem?_append_left below
  have listed : ∀ {handle registration},
      (state.register context derivation).registrations[handle]? = some registration →
        state.registrations[handle]? = some registration ∨
          handle = state.registrations.length ∧
            registration = ⟨some state.currentContext.tokens.length, false⟩ := by
    intro handle registration found
    rw [ScopeState.registrations_register] at found
    rcases Nat.lt_or_ge handle state.registrations.length with old | new
    · rw [List.getElem?_append_left old] at found
      exact .inl found
    · rw [List.getElem?_append_right new, List.getElem?_singleton] at found
      split at found
      next zero =>
        cases found
        exact .inr ⟨by omega, rfl⟩
      next => cases found
  have fresh : ∀ {handle : Nat} {registration : TokenRegistration},
      state.registrations[handle]? = some registration → registration.token ≠
        some state.currentContext.tokens.length := fun found holds =>
    Nat.lt_irrefl _ ((traced.registrations _ _ found).below holds)
  refine {
    entries := ?entries
    registrations := ?registrations
    named := traced.named
    apart := ?apart
    distinct := ?distinct
    closed := ?closed
    detached := ?detached }
  case entries =>
    intro other entry member
    have told := traced.entries other entry member
    exact told.concat runs (kept _ told.below) (closes entry)
  case registrations =>
    intro handle registration found
    rcases listed found with old | ⟨rfl, rfl⟩
    · have told := traced.registrations handle registration old
      exact told.concat runs (fun token holds => kept token (told.below holds))
        (detaches handle)
    · refine ⟨context, state, ⟨⟨derivation, ?_⟩, rfl⟩, .inr ⟨?_, _, rfl, ?_⟩⟩
      · exact ((scopes config).took_concat runs _ _ _).mpr (.inr ⟨rfl, rfl⟩)
      · rw [detaches]
        exact fun detached => Nat.lt_irrefl _ (traced.detached _ detached)
      · exact List.getElem?_concat_length
  case apart =>
    intro other entry member registration inside holds
    obtain ⟨handle, found⟩ := List.mem_iff_getElem?.mp inside
    rcases listed found with old | ⟨_, rfl⟩
    · exact traced.apart other entry member registration (List.mem_of_getElem? old) holds
    · have below := (traced.entries other entry member).below
      have same := Option.some.inj holds
      omega
  case distinct =>
    intro handle other first second token found again holds same
    rcases listed found with old | ⟨rfl, rfl⟩
    · rcases listed again with older | ⟨rfl, rfl⟩
      · exact traced.distinct handle other first second token old older holds same
      · cases same
        exact absurd holds (fresh old)
    · rcases listed again with older | ⟨rfl, rfl⟩
      · cases holds
        exact absurd same (fresh older)
      · rfl
  case closed =>
    intro entry closed
    rw [ScopeState.tokens_register, List.length_append]
    exact Nat.lt_add_right _ (traced.closed entry ((closes entry).mp closed))
  case detached =>
    intro handle detached
    rw [ScopeState.registrations_register, List.length_append]
    exact Nat.lt_add_right _ (traced.detached handle ((detaches handle).mp detached))

theorem Traced.refused (traced : Traced config events state)
    (runs : (scopes config).exec .initial events = some state)
    {event : ScopeEvent v Manager}
    (closes : ∀ context entry, event = .exit context entry.1 →
      state.innermost context = some entry →
        (state.resetScopedEntry context entry.1).1 ≠ none)
    (detaches : ∀ context handle, event = .detach context handle →
      (state.detach context handle).1 = none → Detached config events handle) :
    Traced config (events ++ [event]) state := by
  apply traced.unchanged runs
  · intro entry
    rw [closed_concat runs, or_iff_left_iff_imp]
    intro closing
    obtain ⟨context, same, last, done⟩ := closing
    exact absurd done (closes context entry same last)
  · intro handle
    rw [detached_concat runs, or_iff_left_iff_imp]
    intro detaching
    obtain ⟨context, same, done⟩ := detaching
    exact detaches context handle same done
  · rfl
  · rfl
  · exact fun context => ⟨context, rfl⟩

theorem Traced.exit (traced : Traced config events state)
    (runs : (scopes config).exec .initial events = some state) (context : Nat)
    (manager : Manager) :
    Traced config (events ++ [.exit context manager])
      (state.resetScopedEntry context manager).2 := by
  rcases state.resetScopedEntry_cases context manager with
    ⟨error, raised, refused⟩ | ⟨token, ctx, last, found, restored⟩
  · rw [raised]
    refine traced.refused runs ?_ nofun
    intro other entry same _
    cases same
    rw [raised]
    exact Option.some_ne_none _
  · have closes : ∀ entry, Closed config (events ++ [.exit context manager]) entry ↔
        Closed config events entry ∨ entry = (manager, token) := by
      intro entry
      rw [closed_concat runs]
      apply or_congr_right
      constructor
      · intro closing
        obtain ⟨other, same, innermost, _⟩ := closing
        cases same
        exact Option.some.inj (innermost.symm.trans last)
      · intro same
        subst same
        exact ⟨context, rfl, last, by rw [restored]⟩
    have detaches : ∀ handle, Detached config (events ++ [.exit context manager]) handle ↔
        Detached config events handle := by
      intro handle
      rw [detached_concat runs]
      simp
    have listed : (manager, token) ∈ state.scopedEntries.get context :=
      List.mem_of_getLast? last
    have fewer : ∀ {other entry},
        entry ∈ (state.exited context token ctx).scopedEntries.get other →
          entry ∈ state.scopedEntries.get other := by
      intro other entry member
      by_cases same : other = context
      · subst same
        rw [ScopeState.exited, Variable.get_set] at member
        exact List.mem_of_mem_dropLast member
      · rwa [ScopeState.exited, Variable.get_set_of_ne _ same] at member
    have kept : ∀ other, other ≠ token →
        (state.exited context token ctx).currentContext.tokens[other]? =
          state.currentContext.tokens[other]? := fun other differ =>
      List.getElem?_set_ne differ.symm
    rw [restored]
    refine {
      entries := ?_
      registrations := ?_
      named := fun first other entry member second inside =>
        traced.named first other entry (fewer member) second (fewer inside)
      apart := fun other entry member => traced.apart other entry (fewer member)
      distinct := traced.distinct
      closed := ?_
      detached := fun handle detached =>
        traced.detached handle ((detaches handle).mp detached) }
    · intro other entry member
      have told := traced.entries other entry (fewer member)
      by_cases same : entry = (manager, token)
      · subst same
        obtain ⟨home, before, used, opened, held, _⟩ := told
        have below := (List.getElem?_eq_some_iff.mp found).1
        cases held.symm.trans found
        refine ⟨context, before, true, opened.concat runs _, ?_, ?_⟩
        · exact List.getElem?_set_self below
        · rw [closes]
          exact iff_of_true rfl (.inr rfl)
      · have differ : entry.2 ≠ token := fun equal =>
          same (traced.named other context entry (fewer member) _ listed equal)
        refine told.concat runs (kept entry.2 differ) ?_
        rw [closes, or_iff_left same]
    · intro handle registration known
      have told := traced.registrations handle registration known
      refine told.concat runs (fun other holds => kept other ?_) (detaches handle)
      intro same
      subst same
      exact traced.apart context _ listed registration (List.mem_of_getElem? known) holds
    · intro entry closed
      have same : (state.exited context token ctx).currentContext.tokens.length =
          state.currentContext.tokens.length := List.length_set
      rw [same]
      rcases (closes entry).mp closed with earlier | rfl
      · exact traced.closed entry earlier
      · exact (List.getElem?_eq_some_iff.mp found).1

/-- The first detach in the logical context of the registration. -/
theorem Traced.release (traced : Traced config events state)
    (runs : (scopes config).exec .initial events = some state) {context handle token : Nat}
    {ctx : CuprumContext v}
    (attached : state.registrations[handle]? = some ⟨some token, false⟩)
    (found : state.currentContext.tokens[token]? = some ⟨context, ctx, false⟩) :
    Traced config (events ++ [.detach context handle])
      (state.detachedFrom context handle token ctx) := by
  have closes : ∀ entry, Closed config (events ++ [.detach context handle]) entry ↔
      Closed config events entry := by
    intro entry
    rw [closed_concat runs]
    simp
  have detaches : ∀ other, Detached config (events ++ [.detach context handle]) other ↔
      Detached config events other ∨ other = handle := by
    intro other
    rw [detached_concat runs]
    apply or_congr_right
    constructor
    · intro detaching
      obtain ⟨_, same, _⟩ := detaching
      cases same
      rfl
    · intro same
      subst same
      exact ⟨context, rfl, by rw [ScopeState.detach_of_token attached found]⟩
  have below : handle < state.registrations.length :=
    (List.getElem?_eq_some_iff.mp attached).1
  have kept : ∀ other, other ≠ token →
      (state.detachedFrom context handle token ctx).currentContext.tokens[other]? =
        state.currentContext.tokens[other]? := fun other differ =>
    List.getElem?_set_ne differ.symm
  have listed : ∀ {other registration},
      (state.detachedFrom context handle token ctx).registrations[other]? =
          some registration →
        other = handle ∧ registration = ⟨none, true⟩ ∨
          other ≠ handle ∧ state.registrations[other]? = some registration := by
    intro other registration known
    by_cases same : other = handle
    · subst same
      rw [ScopeState.detachedFrom, List.getElem?_set_self below] at known
      cases known
      exact .inl ⟨rfl, rfl⟩
    · rw [ScopeState.detachedFrom, List.getElem?_set_ne (Ne.symm same)] at known
      exact .inr ⟨same, known⟩
  refine {
    entries := ?entries
    registrations := ?registrations
    named := traced.named
    apart := ?apart
    distinct := ?distinct
    closed := ?closed
    detached := ?detached }
  case entries =>
    intro other entry member
    have told := traced.entries other entry member
    refine told.concat runs (kept entry.2 ?_) (closes entry)
    intro same
    exact traced.apart other entry member _ (List.mem_of_getElem? attached)
      (congrArg some same.symm)
  case registrations =>
    intro other registration known
    rcases listed known with ⟨rfl, rfl⟩ | ⟨differ, old⟩
    · obtain ⟨home, before, registered, _⟩ := traced.registrations other _ attached
      exact ⟨home, before, registered.concat runs _, .inl ⟨rfl, (detaches other).mpr (.inr rfl)⟩⟩
    · refine (traced.registrations other registration old).concat runs ?_ ?_
      · intro second holds
        refine kept second fun same => ?_
        subst same
        exact differ (traced.distinct other handle registration _ second old attached holds rfl)
      · rw [detaches, or_iff_left differ]
  case apart =>
    intro other entry member registration inside holds
    obtain ⟨second, known⟩ := List.mem_iff_getElem?.mp inside
    rcases listed known with ⟨_, rfl⟩ | ⟨_, old⟩
    · cases holds
    · exact traced.apart other entry member registration (List.mem_of_getElem? old) holds
  case distinct =>
    intro one other first second shared known again holds same
    rcases listed known with ⟨_, rfl⟩ | ⟨_, old⟩
    · cases holds
    · rcases listed again with ⟨_, rfl⟩ | ⟨_, older⟩
      · cases same
      · exact traced.distinct one other first second shared old older holds same
  case closed =>
    intro entry closed
    have same : (state.detachedFrom context handle token ctx).currentContext.tokens.length =
        state.currentContext.tokens.length := List.length_set
    rw [same]
    exact traced.closed entry ((closes entry).mp closed)
  case detached =>
    intro other detached
    have same : (state.detachedFrom context handle token ctx).registrations.length =
        state.registrations.length := List.length_set
    rw [same]
    rcases (detaches other).mp detached with earlier | rfl
    · exact traced.detached other earlier
    · exact below

theorem Traced.detach (traced : Traced config events state)
    (runs : (scopes config).exec .initial events = some state) (context : Nat)
    {handle : Nat} (exists_ : handle < state.registrations.length) :
    Traced config (events ++ [.detach context handle]) (state.detach context handle).2 := by
  have known := List.getElem?_eq_getElem exists_
  obtain ⟨home, before, _, ⟨released, detached⟩ | ⟨attached, token, same, found⟩⟩ :=
    traced.registrations handle _ known
  · rw [ScopeState.detach_of_detached known (by rw [released])]
    refine traced.refused runs nofun ?_
    intro other second equal _
    cases equal
    exact detached
  · rw [same] at known
    by_cases here : context = home
    · subst here
      rw [ScopeState.detach_of_token known found]
      exact traced.release runs known found
    · have raised := ScopeState.detach_of_other known found here
      rw [raised]
      refine traced.refused runs nofun ?_
      intro other second equal done
      cases equal
      rw [raised] at done
      cases done

theorem Traced.copy (traced : Traced config events state)
    (runs : (scopes config).exec .initial events = some state) (creator : Nat) :
    Traced config (events ++ [.copy creator]) (state.copy creator) := by
  apply traced.unchanged runs
  · intro entry
    rw [closed_concat runs]
    simp
  · intro handle
    rw [detached_concat runs]
    simp
  · rfl
  · rfl
  · intro context
    by_cases created : context = state.contexts
    · subst created
      exact ⟨creator, Variable.get_copy ..⟩
    · exact ⟨context, Variable.get_copy_of_ne _ created _⟩

theorem scopes_next {event : ScopeEvent v Manager} {after : ScopeState v Manager} :
    (scopes config).next state event = some after ↔
      event.isValid state = true ∧ perform config state event = after := by
  simp only [scopes]
  split
  next valid => simp [valid]
  next invalid => simp [invalid]

/-- Every run leaves tokens that tell its history. -/
theorem traced_of_exec (runs : (scopes config).exec .initial events = some state) :
    Traced config events state := by
  refine (scopes config).exec_history traced_initial ?_ runs
  intro events state event after before traced step
  obtain ⟨valid, rfl⟩ := scopes_next.mp step
  cases event with
  | copy context => exact traced.copy before context
  | enter context manager => exact traced.enter before context manager
  | exit context manager => exact traced.exit before context manager
  | register context derivation => exact traced.register before context derivation
  | detach context handle =>
      simp only [ScopeEvent.isValid, Bool.and_eq_true, decide_eq_true_eq] at valid
      exact traced.detach before context valid.2

end History

end Cuprum.Context
