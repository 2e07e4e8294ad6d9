import Cuprum.Context.Core
import Cuprum.ContextVar.Variable
import Cuprum.Transition.System

namespace Cuprum.Context

open ContextVar Transition

variable {v : Vocabulary} {Manager : Type}

/-- Why an exit is refused; each is a `RuntimeError`. -/
inductive ScopeError
  | notInnermost
  | otherContext
  | tokenUsed
  deriving DecidableEq

/-- What the registration handles derive from the current context. -/
inductive Derivation (v : Vocabulary)
  | allow (programs : Finset Program)
  | before (hook : v.Hook)
  | after (hook : v.Hook)
  | observe (hook : v.Hook)
  | env (overlay : Option EnvOverlay) (mode : EnvMode)
  | bindExecutable (program : Program) (binding : v.Binding)

def Derivation.derive (ctx : CuprumContext v) : Derivation v → CuprumContext v
  | allow programs => ctx.withAllowlist (ctx.allowlist ∪ programs)
  | before hook => ctx.withBeforeHook hook
  | after hook => ctx.withAfterHook hook
  | observe hook => ctx.withObserveHook hook
  | env overlay mode => ctx.withEnvOverlay overlay mode
  | bindExecutable program binding => ctx.withExecutableBinding program binding

structure TokenRegistration where
  token : Option Nat
  detached : Bool

/-- The two context variables over the logical contexts there are, and the registration
handles; managers and logical contexts are known by identity. -/
structure ScopeState (v : Vocabulary) (Manager : Type) where
  contexts : Nat
  currentContext : Variable (CuprumContext v)
  scopedEntries : Variable (List (Manager × Nat))
  registrations : List TokenRegistration

namespace ScopeState

def initial : ScopeState v Manager :=
  ⟨1, .initial {}, .initial [], []⟩

def setContext (self : ScopeState v Manager) (context : Nat) (ctx : CuprumContext v) :
    Nat × ScopeState v Manager :=
  let (token, currentContext) := self.currentContext.set context ctx
  (token, { self with currentContext })

def resetContext (self : ScopeState v Manager) (context token : Nat) :
    Except ResetError (ScopeState v Manager) :=
  (self.currentContext.reset context token).map fun currentContext =>
    { self with currentContext }

def pushScopedEntry (self : ScopeState v Manager) (context : Nat) (manager : Manager)
    (token : Nat) : ScopeState v Manager :=
  { self with
    scopedEntries := (self.scopedEntries.set context
      (self.scopedEntries.get context ++ [(manager, token)])).2 }

/-- Restore and remove the top entry when it belongs to the manager; what is raised comes
with the state it leaves. -/
def resetScopedEntry [DecidableEq Manager] (self : ScopeState v Manager) (context : Nat)
    (manager : Manager) : Option ScopeError × ScopeState v Manager :=
  let entries := self.scopedEntries.get context
  match entries.getLast? with
  | none => (some .notInnermost, self)
  | some (entered, token) =>
      if entered = manager then
        match self.resetContext context token with
        | .error .otherContext => (some .otherContext, self)
        | .error .alreadyUsed => (some .tokenUsed, self)
        | .ok state =>
            (none, { state with
              scopedEntries := (state.scopedEntries.set context entries.dropLast).2 })
      else (some .notInnermost, self)

/-- `_ScopedContext.__enter__`. -/
def enter (self : ScopeState v Manager) (config : Manager → ScopeConfig v) (context : Nat)
    (manager : Manager) : ScopeState v Manager :=
  let ctx := (self.currentContext.get context).narrow (config manager)
  let (token, state) := self.setContext context ctx
  state.pushScopedEntry context manager token

/-- A registration handle derives a context and installs it. -/
def register (self : ScopeState v Manager) (context : Nat) (derivation : Derivation v) :
    ScopeState v Manager :=
  let (token, state) :=
    self.setContext context (derivation.derive (self.currentContext.get context))
  { state with registrations := state.registrations ++ [⟨some token, false⟩] }

def release (self : ScopeState v Manager) (context : Nat)
    (registration : TokenRegistration) :
    Except ResetError (ScopeState v Manager × TokenRegistration) :=
  match registration.token with
  | none => .ok (self, registration)
  | some token =>
      (self.resetContext context token).map fun state =>
        (state, { registration with token := none })

/-- Release the registration, exactly once; a release that raises leaves it attached. -/
def detach (self : ScopeState v Manager) (context handle : Nat) :
    Option ResetError × ScopeState v Manager :=
  match self.registrations[handle]? with
  | none => (none, self)
  | some registration =>
      if registration.detached then (none, self)
      else
        match self.release context registration with
        | .error error => (some error, self)
        | .ok (state, released) =>
            (none, { state with
              registrations := state.registrations.set handle
                { released with detached := true } })

/-- A task or a thread starts in a copy of its creator's logical context. -/
def copy (self : ScopeState v Manager) (creator : Nat) : ScopeState v Manager :=
  { self with
    contexts := self.contexts + 1
    currentContext := self.currentContext.copy creator self.contexts
    scopedEntries := self.scopedEntries.copy creator self.contexts }

end ScopeState

/-- What is done in a logical context. -/
inductive ScopeEvent (v : Vocabulary) (Manager : Type)
  | copy (context : Nat)
  | enter (context : Nat) (manager : Manager)
  | exit (context : Nat) (manager : Manager)
  | register (context : Nat) (derivation : Derivation v)
  | detach (context handle : Nat)

namespace ScopeEvent

def context : ScopeEvent v Manager → Nat
  | copy context => context
  | enter context _ => context
  | exit context _ => context
  | register context _ => context
  | detach context _ => context

/-- The logical context exists, and so does the handle. -/
def isValid (state : ScopeState v Manager) (event : ScopeEvent v Manager) : Bool :=
  event.context < state.contexts &&
    match event with
    | detach _ handle => handle < state.registrations.length
    | _ => true

end ScopeEvent

section Scopes

variable [DecidableEq Manager] (config : Manager → ScopeConfig v)

/-- The state an event leaves, whether or not it raises. -/
def perform (state : ScopeState v Manager) : ScopeEvent v Manager → ScopeState v Manager
  | .copy context => state.copy context
  | .enter context manager => state.enter config context manager
  | .exit context manager => (state.resetScopedEntry context manager).2
  | .register context derivation => state.register context derivation
  | .detach context handle => (state.detach context handle).2

def scopes : System (ScopeState v Manager) (ScopeEvent v Manager) where
  initial := .initial
  next state event := if event.isValid state then some (perform config state event) else none

end Scopes

end Cuprum.Context
