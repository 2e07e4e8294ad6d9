import Cuprum.Context.Allowance
import Cuprum.Context.Policy

namespace Cuprum.Context

/-- The values a context carries without looking into them: hooks known by
identity, validated timeouts, catalogues and executable bindings. -/
structure Vocabulary where
  Hook : Type
  Timeout : Type
  Catalogue : Type
  Binding : Type

structure ScopeConfig (v : Vocabulary) where
  allowlist : Option (Finset Program) := none
  beforeHooks : List v.Hook := []
  afterHooks : List v.Hook := []
  observeHooks : List v.Hook := []
  timeout : Option v.Timeout := none
  envOverlay : Option EnvOverlay := none
  envMode : EnvMode := .overlay
  catalogue : Option v.Catalogue := none
  executableBindings : Option (Overlay Program v.Binding) := none

structure CuprumContext (v : Vocabulary) where
  allowlist : Finset Program := ∅
  beforeHooks : List v.Hook := []
  afterHooks : List v.Hook := []
  observeHooks : List v.Hook := []
  timeout : Option v.Timeout := none
  envOverlay : Option EnvOverlay := none
  allowlistIsRestricted : Bool := false
  envMode : EnvMode := .overlay
  catalogue : Option v.Catalogue := none
  executableBindings : Option (Overlay Program v.Binding) := none

structure ForbiddenProgramError where
  program : Program
  restrictedState : Bool
  deriving DecidableEq

def ForbiddenProgramError.message (error : ForbiddenProgramError) : String :=
  "Program '" ++ error.program ++ "' is not allowed in the current context"

namespace CuprumContext

variable {v : Vocabulary}

def isAllowed (self : CuprumContext v) (program : Program) : Bool :=
  program ∈ self.allowlist

/-- Enforce the allowlist; empty, it permits all unless it is restricted. -/
def checkAllowed (self : CuprumContext v) (program : Program) :
    Except ForbiddenProgramError Unit :=
  if self.allowlist = ∅ ∧ ¬ self.allowlistIsRestricted then .ok ()
  else if self.isAllowed program then .ok ()
  else .error ⟨program, self.allowlistIsRestricted⟩

def narrow (self : CuprumContext v) (config : ScopeConfig v) : CuprumContext v :=
  let isRestricted :=
    isNarrowedAllowlistRestricted config.allowlist self.allowlistIsRestricted
  let (envOverlay, envMode) :=
    resolveEnvPolicy self.envOverlay self.envMode config.envOverlay config.envMode
  { allowlist :=
      narrowAllowlist self.allowlist config.allowlist self.allowlistIsRestricted
    beforeHooks := mergeHooks self.beforeHooks config.beforeHooks false
    afterHooks := mergeHooks self.afterHooks config.afterHooks true
    observeHooks := mergeHooks self.observeHooks config.observeHooks false
    timeout := resolveNarrowedTimeout self.timeout config.timeout
    envOverlay
    envMode
    catalogue := resolveNarrowedCatalogue self.catalogue config.catalogue
    executableBindings :=
      mergeExecutableBindings self.executableBindings config.executableBindings
    allowlistIsRestricted := isRestricted }

def withAllowlist (self : CuprumContext v) (allowlist : Finset Program) :
    CuprumContext v :=
  { self with
    allowlist
    allowlistIsRestricted := self.allowlistIsRestricted ||
      decide (self.allowlist ≠ ∅) || decide (allowlist ≠ ∅) }

def withProgram (self : CuprumContext v) (program : Program) : CuprumContext v :=
  self.withAllowlist (self.allowlist ∪ {program})

def withoutProgram (self : CuprumContext v) (program : Program) : CuprumContext v :=
  self.withAllowlist (self.allowlist \ {program})

def withEnvOverlay (self : CuprumContext v) (overlay : Option EnvOverlay)
    (mode : EnvMode) : CuprumContext v :=
  let (envOverlay, envMode) :=
    resolveEnvPolicy self.envOverlay self.envMode overlay mode
  { self with envOverlay, envMode }

def withExecutableBinding (self : CuprumContext v) (program : Program)
    (binding : v.Binding) : CuprumContext v :=
  { self with
    executableBindings :=
      some ((self.executableBindings.getD ∅).insert program binding) }

/-! Hooks are added in call order, after hooks in reverse, and removed by
identity. -/

def withBeforeHook (self : CuprumContext v) (hook : v.Hook) : CuprumContext v :=
  { self with beforeHooks := self.beforeHooks ++ [hook] }

def withAfterHook (self : CuprumContext v) (hook : v.Hook) : CuprumContext v :=
  { self with afterHooks := hook :: self.afterHooks }

def withObserveHook (self : CuprumContext v) (hook : v.Hook) : CuprumContext v :=
  { self with observeHooks := self.observeHooks ++ [hook] }

section Removal

variable [DecidableEq v.Hook]

def withoutBeforeHook (self : CuprumContext v) (hook : v.Hook) : CuprumContext v :=
  { self with beforeHooks := self.beforeHooks.filter (· ≠ hook) }

def withoutAfterHook (self : CuprumContext v) (hook : v.Hook) : CuprumContext v :=
  { self with afterHooks := self.afterHooks.filter (· ≠ hook) }

def withoutObserveHook (self : CuprumContext v) (hook : v.Hook) : CuprumContext v :=
  { self with observeHooks := self.observeHooks.filter (· ≠ hook) }

end Removal

/-! What a context permits, and what a scope leaves of it. -/

def allowance (self : CuprumContext v) : Allowance Program :=
  if self.allowlist = ∅ ∧ self.allowlistIsRestricted = false then .everything
  else .only self.allowlist

def permitted (self : CuprumContext v) : Set Program :=
  {program | self.checkAllowed program = .ok ()}

end CuprumContext

def ScopeConfig.allowance {v : Vocabulary} (config : ScopeConfig v) :
    Allowance Program :=
  match config.allowlist with
  | none => .everything
  | some allowlist => .only allowlist

namespace CuprumContext

variable {v : Vocabulary}

theorem permitted_eq (self : CuprumContext v) :
    self.permitted = self.allowance.permits := by
  ext program
  simp only [permitted, checkAllowed, allowance, isAllowed, Set.mem_ofPred_eq]
  by_cases unrestricted : self.allowlist = ∅ ∧ self.allowlistIsRestricted = false
  · simp [unrestricted]
  · have enforced : ¬ (self.allowlist = ∅ ∧ ¬ self.allowlistIsRestricted = true) := by
      simpa using unrestricted
    rw [if_neg enforced, if_neg unrestricted]
    by_cases member : program ∈ self.allowlist <;> simp [member]

theorem allowance_eq_everything_iff {self : CuprumContext v} :
    self.allowance = .everything ↔
      self.allowlist = ∅ ∧ self.allowlistIsRestricted = false := by
  unfold allowance
  split
  next unrestricted => exact ⟨fun _ => unrestricted, fun _ => rfl⟩
  next enforced => exact ⟨nofun, fun unrestricted => absurd unrestricted enforced⟩

theorem allowance_of_restricted {self : CuprumContext v}
    (restricted : self.allowlistIsRestricted = true) :
    self.allowance = .only self.allowlist :=
  if_neg (by simp [restricted])

theorem narrowAllowlist_of_restricting (self : CuprumContext v)
    (scope : Finset Program) :
    Allowance.only
        (narrowAllowlist self.allowlist (some scope) self.allowlistIsRestricted) =
      self.allowance.meet (.only scope) := by
  by_cases empty : self.allowlist = ∅
  · cases restricted : self.allowlistIsRestricted with
    | true =>
        rw [allowance_of_restricted restricted]
        simp [narrowAllowlist, Allowance.meet, empty]
    | false =>
        rw [allowance_eq_everything_iff.mpr ⟨empty, restricted⟩]
        simp [narrowAllowlist, Allowance.meet, empty]
  · have enforced : self.allowance = .only self.allowlist :=
      if_neg fun unrestricted => empty unrestricted.1
    rw [enforced]
    simp [narrowAllowlist, Allowance.meet, empty]

/-- Narrowing is the meet of what the parent and the scope let through. -/
theorem allowance_narrow (self : CuprumContext v) (config : ScopeConfig v) :
    (self.narrow config).allowance = self.allowance.meet config.allowance := by
  cases scope : config.allowlist with
  | none =>
      have inherited : config.allowance = .everything := by
        rw [ScopeConfig.allowance, scope]
      rw [inherited, Allowance.meet_everything]
      simp [allowance, narrow, narrowAllowlist, isNarrowedAllowlistRestricted, scope]
  | some allowlist =>
      have restricted : (self.narrow config).allowlistIsRestricted = true := by
        simp [narrow, isNarrowedAllowlistRestricted, scope]
      have named : config.allowance = .only allowlist := by
        rw [ScopeConfig.allowance, scope]
      rw [allowance_of_restricted restricted, named,
        ← narrowAllowlist_of_restricting, ← scope]
      rfl

theorem allowance_withAllowlist {self : CuprumContext v}
    (enforced : self.allowance ≠ .everything) (allowlist : Finset Program) :
    (self.withAllowlist allowlist).allowance = .only allowlist := by
  apply allowance_of_restricted
  have active := mt allowance_eq_everything_iff.mpr enforced
  simp only [withAllowlist, Bool.or_eq_true, decide_eq_true_eq]
  by_contra open_
  simp only [not_or, not_not, Bool.not_eq_true] at open_
  exact active ⟨open_.1.2, open_.1.1⟩

/-- The context operations. -/
inductive Operation (v : Vocabulary)
  | narrow (config : ScopeConfig v)
  | withAllowlist (allowlist : Finset Program)
  | withProgram (program : Program)
  | withoutProgram (program : Program)
  | withBeforeHook (hook : v.Hook)
  | withoutBeforeHook (hook : v.Hook)
  | withAfterHook (hook : v.Hook)
  | withoutAfterHook (hook : v.Hook)
  | withObserveHook (hook : v.Hook)
  | withoutObserveHook (hook : v.Hook)
  | withEnvOverlay (overlay : Option EnvOverlay) (mode : EnvMode)
  | withExecutableBinding (program : Program) (binding : v.Binding)

section Operations

variable [DecidableEq v.Hook]

def apply (self : CuprumContext v) : Operation v → CuprumContext v
  | .narrow config => self.narrow config
  | .withAllowlist allowlist => self.withAllowlist allowlist
  | .withProgram program => self.withProgram program
  | .withoutProgram program => self.withoutProgram program
  | .withBeforeHook hook => self.withBeforeHook hook
  | .withoutBeforeHook hook => self.withoutBeforeHook hook
  | .withAfterHook hook => self.withAfterHook hook
  | .withoutAfterHook hook => self.withoutAfterHook hook
  | .withObserveHook hook => self.withObserveHook hook
  | .withoutObserveHook hook => self.withoutObserveHook hook
  | .withEnvOverlay overlay mode => self.withEnvOverlay overlay mode
  | .withExecutableBinding program binding => self.withExecutableBinding program binding

/-- No operation opens a context that enforces its allowlist. -/
theorem apply_enforced {self : CuprumContext v}
    (enforced : self.allowance ≠ .everything) (operation : Operation v) :
    (self.apply operation).allowance ≠ .everything := by
  cases operation with
  | narrow config =>
      intro opened
      apply enforced
      apply Allowance.meet_eq_everything
      rw [← allowance_narrow]
      exact opened
  | withAllowlist allowlist =>
      simp [apply, allowance_withAllowlist enforced]
  | withProgram program =>
      simp [apply, withProgram, allowance_withAllowlist enforced]
  | withoutProgram program =>
      simp [apply, withoutProgram, allowance_withAllowlist enforced]
  | withBeforeHook hook => exact enforced
  | withoutBeforeHook hook => exact enforced
  | withAfterHook hook => exact enforced
  | withoutAfterHook hook => exact enforced
  | withObserveHook hook => exact enforced
  | withoutObserveHook hook => exact enforced
  | withEnvOverlay overlay mode => exact enforced
  | withExecutableBinding program binding => exact enforced

def applyAll (self : CuprumContext v) (operations : List (Operation v)) :
    CuprumContext v :=
  operations.foldl apply self

theorem applyAll_enforced {self : CuprumContext v}
    (enforced : self.allowance ≠ .everything) (operations : List (Operation v)) :
    (self.applyAll operations).allowance ≠ .everything := by
  induction operations generalizing self with
  | nil => exact enforced
  | cons operation operations induction =>
      exact induction (apply_enforced enforced operation)

end Operations

def narrowAll (self : CuprumContext v) (configs : List (ScopeConfig v)) :
    CuprumContext v :=
  configs.foldl narrow self

theorem allowance_narrowAll (self : CuprumContext v) (configs : List (ScopeConfig v)) :
    (self.narrowAll configs).allowance =
      (configs.map ScopeConfig.allowance).foldl Allowance.meet self.allowance := by
  induction configs generalizing self with
  | nil => rfl
  | cons config configs induction =>
      rw [narrowAll, List.foldl_cons, ← narrowAll, induction, allowance_narrow,
        List.map_cons, List.foldl_cons]

theorem permitted_narrow (self : CuprumContext v) (config : ScopeConfig v) :
    (self.narrow config).permitted = self.permitted ∩ config.allowance.permits := by
  rw [permitted_eq, permitted_eq, allowance_narrow, Allowance.permits_meet]

theorem permitted_narrowAll (self : CuprumContext v) (configs : List (ScopeConfig v)) :
    (self.narrowAll configs).permitted =
      self.permitted ∩
        {program | ∀ config ∈ configs, program ∈ config.allowance.permits} := by
  rw [permitted_eq, permitted_eq, allowance_narrowAll, Allowance.permits_foldl_meet]
  simp

/-- The policy never falls open: once an allowlist is enforced no operation lifts
it, and nested scopes permit what every one of them and the parent permit. -/
theorem policy_never_falls_open [DecidableEq v.Hook] (context : CuprumContext v) :
    (context.allowlistIsRestricted = true ∨ context.allowlist ≠ ∅ →
      ∀ operations,
        ¬ ((context.applyAll operations).allowlist = ∅ ∧
            (context.applyAll operations).allowlistIsRestricted = false) ∧
          (context.applyAll operations).permitted ≠ Set.univ) ∧
    (∀ configs config,
      ((context.narrowAll configs).narrow config).permitted =
        (context.narrowAll configs).permitted ∩ config.allowance.permits) ∧
    (∀ configs, (context.narrowAll configs).permitted =
      context.permitted ∩
        {program | ∀ config ∈ configs, program ∈ config.allowance.permits}) := by
  refine ⟨fun active operations => ?_, fun configs => permitted_narrow _,
    permitted_narrowAll context⟩
  have enforced : context.allowance ≠ .everything := by
    rw [Ne, allowance_eq_everything_iff]
    rintro ⟨empty, unrestricted⟩
    rcases active with restricted | nonempty
    · exact absurd (restricted.symm.trans unrestricted) (by decide)
    · exact nonempty empty
  have kept := applyAll_enforced enforced operations
  refine ⟨mt allowance_eq_everything_iff.mpr kept, ?_⟩
  rw [permitted_eq]
  exact mt Allowance.permits_eq_univ_iff.mp kept

abbrev plain : Vocabulary := ⟨Unit, Unit, Unit, Unit⟩

def echoOnly : CuprumContext plain := { allowlist := {"echo"} }

/-- Removing the last program closes the context; no scope reopens it. -/
theorem emptied_context_stays_closed :
    (echoOnly.applyAll
      [.withoutProgram "echo", .narrow { allowlist := some {"ls"} }]).permitted ≠
        Set.univ :=
  ((policy_never_falls_open echoOnly).1 (.inr (by simp [echoOnly])) _).2

end CuprumContext

end Cuprum.Context
