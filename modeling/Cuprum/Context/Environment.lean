import Cuprum.Context.Core
import Cuprum.Layering.Change

namespace Cuprum.Context

open Cuprum.Layering

/-! A composed policy is rendered over the live environment when a child is spawned. -/

abbrev Environ := Finmap fun _ : String => String

def EnvOverlayValue.held : EnvOverlayValue → Option String
  | .set value => some value
  | .unset => none

def change (overlay : Option EnvOverlay) : Change String String :=
  fun name => (overlay.bind (·.lookup name)).map EnvOverlayValue.held

def renderEntry (rendered : Environ) (key : String) : EnvOverlayValue → Environ
  | .set value => rendered.insert key value
  | .unset => rendered.erase key

theorem lookup_renderEntry (rendered : Environ) (key name : String)
    (value : EnvOverlayValue) :
    (renderEntry rendered key value).lookup name =
      if name = key then value.held else rendered.lookup name := by
  by_cases same : name = key
  · subst same
    cases value with
    | set value => simp [renderEntry, EnvOverlayValue.held]
    | unset => simp [renderEntry, EnvOverlayValue.held]
  · cases value with
    | set value => simp [renderEntry, same]
    | unset => simp [renderEntry, same]

theorem lookup_foldl_renderEntry (entries : AList fun _ : String => EnvOverlayValue)
    (rendered : Environ) (name : String) :
    (entries.foldl renderEntry rendered).lookup name =
      ((entries.lookup name).map EnvOverlayValue.held).getD (rendered.lookup name) := by
  induction entries using AList.insertRec generalizing rendered with
  | H0 => rfl
  | IH key value entries absent induction =>
      have first : (entries.insert key value).foldl renderEntry rendered =
          entries.foldl renderEntry (renderEntry rendered key value) := by
        unfold AList.foldl
        rw [AList.entries_insert_of_notMem absent, List.foldl_cons]
      rw [first, induction, lookup_renderEntry]
      by_cases same : name = key
      · subst same
        simp [AList.lookup_eq_none.mpr absent]
      · simp [same]

/-- The entries of the overlay one by one, in whichever order it holds them. -/
def renderEntries (overlay : EnvOverlay) (rendered : Environ) : Environ :=
  overlay.liftOn (fun entries => entries.foldl renderEntry rendered) (by
    intro first second same
    apply Finmap.ext_lookup
    intro name
    rw [lookup_foldl_renderEntry, lookup_foldl_renderEntry, AList.perm_lookup same])

theorem lookup_renderEntries (overlay : EnvOverlay) (rendered : Environ) :
    (fun name => (renderEntries overlay rendered).lookup name) =
      (change (some overlay)).apply fun name => rendered.lookup name := by
  funext name
  induction overlay using Finmap.induction_on with
  | H entries => exact lookup_foldl_renderEntry entries rendered name

/-- An overlay without entries, which is no truer than none. -/
def IsFalsy (overlay : Option EnvOverlay) : Prop := overlay.getD ∅ = ∅

instance (overlay : Option EnvOverlay) : Decidable (IsFalsy overlay) :=
  inferInstanceAs (Decidable (_ = _))

def renderEnvBase (overlay : Option EnvOverlay) (mode : EnvMode) (environ : Environ) :
    Option Environ :=
  if mode ≠ .replace ∧ IsFalsy overlay then none
  else some (if mode = .replace then ∅ else environ)

/-- The mapping handed to the child, or `none` for it to inherit the live one. -/
def renderEnv (overlay : Option EnvOverlay) (mode : EnvMode) (environ : Environ) :
    Option Environ :=
  match renderEnvBase overlay mode environ with
  | none => none
  | some rendered =>
      match overlay with
      | none => some rendered
      | some overlay => some (renderEntries overlay rendered)

/-- The environment a child runs in. -/
def childEnviron (rendered : Option Environ) (environ : Environ) : Environ :=
  rendered.getD environ

/-! What a policy does to the mapping it is rendered over. -/

def layer (overlay : Option EnvOverlay) (mode : EnvMode) : Layer String String :=
  ⟨mode = .replace, change overlay⟩

theorem change_eq_silent_iff {overlay : Option EnvOverlay} :
    change overlay = .silent ↔ IsFalsy overlay := by
  cases overlay with
  | none => exact iff_of_true rfl rfl
  | some overlay =>
      constructor
      · intro silent
        apply Finmap.ext_lookup
        intro name
        have quiet := congrFun silent name
        simpa [change, Change.silent] using quiet
      · intro falsy
        obtain rfl : overlay = ∅ := falsy
        rfl

theorem lookup_union {κ ν : Type} [DecidableEq κ] (first second : Overlay κ ν) (name : κ) :
    (first ∪ second).lookup name = (first.lookup name).or (second.lookup name) := by
  by_cases member : name ∈ first
  · obtain ⟨value, found⟩ := Finmap.mem_iff.mp member
    rw [Finmap.lookup_union_left member, found, Option.some_or]
  · rw [Finmap.lookup_union_right member, Finmap.lookup_eq_none.mpr member, Option.none_or]

theorem change_merge (parent child : Option EnvOverlay) :
    change (mergeEnvOverlays parent child) = (change child).onTop (change parent) := by
  funext name
  cases parent with
  | none =>
      cases child with
      | none => rfl
      | some child => exact Option.or_none.symm
  | some parent =>
      cases child with
      | none => rfl
      | some child =>
          change ((child ∪ parent).lookup name).map _ = _
          rw [lookup_union, Option.map_or]
          rfl

theorem mergeOverlays_assoc {κ ν : Type} [DecidableEq κ]
    (first second third : Option (Overlay κ ν)) :
    mergeOverlays (mergeOverlays first second) third =
      mergeOverlays first (mergeOverlays second third) := by
  cases first with
  | none => cases second <;> cases third <;> rfl
  | some first =>
      cases second with
      | none => cases third <;> rfl
      | some second =>
          cases third with
          | none => rfl
          | some third => exact congrArg some Finmap.union_assoc.symm

theorem renderEnv_eq_none_iff {overlay : Option EnvOverlay} {mode : EnvMode}
    {environ : Environ} :
    renderEnv overlay mode environ = none ↔ mode ≠ .replace ∧ IsFalsy overlay := by
  unfold renderEnv renderEnvBase
  by_cases inherits : mode ≠ .replace ∧ IsFalsy overlay
  · simp [inherits]
  · rw [if_neg inherits]
    cases overlay <;> simp [inherits]

theorem lookup_renderEnv (overlay : Option EnvOverlay) (mode : EnvMode) (environ : Environ) :
    (fun name => (childEnviron (renderEnv overlay mode environ) environ).lookup name) =
      (layer overlay mode).apply fun name => environ.lookup name := by
  by_cases inherits : mode ≠ .replace ∧ IsFalsy overlay
  · rw [renderEnv_eq_none_iff.mpr inherits]
    unfold layer Layer.apply
    rw [change_eq_silent_iff.mpr inherits.2]
    simp [childEnviron, inherits.1]
  · have base : (fun name => (if mode = .replace then ∅ else environ : Environ).lookup name) =
        if (layer overlay mode).fresh then fun _ => none else fun name => environ.lookup name := by
      by_cases replaces : mode = .replace
      · simp [layer, replaces]
      · simp [layer, replaces]
    unfold renderEnv renderEnvBase Layer.apply
    rw [if_neg inherits, ← base]
    cases overlay with
    | none => rfl
    | some overlay => exact lookup_renderEntries overlay _

/-! Layers composed by the policy algebra, and the same layers applied in turn. -/

structure EnvPolicy where
  overlay : Option EnvOverlay := none
  mode : EnvMode := .overlay

def CuprumContext.envPolicy {v : Vocabulary} (self : CuprumContext v) : EnvPolicy :=
  ⟨self.envOverlay, self.envMode⟩

namespace EnvPolicy

def compose (parent child : EnvPolicy) : EnvPolicy :=
  let (overlay, mode) :=
    resolveEnvPolicy parent.overlay parent.mode child.overlay child.mode
  ⟨overlay, mode⟩

/-- Nested scopes, the outermost first, over a context of no policy. -/
def composeAll (layers : List EnvPolicy) : EnvPolicy := layers.foldl compose {}

def render (policy : EnvPolicy) (environ : Environ) : Option Environ :=
  renderEnv policy.overlay policy.mode environ

/-- What one layer does to an environment by itself: it may begin from an empty one, and
then sets and deletes the names of its entries. -/
def applied (policy : EnvPolicy) (environ : String → Option String) : String → Option String :=
  fun name =>
    match policy.overlay.bind (·.lookup name) with
    | some (.set value) => some value
    | some .unset => none
    | none => if policy.mode = .replace then none else environ name

def appliedAll (layers : List EnvPolicy) (environ : String → Option String) :
    String → Option String :=
  layers.foldl (fun reached policy => policy.applied reached) environ

theorem envPolicy_narrow {v : Vocabulary} (ctx : CuprumContext v) (config : ScopeConfig v) :
    (ctx.narrow config).envPolicy = ctx.envPolicy.compose ⟨config.envOverlay, config.envMode⟩ :=
  rfl

theorem envPolicy_withEnvOverlay {v : Vocabulary} (ctx : CuprumContext v)
    (overlay : Option EnvOverlay) (mode : EnvMode) :
    (ctx.withEnvOverlay overlay mode).envPolicy = ctx.envPolicy.compose ⟨overlay, mode⟩ :=
  rfl

/-- The policy of a context that scopes have narrowed is that of the scopes composed. -/
theorem envPolicy_foldl_narrow {v : Vocabulary} (configs : List (ScopeConfig v)) :
    (configs.foldl CuprumContext.narrow {}).envPolicy =
      composeAll (configs.map fun config => ⟨config.envOverlay, config.envMode⟩) := by
  have folded : ∀ ctx : CuprumContext v, (configs.foldl CuprumContext.narrow ctx).envPolicy =
      (configs.map fun config => EnvPolicy.mk config.envOverlay config.envMode).foldl compose
        ctx.envPolicy := by
    induction configs with
    | nil => exact fun _ => rfl
    | cons config configs induction => exact fun ctx => induction (ctx.narrow config)
  exact folded {}

def layer (policy : EnvPolicy) : Layer String String :=
  Context.layer policy.overlay policy.mode

theorem compose_of_replace {parent child : EnvPolicy} (replaces : child.mode = .replace) :
    parent.compose child = child := by
  unfold compose resolveEnvPolicy
  rw [if_pos replaces]
  cases child with
  | mk overlay mode =>
      obtain rfl : mode = .replace := replaces
      cases overlay <;> rfl

theorem compose_of_keep {parent child : EnvPolicy} (keeps : child.mode ≠ .replace) :
    parent.compose child = ⟨mergeEnvOverlays parent.overlay child.overlay, parent.mode⟩ := by
  unfold compose resolveEnvPolicy
  rw [if_neg keeps]

theorem compose_assoc (first second third : EnvPolicy) :
    (first.compose second).compose third = first.compose (second.compose third) := by
  by_cases last : third.mode = .replace
  · rw [compose_of_replace last, compose_of_replace last, compose_of_replace last]
  · rw [compose_of_keep last, compose_of_keep last]
    by_cases middle : second.mode = .replace
    · have inner := @compose_of_replace first
        ⟨mergeEnvOverlays second.overlay third.overlay, second.mode⟩ middle
      rw [inner, compose_of_replace middle]
    · have inner := @compose_of_keep first
        ⟨mergeEnvOverlays second.overlay third.overlay, second.mode⟩ middle
      rw [inner, compose_of_keep middle]
      exact congrArg (EnvPolicy.mk · first.mode) (mergeOverlays_assoc _ _ _)

theorem layer_compose (parent child : EnvPolicy) :
    (parent.compose child).layer = parent.layer.andThen child.layer := by
  by_cases replaces : child.mode = .replace
  · rw [compose_of_replace replaces]
    exact (Layer.andThen_of_fresh (by simp [layer, Context.layer, replaces])).symm
  · rw [compose_of_keep replaces, Layer.andThen_of_laid]
    · ext1
      · rfl
      · exact change_merge _ _
    · simp [layer, Context.layer, replaces]

theorem layer_composeAll (layers : List EnvPolicy) :
    (composeAll layers).layer = (layers.map layer).foldl Layer.andThen .identity := by
  have folded : ∀ below : EnvPolicy,
      (layers.foldl compose below).layer = (layers.map layer).foldl Layer.andThen below.layer := by
    induction layers with
    | nil => exact fun _ => rfl
    | cons policy layers induction =>
        intro below
        rw [List.foldl_cons, induction, layer_compose]
        rfl
  exact folded {}

theorem applied_eq (policy : EnvPolicy) (environ : String → Option String) :
    policy.applied environ = policy.layer.apply environ := by
  funext name
  unfold applied layer Context.layer Layer.apply Change.apply change
  dsimp only
  split
  next value held => simp [held, EnvOverlayValue.held]
  next held => simp [held, EnvOverlayValue.held]
  next absent =>
    rw [absent]
    by_cases replaces : policy.mode = .replace
    · simp [replaces]
    · simp [replaces]

theorem appliedAll_eq (layers : List EnvPolicy) (environ : String → Option String) :
    appliedAll layers environ = (composeAll layers).layer.apply environ := by
  rw [layer_composeAll, Layer.apply_foldl, List.foldl_map, Layer.apply_identity]
  unfold appliedAll
  congr
  funext reached policy
  exact policy.applied_eq reached

theorem layer_eq_identity_iff {policy : EnvPolicy} :
    policy.layer = .identity ↔ policy.mode ≠ .replace ∧ IsFalsy policy.overlay := by
  rw [← change_eq_silent_iff, Layer.ext_iff]
  simp [layer, Context.layer, Layer.identity]

/-- A result of `none` is that of layers of which none says anything. -/
theorem render_eq_none_iff (layers : List EnvPolicy) (environ : Environ) :
    (composeAll layers).render environ = none ↔
      ∀ policy ∈ layers, policy.mode ≠ .replace ∧ IsFalsy policy.overlay := by
  unfold render
  rw [renderEnv_eq_none_iff, ← layer_eq_identity_iff, layer_composeAll,
    Layer.foldl_eq_identity_iff]
  simp [layer_eq_identity_iff]

theorem lookup_single (name value : String) :
    (fun other => ((∅ : Environ).insert name value).lookup other) =
      Function.update (fun _ => none) name (some value) := by
  funext other
  by_cases same : other = name
  · subst same
    simp
  · simp [same]

/-- Only layers that say nothing leave every environment as it is. -/
theorem layer_eq_identity_of_unchanged {policy : EnvPolicy}
    (unchanged : ∀ environ : Environ,
      (policy.layer.apply fun name => environ.lookup name) = fun name => environ.lookup name) :
    policy.layer = .identity := by
  apply Layer.eq_identity_of_apply
  · exact unchanged ∅
  · intro name value
    have single := unchanged ((∅ : Environ).insert name value)
    rwa [lookup_single] at single

/-- Composing the layers and rendering the result gives the child the environment that
the layers applied in turn give it. The result is `none` when no layer replaces and none
has an entry, which is when no environment at all is changed by them. -/
theorem env_policies_compose (layers : List EnvPolicy) :
    (∀ environ : Environ,
      (fun name => (childEnviron ((composeAll layers).render environ) environ).lookup name) =
        appliedAll layers fun name => environ.lookup name) ∧
    (∀ environ, (composeAll layers).render environ = none ↔
      ∀ policy ∈ layers, policy.mode ≠ .replace ∧ IsFalsy policy.overlay) ∧
    (∀ environ, (composeAll layers).render environ = none ↔
      ∀ live : Environ, (appliedAll layers fun name => live.lookup name) =
        fun name => live.lookup name) ∧
    ∀ first second third : EnvPolicy,
      (first.compose second).compose third = first.compose (second.compose third) := by
  refine ⟨fun environ => ?_, render_eq_none_iff layers, fun environ => ?_, compose_assoc⟩
  · rw [appliedAll_eq]
    exact lookup_renderEnv _ _ environ
  · simp only [appliedAll_eq]
    unfold render
    rw [renderEnv_eq_none_iff, ← layer_eq_identity_iff]
    constructor
    · intro identity live
      rw [identity, Layer.apply_identity]
    · exact layer_eq_identity_of_unchanged

/-- A name that is not there to be unset leaves the environment as it is, and yet the
child is handed a copy of it. -/
theorem unset_copies_unchanged :
    appliedAll [⟨some ((∅ : EnvOverlay).insert "A" .unset), .overlay⟩]
        (fun name => (∅ : Environ).lookup name) = (fun name => (∅ : Environ).lookup name) ∧
      (composeAll [⟨some ((∅ : EnvOverlay).insert "A" .unset), .overlay⟩]).render ∅ =
        some ∅ := by
  constructor
  · funext name
    by_cases same : name = "A"
    · subst same
      simp [appliedAll, applied]
    · simp [appliedAll, applied, same]
  · rfl

end EnvPolicy

end Cuprum.Context
