import Cuprum.Drain.Loop

namespace Cuprum.Drain

open Effect Echo
open BoundedEcho (EchoErrorCategory EchoEvent)

/-! A failing sink disables its echo once. -/

def disables : EchoErrorCategory → Bool
  | .unicodeEncode | .brokenPipe => true
  | .truncated | .dropped => false

/-- What a failure of the sink is recovered as. -/
def EchoConfig.recovery (config : EchoConfig) : Raised → Option EchoErrorCategory
  | .unicodeEncode => some .unicodeEncode
  | .brokenPipe => if config.bestEffort then some .brokenPipe else none
  | _ => none

theorem disables_recovery {config : EchoConfig} {error : Raised}
    {category : EchoErrorCategory} (recovered : config.recovery error = some category) :
    disables category = true := by
  cases error with
  | unicodeEncode =>
      cases recovered
      rfl
  | brokenPipe =>
      rw [EchoConfig.recovery] at recovered
      split at recovered
      · cases recovered
        rfl
      · contradiction
  | cancelled | unicodeDecode | other => contradiction

/-- The sink has accepted every call before the last. -/
def AcceptedBefore (config : EchoConfig) (calls : List SinkCall) : Prop :=
  ∀ attempted, attempted <+: calls → attempted ≠ [] → attempted ≠ calls →
    config.sink attempted = none

def Accepted (config : EchoConfig) (calls : List SinkCall) : Prop :=
  ∀ attempted, attempted <+: calls → attempted ≠ [] → config.sink attempted = none

def disablements (state : EchoState config) : List EchoErrorCategory :=
  state.fallbacks.filter disables

def disablingEvents (state : EchoState config) : List EchoEvent :=
  state.events.filter fun event => disables event.errorCategory

variable {config : EchoConfig}

/-- An echo that goes on. -/
structure Enabled (state : EchoState config) : Prop where
  enabled : state.disabled = false
  accepted : Accepted config state.calls
  disablements : disablements state = []
  events : disablingEvents state = []

/-- An echo after the failure of its last call. -/
structure Disabled (state : EchoState config) : Prop where
  disabled : state.disabled = true
  accepted : AcceptedBefore config state.calls
  refused : ∃ error category, state.calls ≠ [] ∧ config.sink state.calls = some error ∧
    config.recovery error = some category ∧ disablements state = [category] ∧
    disablingEvents state = [⟨category, none⟩]

def Running (state : EchoState config) : Prop :=
  Enabled state ∨ Disabled state

/-- An echo that raised: its last call at most has failed, and not recoverably. -/
structure Broken (state : EchoState config) : Prop where
  accepted : AcceptedBefore config state.calls
  unrecovered : ∀ error, state.calls ≠ [] → config.sink state.calls = some error →
    config.recovery error = none

/-- An echo whose call has just failed. -/
structure Refused (error : Raised) (state : EchoState config) : Prop where
  enabled : state.disabled = false
  accepted : AcceptedBefore config state.calls
  refused : config.sink state.calls = some error
  called : state.calls ≠ []
  disablements : disablements state = []
  events : disablingEvents state = []

theorem Accepted.concat {calls : List SinkCall} (accepted : Accepted config calls)
    (call : SinkCall) : AcceptedBefore config (calls ++ [call]) := by
  intro attempted started nonempty unfinished
  rcases List.prefix_concat_iff.mp started with whole | earlier
  · exact absurd whole unfinished
  · exact accepted attempted earlier nonempty

namespace Enabled

variable {state : EchoState config}

theorem broken (enabled : Enabled state) : Broken state where
  accepted attempted started nonempty _ := enabled.accepted attempted started nonempty
  unrecovered error called refused := by
    have accepted := enabled.accepted state.calls (List.prefix_refl _) called
    rw [refused] at accepted
    contradiction

theorem initial (config : EchoConfig) : Enabled (EchoState.initial config) where
  enabled := rfl
  accepted _ started nonempty := absurd (List.prefix_nil.mp started) nonempty
  disablements := rfl
  events := rfl

end Enabled

theorem Enabled.reports {state : EchoState config} (enabled : Enabled state)
    {event : EchoEvent} (harmless : disables event.errorCategory = false) :
    Enabled { state with events := state.events ++ [event] } where
  enabled := enabled.enabled
  accepted := enabled.accepted
  disablements := enabled.disablements
  events := by
    change List.filter _ (state.events ++ [event]) = []
    rw [List.filter_append, List.filter_cons_of_neg (by simp [harmless]), List.filter_nil,
      List.append_nil]
    exact enabled.events

theorem Refused.disabled {error : Raised} {state : EchoState config}
    (refused : Refused error state) {category : EchoErrorCategory}
    (recovered : config.recovery error = some category) :
    Disabled { state with
      disabled := true
      fallbacks := state.fallbacks ++ [category]
      events := state.events ++ [⟨category, none⟩] } where
  disabled := rfl
  accepted := refused.accepted
  refused := by
    have disabling := disables_recovery recovered
    refine ⟨error, category, refused.called, refused.refused, recovered, ?_, ?_⟩
    · change List.filter disables (state.fallbacks ++ [category]) = [category]
      rw [List.filter_append, List.filter_cons_of_pos disabling, List.filter_nil]
      exact congrArg (· ++ [category]) refused.disablements
    · change List.filter _ (state.events ++ [⟨category, none⟩]) = [⟨category, none⟩]
      have last : [(⟨category, none⟩ : EchoEvent)].filter
          (fun event => disables event.errorCategory) = [⟨category, none⟩] :=
        List.filter_cons_of_pos disabling
      rw [List.filter_append, last]
      exact congrArg (· ++ [⟨category, none⟩]) refused.events

theorem Refused.broken {error : Raised} {state : EchoState config}
    (refused : Refused error state) (unrecovered : config.recovery error = none) :
    Broken state where
  accepted := refused.accepted
  unrecovered other called answers := by
    cases refused.refused.symm.trans answers
    exact unrecovered

theorem Running.limited {state : EchoState config} (running : Running state)
    (limiter : EchoLineLimiter) : Running { state with limiter } :=
  running.imp
    (fun enabled => ⟨enabled.enabled, enabled.accepted, enabled.disablements, enabled.events⟩)
    fun disabled => ⟨disabled.disabled, disabled.accepted, disabled.refused⟩

theorem Enabled.running {state : EchoState config} (enabled : Enabled state) : Running state :=
  .inl enabled

/-- What an echo does to a running state: it goes on, or it raises broken. -/
def Keeps (program : EchoStep config Unit) : Prop :=
  ∀ state, Running state →
    Ends program (fun _ after => Running after) (fun _ after => Broken after) state

/-- A recoverable failure of the sink has been the last call, and its only one. -/
theorem Running.disabled {state : EchoState config} (running : Running state)
    {attempted : List SinkCall} (made : attempted <+: state.calls) (called : attempted ≠ [])
    {error : Raised} (refused : config.sink attempted = some error) :
    Disabled state ∧ attempted = state.calls := by
  rcases running with enabled | disabled
  · have accepted := enabled.accepted attempted made called
    rw [refused] at accepted
    contradiction
  · refine ⟨disabled, ?_⟩
    by_contra unfinished
    have accepted := disabled.accepted attempted made called unfinished
    rw [refused] at accepted
    contradiction

end Cuprum.Drain
