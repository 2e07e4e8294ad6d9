import Cuprum.ContextVar.Variable
import Cuprum.Transition.System
import Mathlib.Data.List.Nodup

namespace Cuprum.Context

open ContextVar Transition

/-! Hooks are known by identity here: two objects that compare equal are two hooks. -/

variable {Hook : Type}

structure IdentityRegistration (Hook : Type) where
  hook : Hook
  detached : Bool

/-- A channel of hooks and the handles of its registrations, in the order they came. -/
structure HookChannel (Hook : Type) where
  hookVar : Variable (List Hook)
  registrations : List (IdentityRegistration Hook)

namespace HookChannel

def initial : HookChannel Hook := ⟨.initial [], []⟩

def hooks (self : HookChannel Hook) (context : Nat) : List Hook :=
  self.hookVar.get context

def setHooks (self : HookChannel Hook) (context : Nat) (hooks : List Hook) :
    HookChannel Hook :=
  { self with hookVar := (self.hookVar.set context hooks).2 }

def register (self : HookChannel Hook) (context : Nat) (hook : Hook) : HookChannel Hook :=
  let appended := self.setHooks context (self.hooks context ++ [hook])
  { appended with registrations := self.registrations ++ [⟨hook, false⟩] }

/-- The hooks of the registrations not yet detached, in registration order. -/
def liveHooks (self : HookChannel Hook) : List Hook :=
  (self.registrations.filter fun registration => !registration.detached).map (·.hook)

def registeredHooks (self : HookChannel Hook) : List Hook :=
  self.registrations.map (·.hook)

@[simp] theorem hooks_setHooks (self : HookChannel Hook) (context : Nat) (hooks : List Hook) :
    (self.setHooks context hooks).hooks context = hooks :=
  Variable.get_set ..

theorem hooks_register (self : HookChannel Hook) (context : Nat) (hook : Hook) :
    (self.register context hook).hooks context = self.hooks context ++ [hook] :=
  self.hooks_setHooks context _

theorem liveHooks_register (self : HookChannel Hook) (context : Nat) (hook : Hook) :
    (self.register context hook).liveHooks = self.liveHooks ++ [hook] := by
  simp [register, liveHooks]

theorem registeredHooks_register (self : HookChannel Hook) (context : Nat) (hook : Hook) :
    (self.register context hook).registeredHooks = self.registeredHooks ++ [hook] := by
  simp [register, registeredHooks]

theorem liveHooks_sublist (self : HookChannel Hook) :
    self.liveHooks.Sublist self.registeredHooks :=
  List.filter_sublist.map _

end HookChannel

variable [DecidableEq Hook]

/-- The scan runs from the end, and stops at the first entry that is the target. -/
def withoutIdentity (hooks : List Hook) (target : Hook) : List Hook :=
  (hooks.reverse.erase target).reverse

theorem withoutIdentity_of_mem {hooks : List Hook} {target : Hook} (member : target ∈ hooks) :
    ∃ front back, hooks = front ++ target :: back ∧ target ∉ back ∧
      withoutIdentity hooks target = front ++ back := by
  obtain ⟨back, front, absent, split, erased⟩ :=
    List.exists_erase_eq (List.mem_reverse.mpr member)
  refine ⟨front.reverse, back.reverse, ?_, by simpa using absent, ?_⟩
  · rw [← List.reverse_reverse hooks, split]
    simp
  · unfold withoutIdentity
    rw [erased, List.reverse_append]

namespace HookChannel

def release (self : HookChannel Hook) (context : Nat)
    (registration : IdentityRegistration Hook) : HookChannel Hook :=
  self.setHooks context (withoutIdentity (self.hooks context) registration.hook)

/-- Release the registration, exactly once. -/
def detach (self : HookChannel Hook) (context handle : Nat) : HookChannel Hook :=
  match self.registrations[handle]? with
  | none => self
  | some registration =>
      if registration.detached then self
      else
        let released := self.release context registration
        { released with
          registrations := released.registrations.set handle
            { registration with detached := true } }

theorem detach_detached {self : HookChannel Hook} {context handle : Nat}
    {registration : IdentityRegistration Hook}
    (found : self.registrations[handle]? = some registration)
    (detached : registration.detached = true) : self.detach context handle = self := by
  unfold detach
  rw [found]
  exact if_pos detached

section Detach

variable {self : HookChannel Hook} {context handle : Nat}
  {registration : IdentityRegistration Hook}
  (found : self.registrations[handle]? = some registration)
  (attached : registration.detached = false)

include found attached

theorem detach_attached : self.detach context handle =
    { self.release context registration with
      registrations := self.registrations.set handle
        { registration with detached := true } } := by
  unfold detach
  simp only [found, attached, Bool.false_eq_true, if_false]
  rfl

theorem hooks_detach : (self.detach context handle).hooks context =
    withoutIdentity (self.hooks context) registration.hook := by
  rw [detach_attached found attached]
  exact self.hooks_setHooks context _

theorem registrations_detach : ∃ front back,
    self.registrations = front ++ registration :: back ∧
      (self.detach context handle).registrations =
        front ++ { registration with detached := true } :: back := by
  obtain ⟨inside, same⟩ := List.getElem?_eq_some_iff.mp found
  refine ⟨self.registrations.take handle, self.registrations.drop (handle + 1), ?_, ?_⟩
  · rw [← same, List.getElem_cons_drop, List.take_append_drop]
  · rw [detach_attached found attached]
    exact List.set_eq_take_append_cons_drop.trans (if_pos inside)

/-- Only the one registration is gone from those that live. -/
theorem liveHooks_detach : ∃ front back, self.liveHooks = front ++ registration.hook :: back ∧
    (self.detach context handle).liveHooks = front ++ back := by
  obtain ⟨front, back, before, after⟩ := @registrations_detach _ _ _ context _ _ found attached
  refine ⟨(front.filter fun registration => !registration.detached).map (·.hook),
    (back.filter fun registration => !registration.detached).map (·.hook), ?_, ?_⟩
  · unfold liveHooks
    rw [before]
    simp [attached]
  · unfold liveHooks
    rw [after]
    simp

theorem registeredHooks_detach :
    (self.detach context handle).registeredHooks = self.registeredHooks := by
  obtain ⟨front, back, before, after⟩ := @registrations_detach _ _ _ context _ _ found attached
  unfold registeredHooks
  rw [before, after]
  simp

end Detach

end HookChannel

/-- What is done to the channel in its logical context. -/
inductive ChannelEvent (Hook : Type)
  | register (hook : Hook)
  | detach (handle : Nat)
  deriving DecidableEq

def hookChannel (context : Nat) : System (HookChannel Hook) (ChannelEvent Hook) where
  initial := .initial
  next channel event :=
    match event with
    | .register hook => some (channel.register context hook)
    | .detach handle =>
        if handle < channel.registrations.length then some (channel.detach context handle)
        else none

/-- A step registers a hook, detaches a registration, or finds it detached already. -/
theorem hookChannel_next {context : Nat} {channel after : HookChannel Hook}
    {event : ChannelEvent Hook} (step : (hookChannel context).next channel event = some after) :
    (∃ hook, event = .register hook ∧ after = channel.register context hook) ∨
      (∃ handle registration, event = .detach handle ∧
        channel.registrations[handle]? = some registration ∧
          registration.detached = false ∧ after = channel.detach context handle) ∨
        after = channel := by
  cases event with
  | register hook => exact .inl ⟨hook, rfl, (Option.some.inj step).symm⟩
  | detach handle =>
      simp only [hookChannel] at step
      split at step
      next inside =>
        cases step
        have found := List.getElem?_eq_getElem inside
        cases detached : channel.registrations[handle].detached with
        | true => exact .inr (.inr (HookChannel.detach_detached found detached))
        | false => exact .inr (.inl ⟨handle, _, rfl, found, detached, rfl⟩)
      next => cases step

/-- The hooks are those of the registrations not yet detached, each as often. -/
def Kept (context : Nat) (channel : HookChannel Hook) : Prop :=
  (channel.hooks context).Perm channel.liveHooks

omit [DecidableEq Hook] in
theorem Kept.initial (context : Nat) : Kept context (HookChannel.initial : HookChannel Hook) :=
  List.Perm.refl []

theorem Kept.next {context : Nat} {channel after : HookChannel Hook}
    {event : ChannelEvent Hook} (kept : Kept context channel)
    (step : (hookChannel context).next channel event = some after) : Kept context after := by
  obtain ⟨hook, rfl, rfl⟩ | ⟨handle, registration, rfl, found, attached, rfl⟩ | rfl :=
    hookChannel_next step
  · unfold Kept
    rw [HookChannel.hooks_register, HookChannel.liveHooks_register]
    exact List.Perm.append_right [hook] kept
  · obtain ⟨front, back, before, after⟩ :=
      @HookChannel.liveHooks_detach _ _ _ context _ _ found attached
    unfold Kept at kept ⊢
    rw [before] at kept
    have member : registration.hook ∈ channel.hooks context := kept.symm.subset (by simp)
    obtain ⟨first, last, split, _, removed⟩ := withoutIdentity_of_mem member
    rw [HookChannel.hooks_detach found attached, removed, after]
    rw [split] at kept
    exact (List.perm_middle.symm.trans (kept.trans List.perm_middle)).cons_inv
  · exact kept

theorem kept_of_exec {context : Nat} {channel : HookChannel Hook}
    {events : List (ChannelEvent Hook)}
    (runs : (hookChannel context).exec .initial events = some channel) : Kept context channel :=
  (hookChannel context).exec_invariant Kept.next (Kept.initial context) runs

/-! Hooks that are registered once keep the order of their registrations, whatever else
the channel holds. -/

theorem erase_middle {front back : List Hook} {hook : Hook}
    (distinct : (front ++ hook :: back).Nodup) :
    (front ++ hook :: back).erase hook = front ++ back := by
  have absent : hook ∉ front := by
    intro member
    exact (List.nodup_append.mp distinct).2.2 hook member hook (by simp) rfl
  rw [List.erase_append_right _ absent, List.erase_cons_head]

def Ordered (context : Nat) (once : Hook → Bool) (channel : HookChannel Hook) : Prop :=
  (channel.registeredHooks.filter once).Nodup →
    (channel.hooks context).filter once = channel.liveHooks.filter once

theorem Ordered.next {context : Nat} {once : Hook → Bool} {channel after : HookChannel Hook}
    {event : ChannelEvent Hook} (ordered : Ordered context once channel)
    (kept : Kept context channel)
    (step : (hookChannel context).next channel event = some after) :
    Ordered context once after := by
  intro distinct
  obtain ⟨hook, rfl, rfl⟩ | ⟨handle, registration, rfl, found, attached, rfl⟩ | rfl :=
    hookChannel_next step
  · rw [HookChannel.registeredHooks_register, List.filter_append] at distinct
    rw [HookChannel.hooks_register, HookChannel.liveHooks_register, List.filter_append,
      List.filter_append, ordered (List.nodup_append.mp distinct).1]
  · rw [HookChannel.registeredHooks_detach found attached] at distinct
    have same := ordered distinct
    have live : (channel.liveHooks.filter once).Nodup :=
      distinct.sublist (channel.liveHooks_sublist.filter once)
    obtain ⟨front, back, before, after⟩ :=
      @HookChannel.liveHooks_detach _ _ _ context _ _ found attached
    have member : registration.hook ∈ channel.hooks context :=
      kept.symm.subset (by rw [before]; simp)
    obtain ⟨first, last, split, _, removed⟩ := withoutIdentity_of_mem member
    rw [HookChannel.hooks_detach found attached, removed, after]
    rw [before] at same live
    rw [split] at same
    simp only [List.filter_append, List.filter_cons] at same live ⊢
    cases chosen : once registration.hook with
    | false => simpa [chosen] using same
    | true =>
        simp only [chosen, if_true] at same live
        rw [← erase_middle live, ← same]
        exact (erase_middle (same ▸ live)).symm
  · exact ordered distinct

theorem ordered_of_exec {context : Nat} {channel : HookChannel Hook}
    {events : List (ChannelEvent Hook)} (once : Hook → Bool)
    (runs : (hookChannel context).exec .initial events = some channel) :
    Ordered context once channel :=
  (@System.exec_invariant _ _ (hookChannel context)
    (fun channel => Kept context channel ∧ Ordered context once channel)
    (fun both step => ⟨both.1.next step, both.2.next both.1 step⟩) _ _ _
    ⟨Kept.initial context, fun _ => rfl⟩ runs).2

/-! No hook comes back but by being registered. -/

theorem count_next_le {context : Nat} {channel after : HookChannel Hook}
    {event : ChannelEvent Hook} {hook : Hook} (other : event ≠ .register hook)
    (step : (hookChannel context).next channel event = some after) :
    (after.hooks context).count hook ≤ (channel.hooks context).count hook := by
  obtain ⟨added, rfl, rfl⟩ | ⟨handle, registration, rfl, found, attached, rfl⟩ | rfl :=
    hookChannel_next step
  · have differ : added ≠ hook := fun same => other (congrArg _ same)
    rw [HookChannel.hooks_register, List.count_append, List.count_singleton]
    simp [differ]
  · rw [HookChannel.hooks_detach found attached]
    unfold withoutIdentity
    rw [List.count_reverse, ← List.count_reverse (l := channel.hooks context)]
    exact List.erase_sublist.count_le hook
  · exact Nat.le_refl _

theorem count_exec_le {context : Nat} {channel after : HookChannel Hook}
    {events : List (ChannelEvent Hook)} {hook : Hook}
    (others : ∀ event ∈ events, event ≠ .register hook)
    (runs : (hookChannel context).exec channel events = some after) :
    (after.hooks context).count hook ≤ (channel.hooks context).count hook := by
  induction events generalizing channel with
  | nil =>
      cases runs
      exact Nat.le_refl _
  | cons event events induction =>
      obtain ⟨other, others⟩ := List.forall_mem_cons.mp others
      rw [System.exec_cons, Option.bind_eq_some_iff] at runs
      obtain ⟨middle, step, rest⟩ := runs
      exact Nat.le_trans (induction others rest) (count_next_le other step)

/-- A detach of an attached registration takes out the last entry of its hook and leaves
the others as they are; any other detach leaves the channel as it is. -/
structure Detaches (context handle : Nat) (channel : HookChannel Hook)
    (registration : IdentityRegistration Hook) : Prop where
  again : registration.detached = true → channel.detach context handle = channel
  once : registration.detached = false → ∃ front back,
    channel.hooks context = front ++ registration.hook :: back ∧ registration.hook ∉ back ∧
      (channel.detach context handle).hooks context = front ++ back

/-- After any registrations and detaches the channel holds each hook as often as it has
registrations not yet detached; a detach takes out one entry; a hook does not come back
but by being registered; and the hooks registered once stand in registration order. -/
theorem identity_registrations_keep_live_hooks {context : Nat}
    {events : List (ChannelEvent Hook)} {channel : HookChannel Hook}
    (runs : (hookChannel context).exec .initial events = some channel) :
    (∀ hook, (channel.hooks context).count hook = channel.liveHooks.count hook) ∧
    (∀ handle registration, channel.registrations[handle]? = some registration →
      Detaches context handle channel registration) ∧
    (∀ hook later after, (∀ event ∈ later, event ≠ .register hook) →
      (hookChannel context).exec channel later = some after →
        (after.hooks context).count hook ≤ (channel.hooks context).count hook) ∧
    ((channel.hooks context).filter fun hook => channel.registeredHooks.count hook ≤ 1) =
      channel.liveHooks.filter fun hook => channel.registeredHooks.count hook ≤ 1 := by
  have kept := kept_of_exec runs
  refine ⟨kept.count_eq, fun handle registration found => ⟨?_, ?_⟩, ?_, ?_⟩
  · exact HookChannel.detach_detached found
  · intro attached
    obtain ⟨front, back, before, _⟩ :=
      @HookChannel.liveHooks_detach _ _ _ context _ _ found attached
    have member : registration.hook ∈ channel.hooks context :=
      kept.symm.subset (by rw [before]; simp)
    obtain ⟨first, last, split, absent, removed⟩ := withoutIdentity_of_mem member
    exact ⟨first, last, split, absent,
      (HookChannel.hooks_detach found attached).trans removed⟩
  · exact fun hook later after others further => count_exec_le others further
  · apply ordered_of_exec _ runs
    apply List.nodup_iff_count_le_one.mpr
    intro hook
    by_cases chosen : channel.registeredHooks.count hook ≤ 1
    · exact Nat.le_trans (List.filter_sublist.count_le hook) chosen
    · rw [List.count_eq_zero_of_not_mem]
      · exact Nat.zero_le 1
      · simp [chosen]

/-- A hook registered twice around another, whose first handle is detached. -/
theorem identity_registrations_keep_live_hooks_out_of_order :
    ∃ channel : HookChannel Nat,
      (hookChannel 0).exec .initial [.register 1, .register 2, .register 1, .detach 0] =
          some channel ∧
        channel.hooks 0 = [1, 2] ∧
        ∀ hook, (channel.hooks 0).count hook = channel.liveHooks.count hook :=
  ⟨_, rfl, rfl, (@identity_registrations_keep_live_hooks _ _ 0
    [.register 1, .register 2, .register 1, .detach 0] _ rfl).1⟩

end Cuprum.Context
