import Cuprum.Wait4.Process

namespace Cuprum.Wait4

def State.attributes (state : State) :
    Option Int × Option Int × Option ChildResourceUsage :=
  (state.returncode, state.popenReturncode, state.resourceUsage)

def published (config : Config) (status : WaitStatus) (usage : Wait4Usage) :
    Option Int × Option Int × Option ChildResourceUsage :=
  (some (waitstatusToExitcode status), some (waitstatusToExitcode status),
    some (resourceUsageFromWait4 config.linux usage))

def Assignment.before (status : WaitStatus) : Assignment →
    Option Int × Option Int × Option ChildResourceUsage
  | returncode => (none, none, none)
  | popenReturncode => (some (waitstatusToExitcode status), none, none)
  | resourceUsage =>
      (some (waitstatusToExitcode status), some (waitstatusToExitcode status), none)

/-- Outside a publication the attributes say what was collected. -/
def State.Agrees (config : Config) (state : State) : Prop :=
  match state.child with
  | .collected status usage => state.attributes = published config status usage
  | _ => state.attributes = (none, none, none)

def State.Midway (state : State) (next : Assignment) (status : WaitStatus)
    (usage : Wait4Usage) : Prop :=
  state.child = .collected status usage ∧ state.attributes = next.before status

def SenderStage.Guards (config : Config) (state : State) : SenderStage → Prop
  | publishing next status usage => state.Midway next status usage
  | asking _ | killing _ => state.Agrees config ∧ state.returncode = none
  | _ => state.Agrees config

def ReaperStage.Guards (config : Config) (state : State) : ReaperStage → Prop
  | publishing next status usage => state.Midway next status usage
  | attempting => state.Agrees config ∧ state.returncode = none
  | _ => state.Agrees config

def State.Guarded (config : Config) (state : State) : Prop :=
  match state.lock with
  | none => state.Agrees config
  | some .reaper => state.reaper.Guards config state
  | some (.sender call) => (state.senders call).Guards config state

/-- What the platform's route says of the reaper and the child: with a probe
nobody collects before the reaper has seen the child end, without one the reaper
only polls. -/
def ReaperStage.Route (probe : Bool) (child : Child) : ReaperStage → Prop
  | absent | observing => probe = true → child.isCollected = false
  | ready | collecting => probe = true ∧ ∃ status usage, child = .zombie status usage
  | polling | rechecking | attempting | leaving .again => probe = false
  | _ => True

structure History.Truthful (history : History) (child : Child) : Prop where
  kills : ∀ kill ∈ history.kills, kill.child.isCollected = false
  attempts : ∀ child ∈ history.attempts, child.isCollected = false
  once : history.attempts.countP Child.isZombie = if child.isCollected then 1 else 0
  decisions : ∀ decision ∈ history.decisions,
    decision.refused = true ↔ decision.collected = true ∨ decision.published = true
  observations : ∀ observation ∈ history.observations,
    (observation.returncode.isSome ↔ observation.resourceUsage.isSome) ↔
      observation.midway = false

structure Sound (config : Config) (state : State) : Prop where
  reaperHolds : state.reaper.holdsLock = true ↔ state.lock = some .reaper
  senderHolds : ∀ call,
    (state.senders call).holdsLock = true ↔ state.lock = some (.sender call)
  guarded : state.Guarded config
  route : state.reaper.Route config.nonReapingProbe state.child
  truthful : state.history.Truthful state.child

variable {config : Config} {state after : State} {call : Nat}

theorem State.Agrees.congr (agrees : state.Agrees config)
    (child : after.child = state.child)
    (attributes : after.attributes = state.attributes) : after.Agrees config := by
  unfold State.Agrees
  rw [child, attributes]
  exact agrees

theorem SenderStage.Guards.congr {stage : SenderStage}
    (guards : stage.Guards config state) (child : after.child = state.child)
    (attributes : after.attributes = state.attributes) : stage.Guards config after := by
  have returncode : after.returncode = state.returncode := congrArg Prod.fst attributes
  cases stage with
  | publishing next status usage =>
      exact ⟨child.trans guards.1, attributes.trans guards.2⟩
  | asking signal | killing signal =>
      exact ⟨State.Agrees.congr guards.1 child attributes, returncode.trans guards.2⟩
  | idle | entering signal | guarding signal | leaving ending | ended ending =>
      exact State.Agrees.congr guards child attributes

theorem ReaperStage.Guards.congr {stage : ReaperStage}
    (guards : stage.Guards config state) (child : after.child = state.child)
    (attributes : after.attributes = state.attributes) : stage.Guards config after := by
  have returncode : after.returncode = state.returncode := congrArg Prod.fst attributes
  cases stage with
  | publishing next status usage =>
      exact ⟨child.trans guards.1, attributes.trans guards.2⟩
  | attempting =>
      exact ⟨State.Agrees.congr guards.1 child attributes, returncode.trans guards.2⟩
  | absent | observing | ready | collecting | polling | rechecking | leaving ending
  | ended ending => exact State.Agrees.congr guards child attributes

theorem State.Agrees.notCollected (agrees : state.Agrees config)
    (unpublished : state.returncode = none) : state.child.isCollected = false := by
  unfold State.Agrees at agrees
  cases child : state.child with
  | running | zombie => rfl
  | collected status usage =>
      rw [child] at agrees
      cases unpublished.symm.trans (congrArg Prod.fst agrees)

theorem State.Agrees.collected (agrees : state.Agrees config)
    (isPublished : state.returncode.isSome = true) :
    state.child.isCollected = true := by
  unfold State.Agrees at agrees
  cases child : state.child with
  | running | zombie =>
      rw [child] at agrees
      have unpublished : state.returncode = none := congrArg Prod.fst agrees
      simp [unpublished] at isPublished
  | collected => rfl

theorem Sound.agrees_of_free (sound : Sound config state) (free : state.lock = none) :
    state.Agrees config := by
  have guarded := sound.guarded
  unfold State.Guarded at guarded
  rwa [free] at guarded

theorem Sound.senderGuards (sound : Sound config state)
    (held : state.lock = some (.sender call)) :
    (state.senders call).Guards config state := by
  have guarded := sound.guarded
  unfold State.Guarded at guarded
  rwa [held] at guarded

theorem Sound.reaperGuards (sound : Sound config state)
    (held : state.lock = some .reaper) : state.reaper.Guards config state := by
  have guarded := sound.guarded
  unfold State.Guarded at guarded
  rwa [held] at guarded

section Moves

theorem Sound.senderStays (sound : Sound config state) (after : State)
    (stage : SenderStage)
    (held : state.lock = some (.sender call)) (lock : after.lock = state.lock)
    (reaper : after.reaper = state.reaper)
    (senders : after.senders = Function.update state.senders call stage)
    (holds : stage.holdsLock = true) (guards : stage.Guards config after)
    (route : after.reaper.Route config.nonReapingProbe after.child)
    (truthful : after.history.Truthful after.child) : Sound config after := by
  have own : after.senders call = stage := by rw [senders, Function.update_self]
  refine ⟨?_, fun other => ?_, ?_, route, truthful⟩
  · rw [reaper, lock]
    exact sound.reaperHolds
  · rw [lock]
    rcases eq_or_ne other call with rfl | different
    · rw [own]
      exact ⟨fun _ => held, fun _ => holds⟩
    · rw [senders, Function.update_of_ne different]
      exact sound.senderHolds other
  · unfold State.Guarded
    rw [lock, held]
    simp only [own]
    exact guards

theorem Sound.reaperStays (sound : Sound config state) (after : State)
    (stage : ReaperStage)
    (held : state.lock = some .reaper) (lock : after.lock = state.lock)
    (reaper : after.reaper = stage) (senders : after.senders = state.senders)
    (holds : stage.holdsLock = true) (guards : stage.Guards config after)
    (route : stage.Route config.nonReapingProbe after.child)
    (truthful : after.history.Truthful after.child) : Sound config after := by
  refine ⟨?_, fun other => ?_, ?_, ?_, truthful⟩
  · rw [reaper, lock]
    exact ⟨fun _ => held, fun _ => holds⟩
  · rw [lock, senders]
    exact sound.senderHolds other
  · unfold State.Guarded
    rw [lock, held]
    simp only [reaper]
    exact guards
  · rwa [reaper]

theorem Sound.senderEnters {stage : SenderStage} (sound : Sound config state)
    (free : state.lock = none) (holds : stage.holdsLock = true)
    (guards : ∀ after : State, after.Agrees config → stage.Guards config after) :
    Sound config
      ({ state with lock := some (.sender call) }.setSender call stage) := by
  refine ⟨?_, fun other => ?_, ?_, sound.route, sound.truthful⟩
  · have outside := sound.reaperHolds.not.mpr (by simp [free])
    simp [State.setSender, outside]
  · rcases eq_or_ne other call with rfl | different
    · simp [State.setSender, holds]
    · have outside := (sound.senderHolds other).not.mpr (by simp [free])
      simp [State.setSender, different, outside, different.symm]
  · simp only [State.Guarded, State.setSender, Function.update_self]
    exact guards _ (sound.agrees_of_free free)

theorem Sound.senderLeaves {stage : SenderStage} (sound : Sound config state)
    (held : state.lock = some (.sender call)) (agrees : state.Agrees config)
    (outside : stage.holdsLock = false) :
    Sound config (state.release.setSender call stage) := by
  refine ⟨?_, fun other => ?_, agrees, sound.route, sound.truthful⟩
  · have absent := sound.reaperHolds.not.mpr (by simp [held])
    simp [State.setSender, State.release, absent]
  · rcases eq_or_ne other call with rfl | different
    · simp [State.setSender, State.release, outside]
    · have absent := (sound.senderHolds other).not.mpr (by simp [held, different.symm])
      simp [State.setSender, State.release, different, absent]

theorem Sound.senderOutside {stage : SenderStage} (sound : Sound config state)
    (before : (state.senders call).holdsLock = false)
    (outside : stage.holdsLock = false) :
    Sound config (state.setSender call stage) := by
  have other (holder : Nat) (held : state.lock = some (.sender holder)) :
      holder ≠ call := by
    rintro rfl
    simp [(sound.senderHolds holder).mpr held] at before
  refine ⟨sound.reaperHolds, fun holder => ?_, ?_, sound.route, sound.truthful⟩
  · rcases eq_or_ne holder call with rfl | different
    · have absent := sound.senderHolds holder
      simpa [State.setSender, outside, before] using absent
    · simpa [State.setSender, different] using sound.senderHolds holder
  · have guarded := sound.guarded
    unfold State.Guarded at guarded ⊢
    cases held : state.lock with
    | none =>
        rw [held] at guarded
        simp only [State.setSender, held]
        exact guarded
    | some thread =>
        rw [held] at guarded
        cases thread with
        | reaper =>
            simp only [State.setSender, held]
            exact ReaperStage.Guards.congr guarded rfl rfl
        | sender holder =>
            simp only [State.setSender, held, Function.update_of_ne (other holder held)]
            exact SenderStage.Guards.congr guarded rfl rfl

theorem Sound.reaperEnters {stage : ReaperStage} (sound : Sound config state)
    (free : state.lock = none) (holds : stage.holdsLock = true)
    (guards : ∀ after : State, after.Agrees config → stage.Guards config after)
    (route : stage.Route config.nonReapingProbe state.child) :
    Sound config ({ state with lock := some .reaper }.setReaper stage) := by
  refine ⟨?_, fun other => ?_, ?_, route, sound.truthful⟩
  · simp [State.setReaper, holds]
  · have outside := (sound.senderHolds other).not.mpr (by simp [free])
    simp [State.setReaper, outside]
  · exact guards _ (sound.agrees_of_free free)

theorem Sound.reaperLeaves {stage : ReaperStage} (sound : Sound config state)
    (held : state.lock = some .reaper) (agrees : state.Agrees config)
    (outside : stage.holdsLock = false)
    (route : stage.Route config.nonReapingProbe state.child) :
    Sound config (state.release.setReaper stage) := by
  refine ⟨?_, fun other => ?_, agrees, route, sound.truthful⟩
  · simp [State.setReaper, State.release, outside]
  · have absent := (sound.senderHolds other).not.mpr (by simp [held])
    simp [State.setReaper, State.release, absent]

theorem Sound.reaperOutside {stage : ReaperStage} (sound : Sound config state)
    (before : state.reaper.holdsLock = false) (outside : stage.holdsLock = false)
    (route : stage.Route config.nonReapingProbe state.child) :
    Sound config (state.setReaper stage) := by
  have absent := sound.reaperHolds
  rw [before] at absent
  refine ⟨?_, sound.senderHolds, ?_, route, sound.truthful⟩
  · simpa [State.setReaper, outside] using absent
  · have guarded := sound.guarded
    unfold State.Guarded at guarded ⊢
    cases held : state.lock with
    | none =>
        rw [held] at guarded
        simp only [State.setReaper, held]
        exact guarded
    | some thread =>
        rw [held] at guarded
        cases thread with
        | reaper => simp [held] at absent
        | sender holder =>
            simp only [State.setReaper, held]
            exact SenderStage.Guards.congr guarded rfl rfl

end Moves

end Cuprum.Wait4
