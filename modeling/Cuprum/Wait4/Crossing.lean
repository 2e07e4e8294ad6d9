import Cuprum.Wait4.Reaping

namespace Cuprum.Wait4

variable {config : Config} {state after : State}

theorem State.Agrees.together (agrees : state.Agrees config) :
    state.returncode.isSome ↔ state.resourceUsage.isSome := by
  unfold State.Agrees at agrees
  cases child : state.child with
  | running | zombie =>
      rw [child] at agrees
      simp only [State.attributes, Prod.mk.injEq] at agrees
      simp [agrees.1, agrees.2.2]
  | collected status usage =>
      rw [child] at agrees
      simp only [State.attributes, published, Prod.mk.injEq] at agrees
      simp [agrees.1, agrees.2.2]

theorem State.Midway.together_iff {next : Assignment} {status : WaitStatus}
    {usage : Wait4Usage} (midway : state.Midway next status usage) :
    (state.returncode.isSome ↔ state.resourceUsage.isSome) ↔ next = .returncode := by
  have attributes := midway.2
  cases next with
  | returncode | popenReturncode | resourceUsage =>
      simp only [State.attributes, Assignment.before, Prod.mk.injEq] at attributes
      simp [attributes.1, attributes.2.2]

/-- The two properties are both there or both missing exactly where no
publication stands between the first and the last of its assignments. -/
theorem Sound.together_iff (sound : Sound config state) :
    (state.returncode.isSome ↔ state.resourceUsage.isSome) ↔ state.midway = false := by
  unfold State.midway
  cases held : state.lock with
  | none => simpa using (sound.agrees_of_free held).together
  | some thread =>
      cases thread with
      | reaper =>
          have guards := sound.reaperGuards held
          cases stage : state.reaper with
          | publishing next status usage =>
              rw [stage] at guards
              simp only [State.Midway.together_iff guards]
              cases next <;> simp [ReaperStage.midway]
          | attempting =>
              rw [stage] at guards
              simpa [stage, ReaperStage.midway] using State.Agrees.together guards.1
          | absent | observing | ready | collecting | polling | rechecking | leaving
          | ended =>
              rw [stage] at guards
              simpa [stage, ReaperStage.midway] using State.Agrees.together guards
      | sender call =>
          have guards := sound.senderGuards held
          cases stage : state.senders call with
          | publishing next status usage =>
              rw [stage] at guards
              simp only [stage, State.Midway.together_iff guards]
              cases next <;> simp [SenderStage.midway]
          | asking | killing =>
              rw [stage] at guards
              simpa [stage, SenderStage.midway] using State.Agrees.together guards.1
          | idle | entering | guarding | leaving | ended =>
              rw [stage] at guards
              simpa [stage, SenderStage.midway] using State.Agrees.together guards

theorem Sound.next {event : Event} (sound : Sound config state)
    (step : next config state event = some after) : Sound config after := by
  cases event with
  | exit status usage =>
      simp only [Wait4.next] at step
      cases child : state.child with
      | running =>
          simp only [child, Option.some.injEq] at step
          subst step
          exact sound.exit child status usage
      | zombie | collected => simp [child] at step
  | send call signal =>
      simp only [Wait4.next] at step
      cases stage : state.senders call with
      | idle =>
          simp only [stage, Option.some.injEq] at step
          subst step
          exact sound.senderOutside (by rw [stage]; rfl) rfl
      | entering | guarding | asking | publishing | killing | leaving | ended =>
          simp [stage] at step
  | deliver call => exact sound.deliver step
  | kill call permitted => exact sound.kill step
  | reap => exact sound.reap step
  | observe =>
      cases step
      exact sound.logs (sound.truthful.observe sound.together_iff)

theorem reachable_sound (reachable : (system config).Reachable state) :
    Sound config state :=
  reachable.invariant Sound.initial Sound.next

/-- Whichever thread goes first at every step: no kill is issued after the wait
status was collected, `wait4` is never called for a collected child and so
collects at most once, a delivery is refused exactly when the exit was collected
or published, and a reader sees the return code and the resource usage together
exactly where it does not look between the assignments of a publication. -/
theorem signals_and_reaping_never_cross
    (reachable : (system config).Reachable state) :
    (∀ kill ∈ state.history.kills, kill.child.isCollected = false) ∧
      (∀ child ∈ state.history.attempts, child.isCollected = false) ∧
      state.history.attempts.countP Child.isZombie ≤ 1 ∧
      (∀ decision ∈ state.history.decisions,
        decision.refused = true ↔
          decision.collected = true ∨ decision.published = true) ∧
      (∀ observation ∈ state.history.observations,
        (observation.returncode.isSome ↔ observation.resourceUsage.isSome) ↔
          observation.midway = false) := by
  have truthful := (reachable_sound reachable).truthful
  refine ⟨truthful.kills, truthful.attempts, ?_, truthful.decisions,
    truthful.observations⟩
  rw [truthful.once]
  split <;> omega

def probing : Config := ⟨7, true, true⟩

def usage : Wait4Usage := ⟨2048, 30000, 4000⟩

/-- A signal reaches the live child, the child ends, and the reaper takes the lock
and collects it while another delivery waits for the lock. -/
def racingSteps : List Event :=
  [.reap, .send 0 15, .deliver 0, .deliver 0, .deliver 0, .kill 0 true, .deliver 0,
    .exit (.signaled 15) usage, .reap, .reap, .send 1 9, .reap, .reap, .observe]

def racing : State :=
  ((system probing).exec .initial racingSteps).getD .initial

theorem racing_reachable : (system probing).Reachable racing :=
  ⟨racingSteps, rfl⟩

theorem signals_and_reaping_never_cross_racing :
    racing.history.kills = [⟨0, 15, .running⟩] ∧
      (∀ kill ∈ racing.history.kills, kill.child.isCollected = false) :=
  ⟨rfl, (signals_and_reaping_never_cross racing_reachable).1⟩

/-- The reader polls `returncode` after the reaper assigned it and before it
assigned the resource usage. -/
theorem returncode_visible_before_usage :
    (system probing).Reachable racing ∧
      racing.history.observations = [⟨some (-15), none, true⟩] :=
  ⟨racing_reachable, rfl⟩

end Cuprum.Wait4
