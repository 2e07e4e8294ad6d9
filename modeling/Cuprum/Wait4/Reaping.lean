import Cuprum.Wait4.Settlement

namespace Cuprum.Wait4

variable {config : Config} {state after : State} {call : Nat}

theorem forall_mem_snoc {α : Type} {items : List α} {last : α} {property : α → Prop}
    (before : ∀ item ∈ items, property item) (holds : property last) :
    ∀ item ∈ items ++ [last], property item := by
  intro item member
  cases List.mem_append.mp member with
  | inl member => exact before item member
  | inr member =>
      obtain rfl := List.mem_singleton.mp member
      exact holds

namespace History.Truthful

variable {history : History} {child : Child} (truthful : history.Truthful child)
include truthful

theorem kill {kill : Kill} (uncollected : kill.child.isCollected = false) :
    History.Truthful { history with kills := history.kills ++ [kill] } child :=
  { truthful with kills := forall_mem_snoc truthful.kills uncollected }

theorem decide {decision : Decision}
    (right : decision.refused = true ↔
      decision.collected = true ∨ decision.published = true) :
    History.Truthful
      { history with decisions := history.decisions ++ [decision] } child :=
  { truthful with decisions := forall_mem_snoc truthful.decisions right }

theorem observe {observation : Observation}
    (right : (observation.returncode.isSome ↔ observation.resourceUsage.isSome) ↔
      observation.midway = false) :
    History.Truthful
      { history with observations := history.observations ++ [observation] } child :=
  { truthful with observations := forall_mem_snoc truthful.observations right }

end History.Truthful

theorem State.attempt_running (truthful : state.history.Truthful state.child)
    (running : state.child = .running) : state.attempt.history.Truthful state.child :=
  { truthful with
    attempts := forall_mem_snoc truthful.attempts (by rw [running]; rfl)
    once := by
      have before := truthful.once
      rw [running] at before
      simpa [State.attempt, running, Child.isZombie] using before }

theorem State.attempt_zombie {status : WaitStatus} {usage : Wait4Usage}
    (truthful : state.history.Truthful state.child)
    (zombie : state.child = .zombie status usage) :
    state.attempt.history.Truthful (.collected status usage) :=
  { truthful with
    attempts := forall_mem_snoc truthful.attempts (by rw [zombie]; rfl)
    once := by
      have before := truthful.once
      rw [zombie] at before
      simpa [State.attempt, zombie, Child.isZombie, Child.isCollected] using before }

theorem ReaperStage.Route.exit {probe : Bool} {stage : ReaperStage}
    (route : stage.Route probe .running) (status : WaitStatus) (usage : Wait4Usage) :
    stage.Route probe (.zombie status usage) := by
  cases stage with
  | ready | collecting => simp [ReaperStage.Route] at route
  | absent | observing => exact fun _ => rfl
  | polling | rechecking | attempting | publishing | ended => exact route
  | leaving ending => cases ending <;> exact route

theorem State.Agrees.exit (agrees : state.Agrees config)
    (running : state.child = .running) (status : WaitStatus) (usage : Wait4Usage) :
    State.Agrees config { state with child := .zombie status usage } := by
  unfold State.Agrees at agrees
  rw [running] at agrees
  exact agrees

theorem Sound.exit (sound : Sound config state) (running : state.child = .running)
    (status : WaitStatus) (usage : Wait4Usage) :
    Sound config { state with child := .zombie status usage } := by
  have route := sound.route
  rw [running] at route
  have truthful := sound.truthful
  rw [running] at truthful
  refine ⟨sound.reaperHolds, sound.senderHolds, ?_, route.exit status usage,
    { truthful with once := truthful.once }⟩
  have guarded := sound.guarded
  unfold State.Guarded at guarded ⊢
  cases held : state.lock with
  | none =>
      rw [held] at guarded
      exact State.Agrees.exit guarded running status usage
  | some thread =>
      rw [held] at guarded
      cases thread with
      | reaper =>
          simp only at guarded ⊢
          cases stage : state.reaper with
          | publishing next first used =>
              rw [stage] at guarded
              cases running.symm.trans guarded.1
          | attempting =>
              rw [stage] at guarded
              exact ⟨State.Agrees.exit guarded.1 running status usage, guarded.2⟩
          | absent | observing | ready | collecting | polling | rechecking
          | leaving | ended =>
              rw [stage] at guarded
              exact State.Agrees.exit guarded running status usage
      | sender call =>
          simp only at guarded ⊢
          cases stage : state.senders call with
          | publishing next first used =>
              rw [stage] at guarded
              cases running.symm.trans guarded.1
          | asking | killing =>
              rw [stage] at guarded
              exact ⟨State.Agrees.exit guarded.1 running status usage, guarded.2⟩
          | idle | entering | guarding | leaving | ended =>
              rw [stage] at guarded
              exact State.Agrees.exit guarded running status usage

theorem Sound.senderRefuses (sound : Sound config state)
    (held : state.lock = some (.sender call)) (agrees : state.Agrees config)
    (gone : state.child.isCollected = true) :
    Sound config (state.refuse call) := by
  apply sound.senderStays (state.refuse call) (.leaving .refused) held rfl rfl rfl rfl
  · exact agrees.congr rfl rfl
  · exact sound.route
  · exact sound.truthful.decide (by simp [gone])

theorem Sound.senderCleared (sound : Sound config state) (signal : Nat)
    (held : state.lock = some (.sender call)) (agrees : state.Agrees config)
    (unpublished : state.returncode = none) :
    Sound config (state.clear call signal) := by
  apply sound.senderStays (state.clear call signal) (.killing signal) held rfl rfl rfl rfl
  · exact ⟨agrees.congr rfl rfl, unpublished⟩
  · exact sound.route
  · apply sound.truthful.decide
    simp [unpublished, agrees.notCollected unpublished]

theorem ReaperStage.Route.collect {child after : Child} {stage : ReaperStage}
    (route : stage.Route false child) : stage.Route false after := by
  cases stage with
  | ready | collecting => simp [ReaperStage.Route] at route
  | absent | observing => exact fun wrong => by cases wrong
  | polling | rechecking | attempting | publishing | ended => exact route
  | leaving ending => cases ending <;> exact route

theorem State.Agrees.blank (agrees : state.Agrees config)
    (uncollected : state.child.isCollected = false) :
    state.attributes = (none, none, none) := by
  unfold State.Agrees at agrees
  cases child : state.child with
  | running | zombie =>
      rw [child] at agrees
      exact agrees
  | collected =>
      rw [child] at uncollected
      cases uncollected

theorem Sound.logs {history : History} (sound : Sound config state)
    (truthful : history.Truthful state.child) :
    Sound config { state with history := history } := by
  refine ⟨sound.reaperHolds, sound.senderHolds, ?_, sound.route, truthful⟩
  have guarded := sound.guarded
  unfold State.Guarded at guarded ⊢
  cases held : state.lock with
  | none =>
      rw [held] at guarded
      exact guarded
  | some thread =>
      rw [held] at guarded
      cases thread with
      | reaper => exact ReaperStage.Guards.congr guarded rfl rfl
      | sender call => exact SenderStage.Guards.congr guarded rfl rfl

theorem State.Agrees.midway (agrees : state.Agrees config)
    (uncollected : state.child.isCollected = false) (status : WaitStatus)
    (usage : Wait4Usage) :
    State.Midway { state.attempt with child := .collected status usage } .returncode
      status usage :=
  ⟨rfl, agrees.blank uncollected⟩

theorem Sound.ask (sound : Sound config state) (signal : Nat)
    (held : state.lock = some (.sender call)) (agrees : state.Agrees config)
    (unpublished : state.returncode = none) :
    Sound config (state.ask config call signal) := by
  have uncollected := agrees.notCollected unpublished
  cases probe : config.nonReapingProbe with
  | true =>
      simp only [State.ask, probe, uncollected, if_true, Bool.false_eq_true, if_false]
      exact sound.senderCleared signal held agrees unpublished
  | false =>
      cases child : state.child with
      | running =>
          simp only [State.ask, probe, Bool.false_eq_true, if_false,
            State.wait4_of_running config child]
          have tried := State.attempt_running sound.truthful child
          exact (sound.logs tried).senderCleared signal held (agrees.congr rfl rfl)
            unpublished
      | zombie status usage =>
          simp only [State.ask, probe, Bool.false_eq_true, if_false,
            State.wait4_of_zombie config child, if_true]
          have route := sound.route
          rw [probe] at route
          refine sound.senderStays _ (.publishing .returncode status usage) held rfl rfl rfl
            rfl (agrees.midway uncollected status usage) ?_
            (State.attempt_zombie sound.truthful child)
          rw [probe]
          exact route.collect
      | collected status usage =>
          rw [child] at uncollected
          cases uncollected

/-- What the attributes are once an assignment of a publication is done. -/
theorem State.Midway.assign {next : Assignment} {status : WaitStatus}
    {usage : Wait4Usage} (midway : state.Midway next status usage) :
    match state.assign config status usage next with
    | (after, some following) => after.Midway following status usage
    | (after, none) => after.Agrees config := by
  obtain ⟨child, attributes⟩ := midway
  cases next with
  | returncode =>
      refine ⟨child, ?_⟩
      simp only [State.attributes, Assignment.before, Prod.mk.injEq] at attributes ⊢
      exact ⟨trivial, attributes.2⟩
  | popenReturncode =>
      refine ⟨child, ?_⟩
      simp only [State.attributes, Assignment.before, Prod.mk.injEq] at attributes ⊢
      exact ⟨attributes.1, trivial, attributes.2.2⟩
  | resourceUsage =>
      simp only [State.assign, State.Agrees, child]
      simp only [State.attributes, Assignment.before, published, Prod.mk.injEq]
        at attributes ⊢
      exact ⟨attributes.1, attributes.2.1, trivial⟩

theorem Sound.deliver (sound : Sound config state)
    (step : state.deliver config call = some after) : Sound config after := by
  have holds := sound.senderHolds call
  unfold State.deliver at step
  cases stage : state.senders call with
  | idle => simp [stage] at step
  | entering signal =>
      simp only [stage, State.acquire] at step
      cases free : state.lock with
      | some thread => simp [free] at step
      | none =>
          simp only [free, Option.map_some, Option.some.injEq] at step
          subst step
          exact sound.senderEnters free rfl fun _ agrees => agrees
  | guarding signal =>
      rw [stage] at holds
      have held := holds.mp rfl
      have agrees := sound.senderGuards held
      rw [stage] at agrees
      simp only [stage] at step
      cases code : state.returncode with
      | some code' =>
          simp only [code, Option.isSome_some, if_true, Option.some.injEq] at step
          subst step
          apply sound.senderRefuses held agrees
          exact agrees.collected (by simp [code])
      | none =>
          simp only [code, Option.isSome_none, Bool.false_eq_true, if_false,
            Option.some.injEq] at step
          subst step
          exact sound.senderStays _ (.asking signal) held rfl rfl rfl rfl
            ⟨State.Agrees.congr agrees rfl rfl, code⟩ sound.route sound.truthful
  | asking signal =>
      rw [stage] at holds
      have held := holds.mp rfl
      have guards := sound.senderGuards held
      rw [stage] at guards
      simp only [stage, Option.some.injEq] at step
      subst step
      exact sound.ask signal held guards.1 guards.2
  | publishing next status usage =>
      rw [stage] at holds
      have held := holds.mp rfl
      have guards := sound.senderGuards held
      rw [stage] at guards
      have assigned := @State.Midway.assign config _ _ _ _ guards
      simp only [stage] at step
      cases next with
      | returncode | popenReturncode =>
          simp only [State.assign, Option.some.injEq] at step assigned
          subst step
          exact sound.senderStays _ (.publishing _ status usage) held rfl rfl rfl rfl
            assigned sound.route sound.truthful
      | resourceUsage =>
          simp only [State.assign, Option.some.injEq] at step assigned
          subst step
          have gone : state.child.isCollected = true := by simp [guards.1, Child.isCollected]
          exact sound.senderStays _ (.leaving .refused) held rfl rfl rfl rfl
            (assigned.congr rfl rfl) sound.route (sound.truthful.decide (by simp [gone]))
  | killing signal => simp [stage] at step
  | leaving ending =>
      rw [stage] at holds
      have held := holds.mp rfl
      have agrees := sound.senderGuards held
      rw [stage] at agrees
      simp only [stage, Option.some.injEq] at step
      subst step
      exact sound.senderLeaves held agrees rfl
  | ended ending => simp [stage] at step

theorem Sound.kill (sound : Sound config state) {permitted : Bool}
    (step : state.kill call permitted = some after) : Sound config after := by
  have holds := sound.senderHolds call
  unfold State.kill at step
  cases stage : state.senders call with
  | killing signal =>
      rw [stage] at holds
      have held := holds.mp rfl
      have guards := sound.senderGuards held
      rw [stage] at guards
      simp only [stage, Option.some.injEq] at step
      subst step
      have uncollected := State.Agrees.notCollected guards.1 guards.2
      refine sound.senderStays _ (.leaving _) held rfl rfl rfl rfl
        (State.Agrees.congr guards.1 rfl rfl) sound.route ?_
      exact sound.truthful.kill uncollected
  | idle | entering | guarding | asking | publishing | leaving | ended =>
      simp [stage] at step

theorem Sound.reaperCollects (sound : Sound config state)
    (held : state.lock = some .reaper) (agrees : state.Agrees config)
    (uncollected : state.child.isCollected = false)
    (route : state.child = .running → config.nonReapingProbe = false) :
    Sound config
      ((state.wait4 config).2.collected config (state.wait4 config).1) := by
  cases child : state.child with
  | running =>
      rw [State.wait4_of_running config child]
      exact sound.reaperStays _ (.leaving .again) held rfl rfl rfl rfl
        (agrees.congr rfl rfl) (route child)
        (State.attempt_running sound.truthful child)
  | zombie status usage =>
      rw [State.wait4_of_zombie config child]
      simp only [State.collected, if_true]
      exact sound.reaperStays _ (.publishing .returncode status usage) held rfl rfl rfl rfl
        (agrees.midway uncollected status usage) trivial
        (State.attempt_zombie sound.truthful child)
  | collected status usage =>
      rw [child] at uncollected
      cases uncollected

theorem Sound.reap (sound : Sound config state)
    (step : state.reap config = some after) : Sound config after := by
  have holds := sound.reaperHolds
  have route := sound.route
  unfold State.reap at step
  cases stage : state.reaper with
  | absent =>
      rw [stage] at route
      simp only [stage, Option.some.injEq] at step
      subst step
      exact sound.reaperOutside (by rw [stage]; rfl) rfl route
  | observing =>
      rw [stage] at route
      simp only [stage] at step
      cases probe : config.nonReapingProbe with
      | false =>
          simp only [probe, Bool.false_eq_true, if_false, Option.some.injEq] at step
          subst step
          exact sound.reaperOutside (by rw [stage]; rfl) rfl probe
      | true =>
          simp only [probe, if_true] at step
          cases child : state.child with
          | running => simp [child] at step
          | zombie status usage =>
              simp only [child, Option.some.injEq] at step
              subst step
              exact sound.reaperOutside (by rw [stage]; rfl) rfl ⟨probe, _, _, child⟩
          | collected status usage =>
              have uncollected := route probe
              rw [child] at uncollected
              cases uncollected
  | ready =>
      rw [stage] at route
      simp only [stage, State.acquire] at step
      cases free : state.lock with
      | some thread => simp [free] at step
      | none =>
          simp only [free, Option.map_some, Option.some.injEq] at step
          subst step
          exact sound.reaperEnters free rfl (fun _ agrees => agrees) route
  | collecting =>
      rw [stage] at route holds
      have held := holds.mp rfl
      have agrees := sound.reaperGuards held
      rw [stage] at agrees
      obtain ⟨probe, status, usage, child⟩ := route
      simp only [stage, child, Option.some.injEq] at step
      subst step
      apply sound.reaperCollects held agrees
      · rw [child]
        rfl
      · intro running
        cases running.symm.trans child
  | polling =>
      rw [stage] at route
      simp only [stage, State.acquire] at step
      cases free : state.lock with
      | some thread => simp [free] at step
      | none =>
          simp only [free, Option.map_some, Option.some.injEq] at step
          subst step
          exact sound.reaperEnters free rfl (fun _ agrees => agrees) route
  | rechecking =>
      rw [stage] at route holds
      have held := holds.mp rfl
      have agrees := sound.reaperGuards held
      rw [stage] at agrees
      simp only [stage] at step
      cases code : state.returncode with
      | some code' =>
          simp only [code, Option.some.injEq] at step
          subst step
          exact sound.reaperStays _ (.leaving (.reaped code')) held rfl rfl rfl rfl
            (State.Agrees.congr agrees rfl rfl) trivial sound.truthful
      | none =>
          simp only [code, Option.some.injEq] at step
          subst step
          exact sound.reaperStays _ .attempting held rfl rfl rfl rfl
            ⟨State.Agrees.congr agrees rfl rfl, code⟩ route sound.truthful
  | attempting =>
      rw [stage] at route holds
      have held := holds.mp rfl
      have guards := sound.reaperGuards held
      rw [stage] at guards
      simp only [stage, Option.some.injEq] at step
      subst step
      apply sound.reaperCollects held guards.1
      · exact State.Agrees.notCollected guards.1 guards.2
      · exact fun _ => route
  | publishing next status usage =>
      rw [stage] at holds
      have held := holds.mp rfl
      have guards := sound.reaperGuards held
      rw [stage] at guards
      have assigned := @State.Midway.assign config _ _ _ _ guards
      simp only [stage] at step
      cases next with
      | returncode | popenReturncode =>
          simp only [State.assign, Option.some.injEq] at step assigned
          subst step
          exact sound.reaperStays _ (.publishing _ status usage) held rfl rfl rfl rfl
            assigned trivial sound.truthful
      | resourceUsage =>
          simp only [State.assign, Option.some.injEq] at step assigned
          subst step
          exact sound.reaperStays _ (.leaving (.reaped _)) held rfl rfl rfl rfl
            (assigned.congr rfl rfl) trivial sound.truthful
  | leaving ending =>
      rw [stage] at route holds
      have held := holds.mp rfl
      have agrees := sound.reaperGuards held
      rw [stage] at agrees
      cases ending with
      | again =>
          simp only [stage, Option.some.injEq] at step
          subst step
          exact sound.reaperLeaves held agrees rfl route
      | reaped | childProcessError | invariantError =>
          simp only [stage, Option.some.injEq] at step
          subst step
          exact sound.reaperLeaves held agrees rfl trivial
  | ended ending => simp [stage] at step

theorem Sound.initial : Sound config .initial :=
  { reaperHolds := by simp [State.initial, ReaperStage.holdsLock]
    senderHolds := by simp [State.initial, SenderStage.holdsLock]
    guarded := rfl
    route := fun _ => rfl
    truthful :=
      { kills := by simp [State.initial]
        attempts := by simp [State.initial]
        once := rfl
        decisions := by simp [State.initial]
        observations := by simp [State.initial] } }

end Cuprum.Wait4
