import Cuprum.Idle.Schedule

namespace Cuprum.Idle

open Rounding Transition

variable {τ : Type} [LinearOrder τ]

def Report.moment? : Report τ → Option τ
  | .activity now => some now
  | .notified now _ _ => some now
  | .stopped => none

/-- Nothing has been reported that the clock has not come to. -/
structure Clocked (launched clock : τ) (reports : List (Report τ)) : Prop where
  begun : launched ≤ clock
  reported : ∀ report ∈ reports, ∀ moment ∈ report.moment?, moment ≤ clock

variable {launched clock now : τ} {reports : List (Report τ)}

namespace Clocked

theorem later (clocked : Clocked launched clock reports) (after : clock ≤ now) :
    Clocked launched now reports where
  begun := clocked.begun.trans after
  reported report member moment same := (clocked.reported report member moment same).trans after

theorem concat (clocked : Clocked launched clock reports) {report : Report τ}
    (reached : ∀ moment ∈ report.moment?, moment ≤ clock) :
    Clocked launched clock (reports ++ [report]) where
  begun := clocked.begun
  reported other member := by
    rcases List.mem_append.mp member with old | new
    · exact clocked.reported other old
    · rw [List.mem_singleton.mp new]
      exact reached

theorem lastActivity_le (clocked : Clocked launched clock reports) :
    lastActivity launched reports ≤ clock := by
  unfold lastActivity
  cases last : (reports.filterMap Report.activity?).getLast? with
  | none => exact clocked.begun
  | some moment =>
      obtain ⟨report, member, same⟩ := List.mem_filterMap.mp (List.mem_of_getLast? last)
      cases report with
      | activity read =>
          cases same
          exact clocked.reported _ member _ rfl
      | notified | stopped => contradiction

theorem emission_le (clocked : Clocked launched clock reports) {last : τ}
    (emitted : (emissions reports).getLast? = some last) : last ≤ clock := by
  obtain ⟨report, member, same⟩ := List.mem_filterMap.mp (List.mem_of_getLast? emitted)
  cases report with
  | notified read total idle =>
      cases same
      exact clocked.reported _ member _ rfl
  | activity | stopped => contradiction

end Clocked

theorem quietSince_activity (clocked : Clocked launched clock reports) (after : clock ≤ now) :
    quietSince launched (reports ++ [.activity now]) = now := by
  unfold quietSince
  rw [emissions_activity, lastActivity_activity]
  cases emitted : (emissions reports).getLast? with
  | none => rfl
  | some last => exact max_eq_left ((clocked.emission_le emitted).trans after)

theorem quietSince_notified {total idle : τ} (clocked : Clocked launched clock reports)
    (after : clock ≤ now) :
    quietSince launched (reports ++ [.notified now total idle]) = now := by
  unfold quietSince
  rw [emissions_notified, lastActivity_notified, List.getLast?_concat]
  exact max_eq_right (clocked.lastActivity_le.trans after)

@[simp] theorem quietSince_stopped :
    quietSince launched (reports ++ [.stopped]) = quietSince launched reports := by
  unfold quietSince
  rw [emissions_stopped, lastActivity_stopped]

theorem lastActivity_le_quietSince :
    lastActivity launched reports ≤ quietSince launched reports := by
  unfold quietSince
  cases (emissions reports).getLast? with
  | none => exact le_rfl
  | some last => exact le_max_left _ _

theorem emission_le_quietSince {last : τ} (emitted : (emissions reports).getLast? = some last) :
    last ≤ quietSince launched reports := by
  unfold quietSince
  rw [emitted]
  exact le_max_right _ _

variable [Add τ] [Sub τ] {interval : τ}

/-- A notification that comes no sooner than one interval after what came before it, as the
clock adds, and tells the ages of the run as the clock has them. -/
structure Due (interval launched : τ) (front : List (Report τ))
    (now elapsedTotal elapsedIdle : τ) : Prop where
  idle : lastActivity launched front + interval ≤ now
  spaced : ∀ last ∈ (emissions front).getLast?, last + interval ≤ now
  totalAge : elapsedTotal = now - launched
  idleAge : elapsedIdle = now - lastActivity launched front
  grows : ∀ past last total idle rest, front = past ++ .notified last total idle :: rest →
    total ≤ elapsedTotal ∧ ((∀ moment, .activity moment ∉ rest) → idle ≤ elapsedIdle)
  running : .stopped ∉ front

def Report.Lawful (interval launched : τ) (front : List (Report τ)) : Report τ → Prop
  | .notified now elapsedTotal elapsedIdle =>
      Due interval launched front now elapsedTotal elapsedIdle
  | .activity _ | .stopped => True

/-- A schedule that agrees with what has been reported. -/
structure Scheduled (interval launched : τ) (reports : List (Report τ))
    (schedule : IdleSchedule τ) : Prop where
  kept : schedule.interval = interval
  startedAt : schedule.startedAt = launched
  lastActivity : schedule.lastActivity = Idle.lastActivity launched reports
  nextDeadline : schedule.nextDeadline = quietSince launched reports + interval
  isStopped : schedule.isStopped = true ↔ .stopped ∈ reports

structure Timed (interval launched : τ) (state : Monitored τ) : Prop where
  scheduled : ∃ schedule, state.monitor.schedule = some schedule ∧
    Scheduled interval launched state.monitor.reports schedule
  clocked : Clocked launched state.clock state.monitor.reports
  lawful : Throughout (Report.Lawful interval launched) state.monitor.reports

namespace Scheduled

variable {schedule : IdleSchedule τ}

omit [Sub τ] in
theorem noteActivity (scheduled : Scheduled interval launched reports schedule)
    (clocked : Clocked launched clock reports) (after : clock ≤ now)
    (running : schedule.isStopped = false) :
    Scheduled interval launched (reports ++ [.activity now]) (schedule.noteActivity now) := by
  have awake : .stopped ∉ reports := fun member =>
    Bool.false_ne_true (running.symm.trans (scheduled.isStopped.mpr member))
  unfold IdleSchedule.noteActivity
  rw [running]
  exact {
    kept := scheduled.kept
    startedAt := scheduled.startedAt
    lastActivity := lastActivity_activity.symm
    nextDeadline := by
      rw [quietSince_activity clocked after, ← scheduled.kept]
      rfl
    isStopped := by simp [awake] }

omit [Sub τ] in
theorem stop (scheduled : Scheduled interval launched reports schedule) :
    Scheduled interval launched (reports ++ [.stopped]) schedule.stop where
  kept := scheduled.kept
  startedAt := scheduled.startedAt
  lastActivity := scheduled.lastActivity.trans lastActivity_stopped.symm
  nextDeadline := by
    rw [quietSince_stopped]
    exact scheduled.nextDeadline
  isStopped := by simp [IdleSchedule.stop]

theorem takeDue_none (scheduled : Scheduled interval launched reports schedule)
    (early : .stopped ∈ reports ∨ now < quietSince launched reports + interval) :
    schedule.takeDue now = (none, schedule) := by
  unfold IdleSchedule.takeDue
  rw [if_pos]
  rw [Bool.or_eq_true, decide_eq_true_iff, scheduled.isStopped, scheduled.nextDeadline]
  exact early

theorem takeDue_some (scheduled : Scheduled interval launched reports schedule)
    (running : .stopped ∉ reports) (late : quietSince launched reports + interval ≤ now) :
    schedule.takeDue now =
      (some (now - launched, now - Idle.lastActivity launched reports),
        { schedule with nextDeadline := now + interval }) := by
  unfold IdleSchedule.takeDue
  rw [if_neg, scheduled.startedAt, scheduled.lastActivity, scheduled.kept]
  rw [Bool.or_eq_true, decide_eq_true_iff, scheduled.isStopped, scheduled.nextDeadline, not_or]
  exact ⟨running, not_lt.mpr late⟩

omit [Sub τ] in
theorem notified (scheduled : Scheduled interval launched reports schedule)
    (clocked : Clocked launched clock reports) (after : clock ≤ now) (total idle : τ) :
    Scheduled interval launched (reports ++ [.notified now total idle])
      { schedule with nextDeadline := now + interval } where
  kept := scheduled.kept
  startedAt := scheduled.startedAt
  lastActivity := scheduled.lastActivity.trans lastActivity_notified.symm
  nextDeadline := by rw [quietSince_notified clocked after]
  isStopped := by
    simp only [List.mem_append, List.mem_singleton, reduceCtorEq, or_false]
    exact scheduled.isStopped

end Scheduled

/-- What a poll finds due, from a schedule that agrees with the reports. -/
theorem due_of_late [Zero τ] [RoundedArithmetic τ] (clocked : Clocked launched clock reports)
    (after : clock ≤ now) (lawful : Throughout (Report.Lawful interval launched) reports)
    (running : .stopped ∉ reports) (late : quietSince launched reports + interval ≤ now) :
    Due interval launched reports now (now - launched) (now - lastActivity launched reports) where
  idle := (RoundedArithmetic.add_le_add_right interval lastActivity_le_quietSince).trans late
  spaced last emitted := (RoundedArithmetic.add_le_add_right interval (emission_le_quietSince emitted)).trans late
  totalAge := rfl
  idleAge := rfl
  grows past last total idle rest split := by
    have told := lawful past _ rest split
    have before : last ≤ now := by
      refine (clocked.reported (.notified last total idle) ?_ last rfl).trans after
      rw [split]
      exact List.mem_append_right past List.mem_cons_self
    refine ⟨?_, fun quiet => ?_⟩
    · rw [told.totalAge]
      exact RoundedArithmetic.sub_le_sub_right launched before
    · have same : lastActivity launched reports = lastActivity launched past := by
        rw [split]
        apply lastActivity_append
        intro moment member
        rcases List.mem_cons.mp member with other | member
        · contradiction
        · exact quiet moment member
      rw [told.idleAge, same]
      exact RoundedArithmetic.sub_le_sub_right _ before
  running := running

/-- What one poll does to a monitor. -/
theorem poll_cases {monitor : IdleMonitor τ} {schedule : IdleSchedule τ}
    (armed : monitor.schedule = some schedule)
    (scheduled : Scheduled interval launched monitor.reports schedule) (now : τ)
    (answer : CallbackAnswer) :
    ((.stopped ∈ monitor.reports ∨ now < quietSince launched monitor.reports + interval) ∧
      monitor.poll now answer = (monitor, true)) ∨
    (.stopped ∉ monitor.reports ∧ quietSince launched monitor.reports + interval ≤ now ∧
      monitor.poll now answer =
        ({ monitor with
            schedule := some { schedule with nextDeadline := now + interval }
            reports := monitor.reports ++
              [.notified now (now - launched) (now - lastActivity launched monitor.reports)] } :
          IdleMonitor τ).heed (notify monitor.hasCallback answer)) := by
  unfold IdleMonitor.poll
  rw [armed]
  by_cases early : .stopped ∈ monitor.reports ∨
      now < quietSince launched monitor.reports + interval
  · left
    refine ⟨early, ?_⟩
    simp only [scheduled.takeDue_none early]
  · right
    obtain ⟨running, late⟩ := not_or.mp early
    refine ⟨running, not_lt.mp late, ?_⟩
    simp only [scheduled.takeDue_some running (not_lt.mp late)]

namespace Timed

variable {monitor : IdleMonitor τ}

theorem stop (timed : Timed interval launched ⟨clock, monitor⟩) :
    Timed interval launched ⟨clock, monitor.stop⟩ := by
  obtain ⟨schedule, armed, scheduled⟩ := timed.scheduled
  have stopped : monitor.stop =
      { monitor with schedule := some schedule.stop, reports := monitor.reports ++ [.stopped] } := by
    unfold IdleMonitor.stop
    rw [armed]
  rw [stopped]
  exact {
    scheduled := ⟨schedule.stop, rfl, scheduled.stop⟩
    clocked := timed.clocked.concat nofun
    lawful := throughout_concat.mpr ⟨timed.lawful, trivial⟩ }

theorem later (timed : Timed interval launched ⟨clock, monitor⟩) (after : clock ≤ now) :
    Timed interval launched ⟨now, monitor⟩ where
  scheduled := timed.scheduled
  clocked := timed.clocked.later after
  lawful := timed.lawful

theorem noteActivity (timed : Timed interval launched ⟨clock, monitor⟩) (after : clock ≤ now) :
    Timed interval launched ⟨now, monitor.noteActivity now⟩ := by
  obtain ⟨schedule, armed, scheduled⟩ := timed.scheduled
  have noted : monitor.noteActivity now =
      { monitor with
        schedule := some (schedule.noteActivity now)
        reports :=
          if schedule.isStopped then monitor.reports
          else monitor.reports ++ [.activity now] } := by
    unfold IdleMonitor.noteActivity
    rw [armed]
  rw [noted]
  cases running : schedule.isStopped with
  | true =>
      have ignored : schedule.noteActivity now = schedule := by
        rw [IdleSchedule.noteActivity, running, if_pos rfl]
      rw [ignored]
      exact {
        scheduled := ⟨schedule, rfl, scheduled⟩
        clocked := timed.clocked.later after
        lawful := timed.lawful }
  | false =>
      exact {
        scheduled := ⟨_, rfl, scheduled.noteActivity timed.clocked after running⟩
        clocked := (timed.clocked.later after).concat fun moment same => by
          cases same
          exact le_rfl
        lawful := throughout_concat.mpr ⟨timed.lawful, trivial⟩ }

theorem heed (timed : Timed interval launched ⟨clock, monitor⟩) (goesOn : Option Bool) :
    Timed interval launched ⟨clock, (monitor.heed goesOn).1⟩ := by
  match goesOn with
  | none => exact timed
  | some true => exact timed
  | some false => exact timed.stop

theorem poll [Zero τ] [RoundedArithmetic τ] (timed : Timed interval launched ⟨clock, monitor⟩)
    (after : clock ≤ now) (answer : CallbackAnswer) :
    Timed interval launched ⟨now, (monitor.poll now answer).1⟩ := by
  obtain ⟨schedule, armed, scheduled⟩ := timed.scheduled
  rcases poll_cases armed scheduled now answer with ⟨-, same⟩ | ⟨running, late, same⟩
  · rw [same]
    exact timed.later after
  · rw [same]
    apply heed
    exact {
      scheduled := ⟨_, rfl, scheduled.notified timed.clocked after _ _⟩
      clocked := (timed.clocked.later after).concat fun moment same => by
        cases same
        exact le_rfl
      lawful := throughout_concat.mpr
        ⟨timed.lawful, due_of_late timed.clocked after timed.lawful running late⟩ }

theorem apply [Zero τ] [RoundedArithmetic τ] (timed : Timed interval launched ⟨clock, monitor⟩)
    (op : Op τ) (after : clock ≤ op.reading.getD clock) :
    Timed interval launched ⟨op.reading.getD clock, monitor.apply op⟩ := by
  cases op with
  | noteActivity now => exact timed.noteActivity after
  | poll now answer => exact timed.poll after answer
  | stop => exact timed.stop

theorem initial (interval launched : τ) (hasCallback : Bool) :
    Timed interval launched (monitoring interval launched hasCallback).initial where
  scheduled := ⟨_, rfl, rfl, rfl, rfl, rfl, by simp [IdleSchedule.start, monitoring,
    IdleMonitor.launch]⟩
  clocked := ⟨le_rfl, nofun⟩
  lawful := throughout_nil

end Timed

theorem timed_exec [Zero τ] [RoundedArithmetic τ] {hasCallback : Bool} {ops : List (Op τ)}
    {state : Monitored τ}
    (runs : (monitoring interval launched hasCallback).exec
      (monitoring interval launched hasCallback).initial ops = some state) :
    Timed interval launched state := by
  refine (monitoring interval launched hasCallback).exec_invariant ?_
    (Timed.initial interval launched hasCallback) runs
  intro before op after timed step
  simp only [monitoring] at step
  split at step
  · next forward =>
      cases step
      exact timed.apply op forward
  · contradiction

theorem emissions_poll {monitor : IdleMonitor τ}
    (timed : Timed interval launched ⟨clock, monitor⟩) (now : τ) (answer : CallbackAnswer) :
    emissions (monitor.poll now answer).1.reports = emissions monitor.reports ++
      if .stopped ∉ monitor.reports ∧ quietSince launched monitor.reports + interval ≤ now then
        [now]
      else [] := by
  obtain ⟨schedule, armed, scheduled⟩ := timed.scheduled
  rcases poll_cases armed scheduled now answer with ⟨early, same⟩ | ⟨running, late, same⟩
  · rw [same, if_neg, List.append_nil]
    rintro ⟨running, late⟩
    exact early.elim running (not_lt.mpr late)
  · rw [same, if_pos ⟨running, late⟩]
    match notify monitor.hasCallback answer with
    | none => exact emissions_notified
    | some true => exact emissions_notified
    | some false => exact emissions_stopped.trans emissions_notified

/-- Every notification of a run is due, the deadline is one interval from the later of the
last activity and the last emission, and a late poll emits once. -/
theorem notifications_respect_interval [Zero τ] [RoundedArithmetic τ] {hasCallback : Bool}
    {ops : List (Op τ)} {state : Monitored τ}
    (runs : (monitoring interval launched hasCallback).exec
      (monitoring interval launched hasCallback).initial ops = some state) :
    Throughout (Report.Lawful interval launched) state.monitor.reports ∧
      (∃ schedule, state.monitor.schedule = some schedule ∧
        schedule.nextDeadline = quietSince launched state.monitor.reports + interval) ∧
      ∀ now answer, emissions (state.monitor.poll now answer).1.reports =
        emissions state.monitor.reports ++
          if .stopped ∉ state.monitor.reports ∧
              quietSince launched state.monitor.reports + interval ≤ now then [now]
          else [] := by
  have timed := timed_exec runs
  obtain ⟨schedule, armed, scheduled⟩ := timed.scheduled
  exact ⟨timed.lawful, ⟨schedule, armed, scheduled.nextDeadline⟩, emissions_poll timed⟩

theorem notifications_respect_interval_late :
    Throughout (Report.Lawful (Binary64.dyadic 10 0) (.dyadic 0 0))
      [.activity (.dyadic 3 0),
        .notified (.dyadic 14 0) (.dyadic 14 0) (.dyadic 11 0),
        .notified (.dyadic 40 0) (.dyadic 40 0) (.dyadic 37 0), .stopped] :=
  (notifications_respect_interval
    (show (monitoring (Binary64.dyadic 10 0) (.dyadic 0 0) true).exec
        (monitoring (.dyadic 10 0) (.dyadic 0 0) true).initial
        [.noteActivity (.dyadic 3 0), .poll (.dyadic 12 0) (.returned false),
          .poll (.dyadic 14 0) (.returned false), .poll (.dyadic 40 0) (.returned false),
          .stop] =
      some ⟨.dyadic 40 0,
        { interval := .dyadic 10 0
          hasCallback := true
          schedule := some ⟨.dyadic 10 0, .dyadic 0 0, .dyadic 3 0, .dyadic 50 0, true⟩
          reports := [.activity (.dyadic 3 0),
            .notified (.dyadic 14 0) (.dyadic 14 0) (.dyadic 11 0),
            .notified (.dyadic 40 0) (.dyadic 40 0) (.dyadic 37 0), .stopped] }⟩
      from by decide +kernel)).1

/-- An interval of 0.6 that begins at 0.3: its sum is rounded down, and a poll at the rounded
deadline notifies before the whole interval has passed. -/
theorem interval_is_rounded_down :
    (monitoring (Binary64.dyadic 5404319552844595 53) (.dyadic 5404319552844595 54) true).exec
        (monitoring (.dyadic 5404319552844595 53) (.dyadic 5404319552844595 54) true).initial
        [.poll (.dyadic 8106479329266892 53) (.returned false)] =
      some ⟨.dyadic 8106479329266892 53,
        { interval := .dyadic 5404319552844595 53
          hasCallback := true
          schedule := some ⟨.dyadic 5404319552844595 53, .dyadic 5404319552844595 54,
            .dyadic 5404319552844595 54, .dyadic 6755399441055744 52, false⟩
          reports := [.notified (.dyadic 8106479329266892 53)
            (.dyadic 5404319552844594 53) (.dyadic 5404319552844594 53)] }⟩ ∧
      (Binary64.dyadic 8106479329266892 53).units -
          (Binary64.dyadic 5404319552844595 54).units <
        (Binary64.dyadic 5404319552844595 53).units ∧
      Binary64.dyadic 5404319552844594 53 < .dyadic 5404319552844595 53 := by
  decide +kernel

end Cuprum.Idle
