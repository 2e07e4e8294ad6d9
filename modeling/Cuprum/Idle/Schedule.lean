import Cuprum.Rounding.Binary
import Cuprum.Transition.Log
import Cuprum.Transition.System

namespace Cuprum.Idle

open Transition

variable {τ : Type}

/-- The idle timestamps of one started run, in the clock's own rounded numbers. -/
structure IdleSchedule (τ : Type) where
  interval : τ
  startedAt : τ
  lastActivity : τ
  nextDeadline : τ
  isStopped : Bool := false
  deriving DecidableEq

namespace IdleSchedule

variable [LinearOrder τ] [Zero τ] [Add τ] [Sub τ]

def start (interval now : τ) : IdleSchedule τ where
  interval := interval
  startedAt := now
  lastActivity := now
  nextDeadline := now + interval

def noteActivity (self : IdleSchedule τ) (now : τ) : IdleSchedule τ :=
  if self.isStopped then self
  else { self with lastActivity := now, nextDeadline := now + self.interval }

def secondsUntilDue (self : IdleSchedule τ) (now : τ) : τ :=
  max 0 (self.nextDeadline - now)

/-- Claim a notification that is due, by its elapsed total and idle ages. -/
def takeDue (self : IdleSchedule τ) (now : τ) : Option (τ × τ) × IdleSchedule τ :=
  if self.isStopped || now < self.nextDeadline then (none, self)
  else
    -- The next deadline is measured from this emission, not from the one it replaces.
    (some (now - self.startedAt, now - self.lastActivity),
      { self with nextDeadline := now + self.interval })

def stop (self : IdleSchedule τ) : IdleSchedule τ :=
  { self with isStopped := true }

end IdleSchedule

/-- How the caller's callback, or the built-in renderer, comes out. -/
inductive CallbackAnswer
  | returned (value : Bool)
  | failed
  | signalled
  deriving DecidableEq

/-- Whether more notifications may follow; a signal escapes. -/
def notify (hasCallback : Bool) : CallbackAnswer → Option Bool
  | .returned value => some (!(hasCallback && value))
  | .failed => some false
  | .signalled => none

/-- What a run with a heartbeat has seen of it. -/
inductive Report (τ : Type)
  | activity (now : τ)
  | notified (now elapsedTotal elapsedIdle : τ)
  | stopped
  deriving DecidableEq

structure IdleMonitor (τ : Type) where
  interval : τ
  hasCallback : Bool
  schedule : Option (IdleSchedule τ) := none
  reports : List (Report τ) := []
  deriving DecidableEq

namespace IdleMonitor

variable [LinearOrder τ] [Add τ] [Sub τ]

def launch (self : IdleMonitor τ) (now : τ) : IdleMonitor τ :=
  { self with schedule := some (.start self.interval now) }

def noteActivity (self : IdleMonitor τ) (now : τ) : IdleMonitor τ :=
  match self.schedule with
  | none => self
  | some schedule =>
      { self with
        schedule := some (schedule.noteActivity now)
        reports :=
          if schedule.isStopped then self.reports else self.reports ++ [.activity now] }

def stop (self : IdleMonitor τ) : IdleMonitor τ :=
  match self.schedule with
  | none => self
  | some schedule =>
      { self with schedule := some schedule.stop, reports := self.reports ++ [.stopped] }

/-- What the notifier says of further notifications, and whether the call returns. -/
def heed (self : IdleMonitor τ) : Option Bool → IdleMonitor τ × Bool
  | none => (self, false)
  | some true => (self, true)
  | some false => (self.stop, true)

/-- Emit one notification if one is due. -/
def poll (self : IdleMonitor τ) (now : τ) (answer : CallbackAnswer) : IdleMonitor τ × Bool :=
  match self.schedule with
  | none => (self, true)
  | some schedule =>
      match schedule.takeDue now with
      | (none, _) => (self, true)
      | (some (elapsedTotal, elapsedIdle), taken) =>
          ({ self with
              schedule := some taken
              reports :=
                self.reports ++ [.notified now elapsedTotal elapsedIdle] } : IdleMonitor τ).heed
            (notify self.hasCallback answer)

end IdleMonitor

/-! A monitor and its clock, which is read by every report and every poll. -/

structure Monitored (τ : Type) where
  clock : τ
  monitor : IdleMonitor τ
  deriving DecidableEq

inductive Op (τ : Type)
  | noteActivity (now : τ)
  | poll (now : τ) (answer : CallbackAnswer)
  | stop
  deriving DecidableEq

def Op.reading : Op τ → Option τ
  | .noteActivity now => some now
  | .poll now _ => some now
  | .stop => none

section

variable [LinearOrder τ] [Add τ] [Sub τ]

def IdleMonitor.apply (self : IdleMonitor τ) : Op τ → IdleMonitor τ
  | .noteActivity now => self.noteActivity now
  | .poll now answer => (self.poll now answer).1
  | .stop => self.stop

/-- The clock never goes back. -/
def monitoring (interval launched : τ) (hasCallback : Bool) : System (Monitored τ) (Op τ) where
  initial := ⟨launched, ({ interval, hasCallback } : IdleMonitor τ).launch launched⟩
  next state op :=
    if state.clock ≤ op.reading.getD state.clock then
      some ⟨op.reading.getD state.clock, state.monitor.apply op⟩
    else none

end

/-! What a notification is measured by. -/

def Report.activity? : Report τ → Option τ
  | .activity now => some now
  | _ => none

def Report.notified? : Report τ → Option τ
  | .notified now _ _ => some now
  | _ => none

def lastActivity (launched : τ) (reports : List (Report τ)) : τ :=
  ((reports.filterMap Report.activity?).getLast?).getD launched

def emissions (reports : List (Report τ)) : List τ :=
  reports.filterMap Report.notified?

/-- The later of the last activity and the last emission. -/
def quietSince [LinearOrder τ] (launched : τ) (reports : List (Report τ)) : τ :=
  match (emissions reports).getLast? with
  | none => lastActivity launched reports
  | some last => max (lastActivity launched reports) last

section

variable {launched now elapsedTotal elapsedIdle : τ} {reports : List (Report τ)}

@[simp] theorem lastActivity_activity :
    lastActivity launched (reports ++ [.activity now]) = now := by
  simp [lastActivity, Report.activity?]

@[simp] theorem lastActivity_notified :
    lastActivity launched (reports ++ [.notified now elapsedTotal elapsedIdle]) =
      lastActivity launched reports := by
  simp [lastActivity, Report.activity?]

@[simp] theorem lastActivity_stopped :
    lastActivity launched (reports ++ [.stopped]) = lastActivity launched reports := by
  simp [lastActivity, Report.activity?]

@[simp] theorem emissions_activity :
    emissions (reports ++ [.activity now]) = emissions reports := by
  simp [emissions, Report.notified?]

@[simp] theorem emissions_notified :
    emissions (reports ++ [.notified now elapsedTotal elapsedIdle]) =
      emissions reports ++ [now] := by
  simp [emissions, Report.notified?]

@[simp] theorem emissions_stopped : emissions (reports ++ [.stopped]) = emissions reports := by
  simp [emissions, Report.notified?]

theorem lastActivity_append {later : List (Report τ)}
    (quiet : ∀ moment, Report.activity moment ∉ later) :
    lastActivity launched (reports ++ later) = lastActivity launched reports := by
  have silent : later.filterMap Report.activity? = [] := by
    rw [List.filterMap_eq_nil_iff]
    intro report member
    cases report with
    | activity moment => exact absurd member (quiet moment)
    | notified | stopped => rfl
  rw [lastActivity, List.filterMap_append, silent, List.append_nil]
  rfl

end

end Cuprum.Idle
