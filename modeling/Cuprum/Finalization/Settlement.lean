import Cuprum.Finalization.Command
import Cuprum.Finalization.Pipeline
import Cuprum.Finalization.Lines

namespace Cuprum.Finalization

open Cuprum.Effect

variable {count : Nat}

/-- Each planned observation is settled exactly once, no task of its hooks is pending,
and the session that was opened is closed exactly once. -/
structure Ledger.Settled (ledger : Ledger count) : Prop where
  once : ∀ stage, ledger.planned stage = true → ledger.settled stage = 1
  drained : ledger.pending = 0
  opened : ledger.opens ≤ 1
  closed : ledger.closes = ledger.opens

theorem Ledger.Reached.settled {ledger : Ledger count}
    (reached : ledger.Reached true true true) : ledger.Settled where
  once := by
    intro stage planned
    rw [reached.told rfl stage, planned]
    rfl
  drained := reached.drained rfl
  opened := reached.opened
  closed := by
    have bracket := reached.bracket
    rw [reached.closed rfl] at bracket
    exact bracket

inductive Shape
  | command
  | pipeline (count : Nat)
  | lines

def Shape.stages : Shape → Nat
  | command | lines => 1
  | pipeline count => count

def Shape.run : (shape : Shape) → Env shape.stages → Step shape.stages
  | command, env => runPreparedCommand env
  | pipeline _, env => pipelineRun env
  | lines, env => iterLineEvents env

/-- Each step of the finalizer that the run reaches lets the next one follow, and the
close of the session comes to `session.close`. -/
def Shape.settles : (shape : Shape) → Env shape.stages → Bool
  | command, env => env.settlesCommand
  | pipeline _, env => env.settlesPipeline
  | lines, env => env.settlesLines

/-- Whichever hooks fail and wherever cancellations land, a run whose finalizer is not
cut off, and whose bounded close is not outlasted by a sink write, leaves its
observations settled, its hooks' tasks drained and its session closed. -/
theorem announced_runs_settle (shape : Shape) (env : Env shape.stages)
    (settles : shape.settles env = true) : (left (shape.run env) {}).Settled := by
  cases shape with
  | command => exact (ends_left_iff.mp (runPreparedCommand_comes settles)).settled
  | pipeline count => exact (ends_left_iff.mp (pipelineRun_comes settles)).settled
  | lines => exact (ends_left_iff.mp (iterLineEvents_comes settles)).settled

/-- Hooks and a sink are installed, and each event schedules a task. -/
def Env.hooked (raises : Site count → Option Raised) (interrupts : Site count → Bool) :
    Env count where
  observed := true
  framing := .direct
  closing := fun _ => .called
  raises := raises
  interrupts := interrupts
  schedules := fun _ => 1

def Site.isAfter : Site count → Bool
  | .after _ => true
  | _ => false

def Site.isWorker : Site count → Bool
  | .worker => true
  | _ => false

def Site.isDrain : Site count → Bool
  | .drain => true
  | _ => false

/-- An after hook fails under bounded delivery, and a cancellation reaches the drain of
the hooks' tasks. -/
def Env.failingHook : Env count :=
  { Env.hooked (fun site => if site.isAfter then some .failed else none) Site.isDrain with
    framing := .bounded }

theorem announced_runs_settle_failing_hook :
    (left (runPreparedCommand .failingHook) {}).Settled ∧
      (left (pipelineRun (@Env.failingHook 3)) {}).Settled ∧
      (left (iterLineEvents .failingHook) {}).Settled :=
  ⟨announced_runs_settle .command .failingHook (by decide),
    announced_runs_settle (.pipeline 3) .failingHook (by decide),
    announced_runs_settle .lines .failingHook (by decide)⟩

/-- A command has run and nothing fails, but a cancellation reaches the close of its
delivery worker. -/
theorem announced_run_is_left_open :
    ∃ env : Env 1, (∀ site, env.raises site = none) ∧
      (left (runPreparedCommand env) {}).planned 0 = true ∧
      (left (runPreparedCommand env) {}).settled 0 = 0 ∧
      (left (runPreparedCommand env) {}).opens = 1 ∧
      (left (runPreparedCommand env) {}).closes = 0 ∧
      (left (runPreparedCommand env) {}).pending = 2 ∧
      ¬(left (runPreparedCommand env) {}).Settled := by
  refine ⟨.hooked (fun _ => none) Site.isWorker, fun _ => rfl, rfl, rfl, rfl, rfl, rfl, ?_⟩
  intro settled
  have closed := settled.closed
  cases closed

end Cuprum.Finalization
