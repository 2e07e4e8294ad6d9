import Cuprum.Effect.Program

namespace Cuprum.Detached

open Cuprum.Effect

inductive Raised
  | cancelled
  | failed
  deriving DecidableEq

/-- Where the child is. It leads a session, and a group, of its own from its `setsid` on;
of a zombie `led` says whether it came that far. -/
inductive Child
  | absent
  | starting
  | leading
  | zombie (led : Bool)
  | reaped
  deriving DecidableEq

/-- What a child does by itself. -/
inductive Move
  | setsid
  | exit

namespace Child

def move : Child → Move → Child
  | .starting, .setsid => .leading
  | .starting, .exit => .zombie false
  | .leading, .exit => .zombie true
  | child, _ => child

def advance (child : Child) (moves : List Move) : Child :=
  moves.foldl move child

/-- Its identifier is its own: it has been created and not yet been waited for. -/
def unreaped : Child → Bool
  | .starting | .leading | .zombie _ => true
  | .absent | .reaped => false

def exited : Child → Bool
  | .zombie _ => true
  | _ => false

def leads : Child → Bool
  | .leading => true
  | .zombie led => led
  | _ => false

def killed : Child → Child
  | .starting => .zombie false
  | .leading => .zombie true
  | child => child

theorem unreaped_move (child : Child) (move : Move) :
    (child.move move).unreaped = child.unreaped := by
  cases child <;> cases move <;> rfl

@[simp]
theorem unreaped_advance (child : Child) (moves : List Move) :
    (child.advance moves).unreaped = child.unreaped := by
  induction moves generalizing child with
  | nil => rfl
  | cons move moves induction => exact (induction (child.move move)).trans (unreaped_move child move)

@[simp]
theorem unreaped_killed (child : Child) : child.killed.unreaped = child.unreaped := by
  cases child <;> rfl

theorem exited_killed {child : Child} (unreaped : child.unreaped = true) :
    child.killed.exited = true := by
  cases child with
  | starting | leading | zombie => rfl
  | absent | reaped => cases unreaped

theorem exited_move {child : Child} (exited : child.exited = true) (move : Move) :
    (child.move move).exited = true := by
  cases child with
  | zombie => exact exited
  | absent | starting | leading | reaped => cases exited

theorem exited_advance {child : Child} (exited : child.exited = true) (moves : List Move) :
    (child.advance moves).exited = true := by
  induction moves generalizing child with
  | nil => exact exited
  | cons move moves induction => exact induction (exited_move exited move)

theorem unreaped_of_exited {child : Child} (exited : child.exited = true) :
    child.unreaped = true := by
  cases child with
  | zombie => rfl
  | absent | starting | leading | reaped => cases exited

end Child

/-- The calls of a launch, and those of its cleanup. -/
inductive Site
  | allowlist
  | isolation
  | resolve
  | setup
  | fork
  | store
  | report
  | collect
  | receipt
  | transfer
  | probe
  | killpg
  | kill
  | wait
  deriving DecidableEq

/-- What a launch meets: what each call raises, what the child has done by itself before it,
and whether the file can be executed. -/
structure Env where
  raises : Site → Option Raised
  moves : Site → List Move
  execs : Bool

/-- `pid` says whether the process object names the child, `stray` whether a signal has named
a process that is not the child, and `blocked` whether a wait has begun that only the child
itself can end.  The wait that collects a child whose exec has failed is not counted: that
child is already on its way out. -/
structure Ledger where
  child : Child := .absent
  pid : Bool := false
  signals : Nat := 0
  stray : Bool := false
  blocked : Bool := false

abbrev Step (α : Type) := Program Ledger Raised α

variable (env : Env)

def Env.moved (site : Site) (child : Child) : Child :=
  child.advance (env.moves site)

def call (site : Site) : Step Unit := do
  modify fun ledger => { ledger with child := env.moved site ledger.child }
  attempt (env.raises site)

inductive Waited
  | running
  | collected
  | noChild

/-- `os.waitpid(pid, os.WNOHANG)`. -/
def waitpidNoHang : Step Waited := do
  call env .probe
  let ledger ← get
  if ledger.child.exited then do
    modify fun ledger => { ledger with child := .reaped }
    pure .collected
  else if ledger.child.unreaped then pure .running
  else pure .noChild

/-- `os.kill(pid, signal.SIGKILL)`. -/
def kill : Step Unit := do
  call env .kill
  modify fun ledger =>
    if ledger.child.unreaped then
      { ledger with child := ledger.child.killed, signals := ledger.signals + 1 }
    else { ledger with stray := true }

/-- `os.killpg(pid, signal.SIGKILL)`, false where there is no such group. -/
def killpg : Step Bool := do
  call env .killpg
  let ledger ← get
  if ledger.child.leads then do
    modify fun ledger =>
      { ledger with child := ledger.child.killed, signals := ledger.signals + 1 }
    pure true
  else do
    modify fun ledger => { ledger with stray := ledger.stray || !ledger.child.unreaped }
    pure false

/-- `os.waitpid(pid, 0)`, where the child is still to be waited for. -/
def waitpid : Step Unit := do
  call env .wait
  modify fun ledger =>
    if ledger.child.unreaped then
      { ledger with child := .reaped, blocked := ledger.blocked || !ledger.child.exited }
    else ledger

end Cuprum.Detached
