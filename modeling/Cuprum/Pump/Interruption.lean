import Cuprum.Pump.Prefix

namespace Cuprum.Pump

def isInterruption {α : Type} : Except ErrorKind α → Bool
  | .error .interrupted => true
  | _ => false

/-- The answers of the kernel with the interruptions left out. -/
def uninterrupted {α : Type} (replies : List (Except ErrorKind α)) :
    List (Except ErrorKind α) :=
  replies.filter fun reply => !isInterruption reply

def withoutInterruptions (log : List Event) : List Event :=
  log.filter fun event => !event.isInterrupted

def Stretch.uninterrupted {ρ α : Type} (stretch : Stretch (Except ErrorKind ρ) α) :
    Stretch (Except ErrorKind ρ) α :=
  ⟨stretch.outcome, withoutInterruptions stretch.log,
    Pump.uninterrupted stretch.rest⟩

def Pumped.uninterrupted (run : Pumped) : Pumped :=
  ⟨run.outcome, withoutInterruptions run.log, Pump.uninterrupted run.reads,
    Pump.uninterrupted run.writes⟩

theorem writeAllUnixWith_empty (already : Nat) (replies : List WriteReply) :
    writeAllUnixWith [] already replies =
      ⟨.returned (.complete already), [], replies⟩ := by
  cases replies <;> rfl

end Cuprum.Pump
