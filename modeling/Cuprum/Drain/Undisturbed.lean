import Cuprum.Drain.Disabling

namespace Cuprum.Drain

open Effect Echo
open BoundedEcho (EchoErrorCategory EchoEvent)

variable {κ ρ φ π η α : Type}

section

variable {echo : EchoConfig}

end

variable (config : StreamConfig κ ρ φ π η)

inductive EchoTurn
  | chunk (bytes : List UInt8)
  | flush

def EchoTurn.program {echo : EchoConfig} : EchoTurn → EchoStep echo Unit
  | .chunk bytes => echoChunk bytes
  | .flush => flushEchoDecoder

end Cuprum.Drain
