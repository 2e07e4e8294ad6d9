import Cuprum.Codec.Escaping
import Cuprum.Text.CodePoint
import Cuprum.Tracing.Events

namespace Cuprum.GitHubActions

open Codec (Escaping)
open Text (CodePoint Str)
open Tracing (TerminalOutcome)

def str (text : String) : Str :=
  text.toList.map CodePoint.ofChar

def lineFeed : CodePoint := .ofNat 0x0A
def carriageReturn : CodePoint := .ofNat 0x0D
def percent : CodePoint := .ofNat 0x25
def comma : CodePoint := .ofNat 0x2C
def colon : CodePoint := .ofNat 0x3A

def groupPrefix : Str := str "::group::"
def endgroup : Str := str "::endgroup::"
def errorPrefix : Str := str "::error "
def stopPrefix : Str := str "::stop-commands::"
def stopTokenLength : Nat := 16

/-- `value.replace(target, other)` for a single character. -/
def replace (target : CodePoint) (other value : Str) : Str :=
  value.flatMap fun c => if c = target then other else [c]

def escapeData (value : Str) : Str :=
  replace lineFeed (str "%0A") (replace carriageReturn (str "%0D")
    (replace percent (str "%25") value))

def escapeProperty (value : Str) : Str :=
  replace comma (str "%2C") (replace colon (str "%3A") (escapeData value))

def hexDigits : Str := str "0123456789abcdef"

/-- A token of hexadecimal digits, drawn anew for each session. -/
structure StopToken where
  text : Str
  length : text.length = stopTokenLength
  hexadecimal : ∀ c ∈ text, c ∈ hexDigits

/-- The title of an error, and which halves of the frame are written. -/
structure Annotation where
  label : Str
  emitGroup : Bool := true
  emitAnnotations : Bool := true

structure SessionOutcome where
  outcome : TerminalOutcome
  exitCode : Option Int := none
  detail : Option Str := none

/-- `outcome.detail or outcome.outcome.value`: an empty detail is none. -/
def SessionOutcome.message (self : SessionOutcome) : Str :=
  match self.detail with
  | some (c :: rest) => c :: rest
  | some [] | none => str self.outcome.text

/-- What is written to a log, by the session itself or by the child it shields. -/
inductive Write
  | sink (text : Str)
  | child (text : Str)
  deriving DecidableEq

structure Session where
  log : List Write
  label : Str
  framing : Annotation
  closed : Bool := false
  stopToken : StopToken

namespace Session

def write (self : Session) (text : Str) : Session :=
  { self with log := self.log ++ [.sink text] }

/-- The group opens, then the lease inside it. -/
def start (log : List Write) (label : Str) (framing : Annotation) (stopToken : StopToken) :
    Session :=
  let self : Session := { log, label, framing, stopToken }
  if framing.emitGroup then
    (self.write (groupPrefix ++ escapeData label ++ [lineFeed])).write
      (stopPrefix ++ stopToken.text ++ [lineFeed])
  else self

def emitErrorAnnotationLine (self : Session) (outcome : SessionOutcome) : Session :=
  let title := escapeProperty self.framing.label
  let message := escapeData outcome.message
  self.write (errorPrefix ++ str "title=" ++ title ++ str "::" ++ message ++ [lineFeed])

def releaseLease (self : Session) : Session :=
  if self.framing.emitGroup then
    (self.write (str "::" ++ self.stopToken.text ++ str "::" ++ [lineFeed])).write
      (endgroup ++ [lineFeed])
  else self

def close (self : Session) (outcome : SessionOutcome) : Session :=
  if self.closed then self
  else
    let self := ({ self with closed := true } : Session).releaseLease
    if !self.framing.emitAnnotations then self
    else if outcome.outcome = .exitZero then self
    else self.emitErrorAnnotationLine outcome

end Session

/-- What happens to a session that has been opened. -/
inductive SessionEvent
  | output (text : Str)
  | close (outcome : SessionOutcome)

def Session.next (self : Session) : SessionEvent → Session
  | .output text => { self with log := self.log ++ [.child text] }
  | .close outcome => self.close outcome

def Session.run (self : Session) (events : List SessionEvent) : Session :=
  events.foldl Session.next self

/-! Escaping, as one code for each character. -/

def dataEscaping : Escaping CodePoint where
  marker := percent
  table := [(percent, str "25"), (carriageReturn, str "0D"), (lineFeed, str "0A")]
  escapes_marker := by decide
  free := by decide

def propertyEscaping : Escaping CodePoint where
  marker := percent
  table := [(percent, str "25"), (carriageReturn, str "0D"), (lineFeed, str "0A"),
    (colon, str "3A"), (comma, str "2C")]
  escapes_marker := by decide
  free := by decide

end Cuprum.GitHubActions
