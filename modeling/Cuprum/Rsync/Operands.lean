import Cuprum.Executable.Paths

namespace Cuprum.Rsync

open Cuprum.Executable (nul normalised parent posix posixParts slash text)
open Cuprum.PathName
open Cuprum.Text

/-- What a caller may pass as a path: a string, a `Path`, some other path-like value by what
`os.fspath` makes of it, or a value of another type. -/
inductive PathValue
  | str (value : Str)
  | path (value : PurePath posix)
  | pathLike (typeName : Str) (fspath : Executable.Fspath)
  | other (typeName : Str)

inductive PathRejection
  | empty
  | nul
  | parentSegment
  | notAbsolute
  deriving DecidableEq, Repr

def PathRejection.value : PathRejection → String
  | .empty => "SafePath cannot be empty"
  | .nul => "SafePath cannot contain NUL characters"
  | .parentSegment => "SafePath cannot contain '..' segments"
  | .notAbsolute => "SafePath requires an absolute path by default"

inductive Raised
  | typeError (message : Str)
  | valueError (message : Str)
  deriving DecidableEq

def pathExpected (typeName : Str) : Raised :=
  .typeError (text "SafePath expects str or Path, got " ++ typeName)

def convertToString : PathValue → Except Raised Str
  | .str value => .ok value
  | .path value => .ok (normalised value.str)
  | .pathLike _ (.str path) => .ok path
  | .pathLike typeName .bytes => .error (pathExpected typeName)
  | .other typeName => .error (pathExpected typeName)

def classifyPathString (rawValue : Str) (allowRelative : Bool) : Option PathRejection :=
  let path := PurePath.parse posix rawValue
  if rawValue = [] then some .empty
  else if rawValue.contains nul then some .nul
  else if (posixParts path).contains parent then some .parentSegment
  else if !allowRelative && !path.isAbsolute then some .notAbsolute
  else none

def validatePathString (rawValue : Str) (allowRelative : Bool) : Except Raised Unit :=
  match classifyPathString rawValue allowRelative with
  | none => .ok ()
  | some rejection => .error (.valueError (text rejection.value))

def safePath (value : PathValue) (allowRelative : Bool) : Except Raised Str := do
  let rawValue ← convertToString value
  validatePathString rawValue allowRelative
  pure (normalised rawValue)

structure RsyncOptions where
  archive : Bool := false
  delete : Bool := false
  dryRun : Bool := false
  verbose : Bool := false
  compress : Bool := false
  allowRelative : Bool := false

/-- Flags are emitted in this order. -/
def flagOrder : List ((RsyncOptions → Bool) × Str) :=
  [(RsyncOptions.archive, text "--archive"), (RsyncOptions.delete, text "--delete"),
    (RsyncOptions.dryRun, text "--dry-run"), (RsyncOptions.verbose, text "--verbose"),
    (RsyncOptions.compress, text "--compress")]

def remoteSpellingHint : Str :=
  text "remote syntax such as host:path, host::module or rsync:// is not supported"

def colon : CodePoint := .ofChar ':'

/-- No other character has a letter of the scheme, its colon or its slashes as its lower
case. -/
def lower (letter : CodePoint) : CodePoint :=
  if CodePoint.ofChar 'A' ≤ letter ∧ letter ≤ CodePoint.ofChar 'Z' then
    CodePoint.ofNat (letter.val + 32)
  else letter

/-- `text.find(letter)`. -/
def find (letter : CodePoint) (operand : Str) : Option Nat :=
  operand.findIdx? (· = letter)

def isRemoteRsyncOperand (operand : Str) : Bool :=
  if (text "rsync://").isPrefixOf (operand.map lower) then true
  else
    match find colon operand, find slash operand with
    | none, _ => false
    | some _, none => true
    | some colon, some slash => colon < slash

/-- `os.fspath`, of a value that has been converted already. -/
def fspath : PathValue → Str
  | .str value => value
  | .path value => value.str
  | .pathLike _ (.str path) => path
  | .pathLike _ .bytes | .other _ => []

def localRsyncOperand (value : PathValue) (role : Str) (allowRelative : Bool) :
    Except Raised Str := do
  let checked ← safePath value allowRelative
  let rawValue := fspath value
  if isRemoteRsyncOperand rawValue || isRemoteRsyncOperand checked then
    throw (.valueError (text "rsync " ++ role ++ text " must be a local path; " ++
      remoteSpellingHint))
  else pure checked

def separator : Str := text "--"

def flags (options : RsyncOptions) : List Str :=
  (flagOrder.filter fun entry => entry.1 options).map Prod.snd

def rsyncArgv (source destination : PathValue) (options : RsyncOptions) :
    Except Raised (List Str) := do
  let first ← localRsyncOperand source (text "source") options.allowRelative
  let second ← localRsyncOperand destination (text "destination") options.allowRelative
  pure (flags options ++ [separator, first, second])

end Cuprum.Rsync
