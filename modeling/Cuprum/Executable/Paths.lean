import Cuprum.PathName.Posix
import Cuprum.Text.CodePoint

namespace Cuprum.Executable

open Cuprum.PathName
open Cuprum.Text

def text (value : String) : Str := value.toList.map .ofChar

def slash : CodePoint := .ofChar '/'

def backslash : CodePoint := .ofChar '\\'

def nul : CodePoint := .ofNat 0

/-- The grammar of `PurePosixPath`. -/
def posix : Grammar CodePoint where
  separator := slash
  dot := .ofChar '.'
  distinct := by decide

def parent : Str := [.ofChar '.', .ofChar '.']

inductive PathBindingRejection
  | empty
  | nul
  | parentSegment
  | notAbsolute
  | notFound
  | notExecutable
  deriving DecidableEq, Repr

def PathBindingRejection.value : PathBindingRejection → String
  | .empty => "ExecutablePath cannot be empty"
  | .nul => "ExecutablePath cannot contain NUL characters"
  | .parentSegment => "ExecutablePath cannot contain '..' segments"
  | .notAbsolute => "ExecutablePath requires an absolute path by default"
  | .notFound => "ExecutablePath does not exist"
  | .notExecutable => "ExecutablePath is not executable"

structure InvalidExecutableBindingError where
  program : Option Str
  path : Str
  reason : PathBindingRejection
  deriving DecidableEq, Repr

/-- `repr` is how the language quotes a string. -/
def InvalidExecutableBindingError.message (repr : Str → Str)
    (error : InvalidExecutableBindingError) : Str :=
  let subject := match error.program with
    | none => text "Path"
    | some program => text "Program '" ++ program ++ text "'"
  subject ++ text " cannot be bound to " ++ repr error.path ++ text ": " ++
    text error.reason.value

inductive Failure
  | typeError (message : Str)
  | invalid (error : InvalidExecutableBindingError)
  deriving DecidableEq, Repr

def isAsciiLetter (letter : CodePoint) : Bool :=
  (CodePoint.ofChar 'A' ≤ letter && letter ≤ CodePoint.ofChar 'Z') ||
    (CodePoint.ofChar 'a' ≤ letter && letter ≤ CodePoint.ofChar 'z')

def isWindowsSeparator (letter : CodePoint) : Bool :=
  letter = backslash || letter = slash

/-- A drive letter, a colon and a separator of either kind. -/
def windowsAbsPattern : Str → Bool
  | drive :: colon :: separator :: _ =>
      isAsciiLetter drive && colon = .ofChar ':' && isWindowsSeparator separator
  | _ => false

def posixParts (path : PurePath posix) : List Str :=
  if path.isAbsolute then posix.anchor path.root :: path.tail else path.tail

/-- The parts of a path the pattern matches, in the Windows flavour: its drive with
its root, then its segments. -/
def windowsParts (rawValue : Str) : List Str :=
  (rawValue.take 2 ++ [backslash]) ::
    ((rawValue.drop 3).splitOnP isWindowsSeparator).filter posix.keeps

/-- What the classifier takes for an absolute path. -/
def treatedAsAbsolute (rawValue : Str) : Bool :=
  windowsAbsPattern rawValue || (PurePath.parse posix rawValue).isAbsolute

def classifyExecutablePath (rawValue : Str) (allowRelative : Bool) :
    Option PathBindingRejection :=
  let parts := if windowsAbsPattern rawValue then windowsParts rawValue
    else posixParts (.parse posix rawValue)
  if rawValue = [] then some .empty
  else if rawValue.contains nul then some .nul
  else if parts.contains parent then some .parentSegment
  else if !allowRelative && !treatedAsAbsolute rawValue then some .notAbsolute
  else none

/-- `PurePath(raw).as_posix()`: the host's separator is the slash already. -/
def normalised (rawValue : Str) : Str :=
  (PurePath.parse posix rawValue).str

/-- What `os.fspath` makes of a path-like value. -/
inductive Fspath
  | str (path : Str)
  | bytes
  deriving DecidableEq, Repr

/-- What a resolver returns: a string, or a value of some other type. -/
inductive Returned
  | str (value : Str)
  | other (typeName : Str)
  deriving DecidableEq, Repr

/-- One call of a resolver, which may raise. -/
abbrev ExecutableResolver (Raised : Type) := Unit → Except Raised Returned

variable {Raised : Type}

/-- What a caller may offer as an executable. -/
inductive PathOrResolver (Raised : Type)
  | str (value : Str)
  | pathLike (typeName : Str) (fspath : Fspath)
  | callable (typeName : Str) (resolver : ExecutableResolver Raised)
  | other (typeName : Str)

def pathExpected (typeName : Str) : Failure :=
  .typeError (text "ExecutablePath expects a str or a path-like object, got " ++ typeName)

def coercePathString : PathOrResolver Raised → Except Failure Str
  | .str value => .ok value
  | .pathLike _ (.str path) => .ok path
  | .pathLike typeName .bytes => .error (pathExpected typeName)
  | .callable typeName _ => .error (pathExpected typeName)
  | .other typeName => .error (pathExpected typeName)

def executablePath (value : PathOrResolver Raised) (allowRelative : Bool) :
    Except Failure Str := do
  let rawValue ← coercePathString value
  match classifyExecutablePath rawValue allowRelative with
  | some reason => .error (.invalid ⟨none, rawValue, reason⟩)
  | none => .ok (normalised rawValue)

@[simp] theorem parse_normalised (rawValue : Str) :
    PurePath.parse posix (normalised rawValue) = PurePath.parse posix rawValue :=
  (PurePath.parse posix rawValue).parse_str

@[simp] theorem normalised_normalised (rawValue : Str) :
    normalised (normalised rawValue) = normalised rawValue :=
  congrArg PurePath.str (parse_normalised rawValue)

theorem slash_mem_normalised_iff (rawValue : Str) :
    slash ∈ normalised rawValue ↔
      (PurePath.parse posix rawValue).root ≠ .relative ∨
        2 ≤ (PurePath.parse posix rawValue).tail.length :=
  (PurePath.parse posix rawValue).separator_mem_str_iff

/-! A drive letter begins a path whose first segment is not a parent, and from there on
each segment between slashes that holds no backslash is a segment of both flavours. -/

theorem windowsAbsPattern_cases {rawValue : Str} (matched : windowsAbsPattern rawValue) :
    ∃ drive separator rest, rawValue = drive :: .ofChar ':' :: separator :: rest ∧
      isAsciiLetter drive = true ∧ isWindowsSeparator separator = true := by
  unfold windowsAbsPattern at matched
  split at matched
  next drive colon separator rest =>
    simp only [Bool.and_eq_true, decide_eq_true_eq] at matched
    obtain ⟨⟨letter, rfl⟩, separates⟩ := matched
    exact ⟨drive, separator, rest, rfl, letter, separates⟩
  next => cases matched

theorem splitroot_windowsAbsPattern {rawValue : Str} (matched : windowsAbsPattern rawValue) :
    posix.splitroot rawValue = (.relative, rawValue) := by
  apply Grammar.splitroot_relative
  obtain ⟨drive, separator, rest, rfl, letter, _⟩ := windowsAbsPattern_cases matched
  intro rooted
  have same : drive = slash := Option.some.inj rooted
  rw [same] at letter
  exact absurd letter (by decide)

theorem parent_mem_windowsParts {rawValue : Str} (matched : windowsAbsPattern rawValue)
    (climbs : parent ∈ (PurePath.parse posix rawValue).tail) :
    parent ∈ windowsParts rawValue := by
  have inRaw : parent ∈ rawValue.splitOnP (· == slash) := by
    have kept := (List.mem_filter.mp climbs).1
    rw [splitroot_windowsAbsPattern matched] at kept
    rwa [← List.splitOn_eq_splitOnP]
  obtain ⟨_, before, after, whole, start, stop⟩ := mem_splitOnP_iff.mp inRaw
  obtain ⟨drive, separator, rest, rfl, letter, _⟩ := windowsAbsPattern_cases matched
  match before with
  | [] =>
      obtain ⟨rfl, _⟩ := List.cons.inj whole
      exact absurd letter (by decide)
  | [_] =>
      have isDot := (List.cons.inj (List.cons.inj whole).2).1
      exact absurd isDot (by decide)
  | [_, colon] =>
      have isColon := (List.cons.inj (List.cons.inj whole).2).1
      have separates := start colon rfl
      rw [← isColon] at separates
      exact absurd separates (by decide)
  | _ :: _ :: _ :: before =>
      refine List.mem_cons_of_mem _ (List.mem_filter.mpr ⟨?_, by decide⟩)
      have tail : rest = before ++ parent ++ after :=
        (List.cons.inj (List.cons.inj (List.cons.inj whole).2).2).2
      apply mem_splitOnP_iff.mpr
      have free : ∀ letter ∈ parent, isWindowsSeparator letter = false :=
        List.forall_mem_cons.mpr ⟨by decide, List.forall_mem_singleton.mpr (by decide)⟩
      refine ⟨free, before, after, tail, ?_, ?_⟩
      · intro last isLast
        cases before with
        | nil => cases isLast
        | cons next before =>
            have same := start last (by simpa [List.getLast?_cons_cons] using isLast)
            simp_all [isWindowsSeparator]
      · intro first isFirst
        have same := stop first isFirst
        simp_all [isWindowsSeparator]

theorem parent_not_mem_of_accepted {rawValue : Str} {allowRelative : Bool}
    (accepted : classifyExecutablePath rawValue allowRelative = none) :
    parent ∉ (PurePath.parse posix rawValue).tail := by
  intro climbs
  have inParts : (if windowsAbsPattern rawValue then windowsParts rawValue
      else posixParts (.parse posix rawValue)).contains parent = true := by
    apply List.contains_iff_mem.mpr
    split
    next drive => exact parent_mem_windowsParts drive climbs
    next =>
      unfold posixParts
      split
      next => exact List.mem_cons_of_mem _ climbs
      next => exact climbs
  unfold classifyExecutablePath at accepted
  simp only [inParts, if_true] at accepted
  split at accepted
  next => cases accepted
  next => split at accepted <;> cases accepted

end Cuprum.Executable
