import Cuprum.Executable.Paths

namespace Cuprum.Executable

open Cuprum.PathName
open Cuprum.Text

/-! A binding is a validated path or a resolver, one of the two fields of its source. -/

inductive ExecutableBinding (Raised : Type)
  | path (path : Str)
  | resolver (resolver : ExecutableResolver Raised)

variable {Raised : Type}

def refuseNonPathNonResolver (typeName : Str) : Failure :=
  .typeError (text ("executable_binding expects a str, a path-like object, or a " ++
    "zero-argument callable; got ") ++ typeName)

def bindPath (program : Str) (value : PathOrResolver Raised) (allowRelative : Bool) :
    Except Failure (ExecutableBinding Raised) := do
  let rawValue ← coercePathString value
  match classifyExecutablePath rawValue allowRelative with
  | some reason => .error (.invalid ⟨some program, rawValue, reason⟩)
  | none =>
      let path ← executablePath (.str rawValue : PathOrResolver Raised) allowRelative
      .ok (.path path)

def executableBinding (program : Str) (pathOrResolver : PathOrResolver Raised)
    (allowRelative : Bool) : Except Failure (ExecutableBinding Raised) :=
  match pathOrResolver with
  | .str _ | .pathLike _ _ => bindPath program pathOrResolver allowRelative
  | .callable _ resolver => .ok (.resolver resolver)
  | .other typeName => .error (refuseNonPathNonResolver typeName)

/-- Resolving raises what the resolver raised, or rejects what it returned. -/
inductive ResolutionFailure (Raised : Type)
  | resolver (raised : Raised)
  | typeError (message : Str)
  deriving DecidableEq, Repr

def checkedResolverResult : Returned → Except (ResolutionFailure Raised) Str
  | .str value => .ok value
  | .other typeName =>
      .error (.typeError (text "ExecutableResolver must return str; got " ++ typeName))

def resolveBinding (binding : ExecutableBinding Raised) (cwd : Option Str) :
    Except (ResolutionFailure Raised) Str :=
  match binding with
  | .resolver resolver =>
      match resolver () with
      | .ok returned => checkedResolverResult returned
      | .error raised => .error (.resolver raised)
  | .path path =>
      let resolved := PurePath.parse posix path
      match cwd with
      | none => .ok resolved.str
      | some cwd =>
          if resolved.isAbsolute then .ok resolved.str
          else .ok ((PurePath.parse posix cwd).truediv resolved).str

theorem executableBinding_eq (program rawValue : Str) (allowRelative : Bool) :
    (executableBinding program (.str rawValue) allowRelative :
        Except Failure (ExecutableBinding Raised)) =
      match classifyExecutablePath rawValue allowRelative with
      | some reason => .error (.invalid ⟨some program, rawValue, reason⟩)
      | none => .ok (.path (normalised rawValue)) := by
  change bindPath program (.str rawValue) allowRelative = _
  cases classified : classifyExecutablePath rawValue allowRelative with
  | some reason => simp [bindPath, coercePathString, classified, bind, Except.bind]
  | none =>
      simp [bindPath, executablePath, coercePathString, classified, bind, Except.bind]

theorem accepted_of_bound {program rawValue : Str} {allowRelative : Bool}
    {binding : ExecutableBinding Raised}
    (bound : executableBinding program (.str rawValue) allowRelative = .ok binding) :
    classifyExecutablePath rawValue allowRelative = none ∧
      binding = .path (normalised rawValue) := by
  rw [executableBinding_eq] at bound
  split at bound
  next => cases bound
  next accepted => exact ⟨accepted, (Except.ok.inj bound).symm⟩

def resolvedPath (rawValue : Str) : Option Str → Str
  | none => normalised rawValue
  | some cwd => ((PurePath.parse posix cwd).truediv (.parse posix rawValue)).str

theorem resolveBinding_eq (rawValue : Str) (cwd : Option Str) :
    resolveBinding (.path (normalised rawValue) : ExecutableBinding Raised) cwd =
      .ok (resolvedPath rawValue cwd) := by
  unfold resolveBinding
  simp only [parse_normalised]
  cases cwd with
  | none => rfl
  | some cwd =>
      dsimp only
      split
      next absolute => rw [resolvedPath, PurePath.truediv_absolute absolute]
      next => rfl

/-- What binding a path promises of the string it resolves to: it adds no parent
segment to those of the working directory, an absolute path stands by itself, a relative
one is joined to the working directory, and a bare name was bound as one. -/
structure KeepsFile (rawValue : Str) (cwd : Option Str) (resolved : Str) : Prop where
  climbsNowhere : ∃ base, (PurePath.parse posix resolved).tail =
      base ++ (PurePath.parse posix rawValue).tail ∧
    (base = [] ∨ ∃ directory, cwd = some directory ∧
      base = (PurePath.parse posix directory).tail) ∧
    parent ∉ (PurePath.parse posix rawValue).tail
  absolute : treatedAsAbsolute rawValue → resolved = normalised rawValue
  joined : treatedAsAbsolute rawValue = false → ∀ directory, cwd = some directory →
    resolved = ((PurePath.parse posix directory).truediv (.parse posix rawValue)).str
  bare : cwd = none → slash ∉ resolved → slash ∉ rawValue

/-- The binding resolves in every working directory as promised, and its path is
normal. -/
def ResolvesFaithfully (rawValue : Str) (binding : ExecutableBinding Raised) : Prop :=
  (∀ cwd, ∃ resolved, resolveBinding binding cwd = .ok resolved ∧
    KeepsFile rawValue cwd resolved) ∧
  ∀ path, binding = .path path → normalised path = path

/-- Neither a drive letter nor a path whose only separators are dropped. -/
structure Unambiguous (rawValue : Str) : Prop where
  driveless : windowsAbsPattern rawValue = false
  separated : slash ∈ rawValue → (PurePath.parse posix rawValue).root ≠ .relative ∨
    2 ≤ (PurePath.parse posix rawValue).tail.length

theorem climbsNowhere_resolved {rawValue : Str}
    (free : parent ∉ (PurePath.parse posix rawValue).tail) (cwd : Option Str) :
    ∃ base, (PurePath.parse posix (resolvedPath rawValue cwd)).tail =
        base ++ (PurePath.parse posix rawValue).tail ∧
      (base = [] ∨ ∃ directory, cwd = some directory ∧
        base = (PurePath.parse posix directory).tail) ∧
      parent ∉ (PurePath.parse posix rawValue).tail := by
  cases cwd with
  | none => exact ⟨[], by simp [resolvedPath], .inl rfl, free⟩
  | some cwd =>
      cases absolute : (PurePath.parse posix rawValue).isAbsolute with
      | true =>
          refine ⟨[], ?_, .inl rfl, free⟩
          rw [resolvedPath, PurePath.truediv_absolute absolute, PurePath.parse_str]
          rfl
      | false =>
          refine ⟨_, ?_, .inr ⟨cwd, rfl, rfl⟩, free⟩
          rw [resolvedPath, PurePath.parse_str]
          exact (PurePath.truediv_relative absolute _).2

theorem Unambiguous.keepsFile {rawValue : Str} (unambiguous : Unambiguous rawValue)
    (free : parent ∉ (PurePath.parse posix rawValue).tail) (cwd : Option Str) :
    KeepsFile rawValue cwd (resolvedPath rawValue cwd) where
  climbsNowhere := climbsNowhere_resolved free cwd
  absolute := by
    intro treated
    have absolute : (PurePath.parse posix rawValue).isAbsolute = true := by
      simpa [treatedAsAbsolute, unambiguous.driveless] using treated
    cases cwd with
    | none => rfl
    | some cwd => rw [resolvedPath, PurePath.truediv_absolute absolute, normalised]
  joined := by
    intro _ directory given
    rw [given]
    rfl
  bare := by
    intro absent bare present
    subst absent
    exact bare ((slash_mem_normalised_iff rawValue).mpr (unambiguous.separated present))

/-- A drive letter is taken for a root, and yet joined to the working directory. -/
theorem driveless_of_keepsFile {rawValue : Str}
    (kept : ∀ cwd, KeepsFile rawValue cwd (resolvedPath rawValue cwd)) :
    windowsAbsPattern rawValue = false := by
  by_contra drive
  have matched : windowsAbsPattern rawValue = true := by simpa using drive
  have same := (kept (some [slash])).absolute (by simp [treatedAsAbsolute, matched])
  have roots := congrArg (fun path => (PurePath.parse posix path).root) same
  have relative : (PurePath.parse posix rawValue).root = .relative :=
    congrArg Prod.fst (splitroot_windowsAbsPattern matched)
  have unrooted : (PurePath.parse posix rawValue).isAbsolute = false := by
    simp [PurePath.isAbsolute, relative]
  simp only [resolvedPath, PurePath.parse_str, parse_normalised, relative,
    (PurePath.truediv_relative unrooted _).1] at roots
  exact absurd roots (by decide)

theorem keepsFile_iff {rawValue : Str}
    (free : parent ∉ (PurePath.parse posix rawValue).tail) :
    (∀ cwd, KeepsFile rawValue cwd (resolvedPath rawValue cwd)) ↔ Unambiguous rawValue := by
  constructor
  · intro kept
    refine ⟨driveless_of_keepsFile kept, fun present => ?_⟩
    rw [← slash_mem_normalised_iff]
    by_contra bare
    exact (kept none).bare rfl bare present
  · exact fun unambiguous => unambiguous.keepsFile free

/-- An accepted path resolves as promised in every working directory when it has no
drive letter and normalising it leaves a separator in it wherever there was one. -/
theorem bound_path_resolves_faithfully_iff {program rawValue : Str} {allowRelative : Bool}
    {binding : ExecutableBinding Raised}
    (bound : executableBinding program (.str rawValue) allowRelative = .ok binding) :
    ResolvesFaithfully rawValue binding ↔ Unambiguous rawValue := by
  obtain ⟨accepted, rfl⟩ := accepted_of_bound bound
  rw [← keepsFile_iff (parent_not_mem_of_accepted accepted)]
  constructor
  · intro faithful cwd
    obtain ⟨resolved, resolves, kept⟩ := faithful.1 cwd
    rw [resolveBinding_eq] at resolves
    exact Except.ok.inj resolves ▸ kept
  · intro kept
    refine ⟨fun cwd => ⟨_, resolveBinding_eq rawValue cwd, kept cwd⟩, ?_⟩
    intro path same
    rw [← ExecutableBinding.path.inj same, normalised_normalised]

def letters (value : List Char) : Str := value.map .ofChar

theorem bound_path_resolves_faithfully_nested :
    executableBinding (letters ['t', 'o', 'o', 'l'])
        (.str (letters ['b', 'i', 'n', '/', 't', 'o', 'o', 'l'])) true =
      .ok (.path (letters ['b', 'i', 'n', '/', 't', 'o', 'o', 'l']) : ExecutableBinding Empty) ∧
    (ResolvesFaithfully (letters ['b', 'i', 'n', '/', 't', 'o', 'o', 'l'])
        (.path (letters ['b', 'i', 'n', '/', 't', 'o', 'o', 'l']) : ExecutableBinding Empty) ↔
      Unambiguous (letters ['b', 'i', 'n', '/', 't', 'o', 'o', 'l'])) :=
  have bound : executableBinding (letters ['t', 'o', 'o', 'l'])
      (.str (letters ['b', 'i', 'n', '/', 't', 'o', 'o', 'l'])) true =
        .ok (.path (letters ['b', 'i', 'n', '/', 't', 'o', 'o', 'l']) :
          ExecutableBinding Empty) :=
    rfl
  ⟨bound, bound_path_resolves_faithfully_iff bound⟩

/-- A tool of the current directory is bound, and its bare name is run instead. -/
theorem dot_prefix_is_lost :
    executableBinding (letters ['t']) (.str (letters ['.', '/', 't'])) true =
        .ok (.path (letters ['t']) : ExecutableBinding Empty) ∧
      resolveBinding (.path (letters ['t']) : ExecutableBinding Empty) none = .ok (letters ['t']) ∧
      ¬ ResolvesFaithfully (letters ['.', '/', 't'])
        (.path (letters ['t']) : ExecutableBinding Empty) := by
  refine ⟨rfl, rfl, fun faithful => ?_⟩
  obtain ⟨resolved, resolves, kept⟩ := faithful.1 none
  have bare : resolved = letters ['t'] := (Except.ok.inj resolves).symm
  exact absurd (kept.bare rfl (by rw [bare]; decide)) (by decide)

end Cuprum.Executable
