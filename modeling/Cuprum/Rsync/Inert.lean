import Cuprum.Rsync.Operands

namespace Cuprum.Rsync

open Cuprum.Executable (normalised parent posix posixParts slash text)
open Cuprum.PathName
open Cuprum.Text

/-- The endpoint grammar of rsync: a host, which has no slash and may be empty, then a
colon. -/
def RemoteSpec (operand : Str) : Prop :=
  ∃ host rest, operand = host ++ colon :: rest ∧ slash ∉ host

theorem remoteSpec_nil : ¬RemoteSpec [] := by
  rintro ⟨host, rest, written, _⟩
  simp at written

theorem remoteSpec_cons (letter : CodePoint) (operand : Str) :
    RemoteSpec (letter :: operand) ↔ letter = colon ∨ letter ≠ slash ∧ RemoteSpec operand := by
  constructor
  · rintro ⟨host, rest, written, slashFree⟩
    cases host with
    | nil => exact .inl (List.cons.inj written).1
    | cons first host =>
        obtain ⟨rfl, rfl⟩ := List.cons.inj written
        obtain ⟨other, slashFree⟩ := not_or.mp (mt List.mem_cons.mpr slashFree)
        exact .inr ⟨Ne.symm other, host, rest, rfl, slashFree⟩
  · rintro (rfl | ⟨other, host, rest, rfl, slashFree⟩)
    · exact ⟨[], operand, rfl, List.not_mem_nil⟩
    · exact ⟨letter :: host, rest, rfl, mt List.mem_cons.mp (not_or.mpr ⟨other.symm, slashFree⟩)⟩

/-- The comparison of the two positions, when both or only the colon's is there. -/
def colonFirst (operand : Str) : Bool :=
  match find colon operand, find slash operand with
  | none, _ => false
  | some _, none => true
  | some colon, some slash => colon < slash

theorem find_cons (sought letter : CodePoint) (operand : Str) :
    find sought (letter :: operand) =
      if letter = sought then some 0 else (find sought operand).map (· + 1) := by
  simp [find, List.findIdx?_cons]

theorem colonFirst_iff (operand : Str) : colonFirst operand = true ↔ RemoteSpec operand := by
  induction operand with
  | nil => simp [colonFirst, find, remoteSpec_nil]
  | cons letter operand induction =>
      rw [remoteSpec_cons, ← induction]
      by_cases isColon : letter = colon
      · subst isColon
        have other : colon ≠ slash := by decide
        cases found : find slash operand <;>
          simp [colonFirst, find_cons, other, found]
      · by_cases isSlash : letter = slash
        · subst isSlash
          cases found : find colon operand <;>
            simp [colonFirst, find_cons, isColon, found]
        · cases first : find colon operand <;> cases second : find slash operand <;>
            simp [colonFirst, find_cons, isColon, isSlash, first, second]

theorem lower_eq_colon {letter : CodePoint} (lowered : lower letter = colon) :
    letter = colon := by
  unfold lower at lowered
  split at lowered
  next capital =>
    have value := congrArg Fin.val lowered
    have bounds : 65 ≤ letter.val ∧ letter.val ≤ 90 := capital
    simp only [CodePoint.ofNat, Fin.ofNat] at value
    change _ = 58 at value
    omega
  next => exact lowered

theorem remoteSpec_of_scheme {operand : Str}
    (scheme : (text "rsync://").isPrefixOf (operand.map lower) = true) :
    RemoteSpec operand := by
  obtain ⟨rest, lowered⟩ := List.isPrefixOf_iff_prefix.mp scheme
  have spelled : operand.map lower = text "rsync" ++ colon :: (text "//" ++ rest) :=
    lowered.symm
  obtain ⟨host, more, rfl, isHost, after⟩ := List.map_eq_append_iff.mp spelled
  obtain ⟨letter, rest', rfl, isColon, _⟩ := List.map_eq_cons_iff.mp after
  refine ⟨host, rest', by rw [lower_eq_colon isColon], fun inside => ?_⟩
  have named : lower slash ∈ text "rsync" := isHost ▸ List.mem_map_of_mem inside
  exact absurd named (by decide)

theorem isRemote_iff (operand : Str) :
    isRemoteRsyncOperand operand = true ↔ RemoteSpec operand := by
  unfold isRemoteRsyncOperand
  split
  next scheme => exact iff_of_true rfl (remoteSpec_of_scheme scheme)
  next => exact colonFirst_iff operand

/-- What holds of an operand as it was given and as it is handed over. -/
structure Inert (raw operand : Str) : Prop where
  rawLocal : ¬RemoteSpec raw
  isLocal : ¬RemoteSpec operand
  rawStays : parent ∉ raw.splitOn slash
  stays : parent ∉ operand.splitOn slash
  samePath : PurePath.parse posix operand = PurePath.parse posix raw
  trailingSlash : operand.getLast? = some slash ↔
    (PurePath.parse posix raw).isAbsolute = true ∧ (PurePath.parse posix raw).tail = []
  settled : normalised operand = operand

@[simp] theorem parse_normalised (raw : Str) :
    PurePath.parse posix (normalised raw) = PurePath.parse posix raw :=
  PurePath.parse_str _

@[simp] theorem normalised_normalised (raw : Str) : normalised (normalised raw) = normalised raw :=
  congrArg PurePath.str (parse_normalised raw)

theorem parent_mem_posixParts {raw : Str} (member : parent ∈ raw.splitOn slash) :
    parent ∈ posixParts (PurePath.parse posix raw) := by
  have kept : parent ∈ (PurePath.parse posix raw).tail :=
    PurePath.mem_tail_parse.mpr ⟨member, by decide⟩
  unfold posixParts
  split
  · exact List.mem_cons_of_mem _ kept
  · exact kept

theorem safePath_ok {value : PathValue} {allowRelative : Bool} {checked : Str}
    (accepted : safePath value allowRelative = .ok checked) :
    checked = normalised (fspath value) ∧ classifyPathString (fspath value) allowRelative = none := by
  have converted : ∃ raw, convertToString value = .ok raw ∧ raw = fspath value := by
    cases value with
    | str value => exact ⟨value, rfl, rfl⟩
    | path value =>
        exact ⟨_, rfl, congrArg PurePath.str (PurePath.parse_str value)⟩
    | pathLike typeName path =>
        cases path with
        | str path => exact ⟨path, rfl, rfl⟩
        | bytes => simp [safePath, convertToString, bind, Except.bind] at accepted
    | other typeName => simp [safePath, convertToString, bind, Except.bind] at accepted
  obtain ⟨raw, converted, rfl⟩ := converted
  unfold safePath at accepted
  rw [converted] at accepted
  cases verdict : classifyPathString (fspath value) allowRelative with
  | none =>
      simp [validatePathString, verdict, bind, Except.bind, pure, Except.pure] at accepted
      exact ⟨accepted.symm, rfl⟩
  | some rejection =>
      simp [validatePathString, verdict, bind, Except.bind] at accepted

theorem classify_none_iff {raw : Str} {allowRelative : Bool} :
    classifyPathString raw allowRelative = none ↔
      raw ≠ [] ∧ Executable.nul ∉ raw ∧ parent ∉ posixParts (PurePath.parse posix raw) ∧
        (allowRelative = true ∨ (PurePath.parse posix raw).isAbsolute = true) := by
  have skips : ∀ (reason : PathRejection) (wrong : Prop) [Decidable wrong] next,
      (if wrong then some reason else next) = none ↔ ¬wrong ∧ next = none := by
    intro reason wrong _ next
    split <;> simp [*]
  unfold classifyPathString
  cases allowRelative <;> simp [skips]

theorem classify_normalised {raw : Str} {allowRelative : Bool}
    (accepted : classifyPathString raw allowRelative = none) :
    classifyPathString (normalised raw) allowRelative = none := by
  obtain ⟨_, nulFree, rest⟩ := classify_none_iff.mp accepted
  refine classify_none_iff.mpr ⟨PurePath.str_ne_nil _, fun inside => ?_, by rwa [parse_normalised]⟩
  rcases PurePath.mem_str_parse inside with given | same | same
  · exact nulFree given
  · exact absurd same (by decide)
  · exact absurd same (by decide)

theorem safePath_normalised {raw : Str} {allowRelative : Bool}
    (accepted : classifyPathString raw allowRelative = none) :
    safePath (.str (normalised raw)) allowRelative = .ok (normalised raw) := by
  simp [safePath, convertToString, validatePathString, classify_normalised accepted, bind,
    Except.bind, pure, Except.pure]

theorem localRsyncOperand_ok {value : PathValue} {role operand : Str} {allowRelative : Bool}
    (accepted : localRsyncOperand value role allowRelative = .ok operand) :
    Inert (fspath value) operand ∧
      localRsyncOperand (.str operand) role allowRelative = .ok operand := by
  unfold localRsyncOperand at accepted
  cases checked : safePath value allowRelative with
  | error raised => simp [checked, bind, Except.bind] at accepted
  | ok normal =>
      obtain ⟨rfl, passes⟩ := safePath_ok checked
      have locals : isRemoteRsyncOperand (fspath value) = false ∧
          isRemoteRsyncOperand (normalised (fspath value)) = false ∧
          normalised (fspath value) = operand := by
        cases raw : isRemoteRsyncOperand (fspath value) <;>
          cases normal : isRemoteRsyncOperand (normalised (fspath value)) <;>
          simp [checked, raw, normal, bind, Except.bind, pure, Except.pure, throw, throwThe,
            MonadExceptOf.throw] at accepted ⊢
        exact accepted
      obtain ⟨rawLocal, normalLocal, rfl⟩ := locals
      have stays := (classify_none_iff.mp passes).2.2.1
      refine ⟨?_, ?_⟩
      · exact {
          rawLocal := fun spec => by simp [(isRemote_iff _).mpr spec] at rawLocal
          isLocal := fun spec => by simp [(isRemote_iff _).mpr spec] at normalLocal
          rawStays := fun member => stays (parent_mem_posixParts member)
          stays := fun member => stays (parse_normalised _ ▸ parent_mem_posixParts member)
          samePath := parse_normalised _
          trailingSlash := by
            rw [PurePath.isAbsolute, decide_eq_true_iff]
            exact PurePath.getLast?_str _
          settled := normalised_normalised _ }
      · have again : fspath (.str (normalised (fspath value))) = normalised (fspath value) := rfl
        simp [localRsyncOperand, safePath_normalised passes, again, normalLocal, bind,
          Except.bind, pure, Except.pure]

theorem separator_not_mem_flags (options : RsyncOptions) : separator ∉ flags options := by
  intro member
  obtain ⟨entry, chosen, same⟩ := List.mem_map.mp member
  have listed : entry.2 ∈ flagOrder.map Prod.snd :=
    List.mem_map_of_mem (List.mem_of_mem_filter chosen)
  rw [same] at listed
  exact absurd listed (by decide)

/-- Both operands follow the end of the options, are inert, and are the operands of the
command built from them. -/
theorem accepted_operands_inert {source destination : PathValue} {options : RsyncOptions}
    {argv : List Str} (accepted : rsyncArgv source destination options = .ok argv) :
    ∃ first second, argv = flags options ++ [separator, first, second] ∧
      separator ∉ flags options ∧ Inert (fspath source) first ∧
      Inert (fspath destination) second ∧
      rsyncArgv (.str first) (.str second) options = .ok argv := by
  unfold rsyncArgv at accepted
  cases sourceChecked : localRsyncOperand source (text "source") options.allowRelative with
  | error raised => simp [sourceChecked, bind, Except.bind] at accepted
  | ok first =>
      cases destinationChecked : localRsyncOperand destination (text "destination") options.allowRelative with
      | error raised => simp [sourceChecked, destinationChecked, bind, Except.bind] at accepted
      | ok second =>
          obtain ⟨firstInert, firstAgain⟩ := localRsyncOperand_ok sourceChecked
          obtain ⟨secondInert, secondAgain⟩ := localRsyncOperand_ok destinationChecked
          simp only [sourceChecked, destinationChecked, bind, Except.bind, pure, Except.pure, Except.ok.injEq] at accepted
          refine ⟨first, second, accepted.symm, separator_not_mem_flags options, firstInert,
            secondInert, ?_⟩
          simp only [rsyncArgv, firstAgain, secondAgain, bind, Except.bind, pure, Except.pure,
            accepted]

theorem accepted_operands_inert_archive :
    ∃ first second, [text "--archive", separator, text "/src", text "/dst"] =
        flags { archive := true } ++ [separator, first, second] ∧
      separator ∉ flags { archive := true } ∧ Inert (text "/src/./") first ∧
      Inert (text "/dst") second ∧
      rsyncArgv (.str first) (.str second) { archive := true } =
        .ok [text "--archive", separator, text "/src", text "/dst"] :=
  @accepted_operands_inert (.str (text "/src/./")) (.str (text "/dst")) _ _ rfl

/-- The slash that asks for the contents of a directory is dropped. -/
theorem trailing_slash_dropped :
    rsyncArgv (.str (text "/src/")) (.str (text "/dst")) {} =
        .ok [separator, text "/src", text "/dst"] ∧
      (text "/src/").getLast? = some slash ∧ (text "/src").getLast? ≠ some slash := by
  refine ⟨?_, ?_, ?_⟩
  · rfl
  · decide
  · decide

end Cuprum.Rsync
