import Mathlib.Data.List.Basic
import Mathlib.Data.List.Pairwise

namespace Cuprum.Concurrent

/-- What a caller gives as an index; anything but an exact `int` is known by the name of
its type and how it prints. -/
inductive Index
  | int (value : Int)
  | other (typeName printed : String)
  deriving DecidableEq

def Index.nat (number : Nat) : Index :=
  .int number

def Index.printed : Index → String
  | .int value => toString value
  | .other _ printed => printed

def Index.toNat : Index → Nat
  | .int value => value.toNat
  | .other _ _ => 0

/-- A tuple of one ends in a comma. -/
def printTuple : List Index → String
  | [index] => "(" ++ index.printed ++ ",)"
  | indices => "(" ++ String.intercalate ", " (indices.map Index.printed) ++ ")"

inductive Invalid
  | typeError (message : String)
  | valueError (message : String)
  deriving DecidableEq

def validateIndexType (typeErrorMessage : String) : Index → Except Invalid Int
  | .int value => .ok value
  | .other typeName _ => .error (.typeError s!"{typeErrorMessage}, got {typeName}")

def validateIndexBounds (subject : String) (upperBound : Option Nat) (index : Int) :
    Except Invalid Unit :=
  match upperBound with
  | none =>
      if index < 0 then
        .error (.valueError s!"{subject} must be non-negative, got {index}")
      else .ok ()
  | some upperBound =>
      if 0 ≤ index ∧ index < upperBound then .ok ()
      else .error (.valueError
        s!"{subject} index {index} is out of range for {upperBound} results")

/-- How one kind of index is checked, and named in what is raised. -/
structure IndexCheck where
  subject : String
  typeErrorMessage : String
  upperBound : Option Nat

def IndexCheck.validateAfter (self : IndexCheck) (whole : List Index) (previous : Int) :
    List Index → Except Invalid Unit
  | [] => .ok ()
  | index :: indices => do
      let value ← validateIndexType self.typeErrorMessage index
      validateIndexBounds self.subject self.upperBound value
      if value ≤ previous then
        throw (.valueError
          s!"{self.subject} must be strictly ascending and unique, got {printTuple whole}")
      else self.validateAfter whole value indices

def IndexCheck.validateIndexSequence (self : IndexCheck) (indices : List Index) :
    Except Invalid Unit :=
  self.validateAfter indices (-1) indices

def validateFailureIndices (failures : List Index) (resultCount : Nat) :
    Except Invalid Unit :=
  IndexCheck.validateIndexSequence
    ⟨"failures", "failures index must be an int", some resultCount⟩ failures

/-- Original command positions, which the count of the results does not bound. -/
def validateSubmissionIndexValues (submissionIndices : List Index) : Except Invalid Unit :=
  IndexCheck.validateIndexSequence
    ⟨"submission_indices", "submission_indices must be ints", none⟩ submissionIndices

def resolveSubmissionIndices (submissionIndices : Option (List Index)) (resultCount : Nat) :
    Except Invalid (List Index) :=
  match submissionIndices with
  | none => .ok ((List.range resultCount).map .nat)
  | some indices => do
      if indices.length ≠ resultCount then
        throw (.valueError (s!"submission_indices length ({indices.length}) " ++
          s!"must match results length ({resultCount})"))
      else
        validateSubmissionIndexValues indices
        pure indices

/-! What the checks let through. -/

variable {self : IndexCheck} {whole indices : List Index} {previous : Int}

/-- Indices in ascending order, each from the first number allowed on. -/
inductive Ascending (upperBound : Option Nat) : Int → List Index → Prop
  | nil (previous : Int) : Ascending upperBound previous []
  | cons {previous value : Int} {indices : List Index} (later : previous < value)
      (natural : 0 ≤ value) (inside : ∀ bound ∈ upperBound, value < bound)
      (rest : Ascending upperBound value indices) :
      Ascending upperBound previous (.int value :: indices)

theorem validateIndexBounds_ok {subject : String} {upperBound : Option Nat} {index : Int} :
    validateIndexBounds subject upperBound index = .ok () ↔
      0 ≤ index ∧ ∀ bound ∈ upperBound, index < bound := by
  cases upperBound with
  | none => simp [validateIndexBounds]
  | some bound => simp [validateIndexBounds]

theorem validateAfter_ok :
    self.validateAfter whole previous indices = .ok () ↔
      Ascending self.upperBound previous indices := by
  induction indices generalizing previous with
  | nil => exact ⟨fun _ => .nil previous, fun _ => rfl⟩
  | cons index indices induction =>
      cases index with
      | other typeName printed =>
          constructor
          · exact nofun
          · exact nofun
      | int value =>
          constructor
          · intro passed
            simp only [IndexCheck.validateAfter, validateIndexType] at passed
            cases bounds : validateIndexBounds self.subject self.upperBound value with
            | error invalid =>
                simp [bounds, bind, Except.bind] at passed
            | ok =>
                obtain ⟨natural, inside⟩ := validateIndexBounds_ok.mp bounds
                simp only [bounds, bind, Except.bind] at passed
                split at passed
                · contradiction
                · next later =>
                    exact .cons (Int.not_le.mp later) natural inside (induction.mp passed)
          · intro ascending
            cases ascending with
            | cons later natural inside rest =>
                simp only [IndexCheck.validateAfter, validateIndexType, bind, Except.bind,
                  validateIndexBounds_ok.mpr ⟨natural, inside⟩,
                  if_neg (Int.not_le.mpr later)]
                exact induction.mpr rest

theorem ascending_iff {upperBound : Option Nat} :
    Ascending upperBound previous indices ↔
      ∃ numbers : List Nat, indices = numbers.map .nat ∧
        numbers.Pairwise (· < ·) ∧ (∀ number ∈ numbers, previous < (number : Int)) ∧
          ∀ number ∈ numbers, ∀ bound ∈ upperBound, number < bound := by
  constructor
  · intro ascending
    induction ascending with
    | nil => exact ⟨[], rfl, .nil, nofun, nofun⟩
    | @cons previous value indices later natural inside rest induction =>
        obtain ⟨numbers, rfl, sorted, above, below⟩ := induction
        obtain ⟨number, rfl⟩ := Int.eq_ofNat_of_zero_le natural
        refine ⟨number :: numbers, rfl, List.pairwise_cons.mpr ⟨?_, sorted⟩, ?_, ?_⟩
        · exact fun other member => Int.ofNat_lt.mp (above other member)
        · refine List.forall_mem_cons.mpr ⟨later, fun other member => ?_⟩
          exact Int.lt_trans later (above other member)
        · refine List.forall_mem_cons.mpr ⟨fun bound same => ?_, below⟩
          exact Int.ofNat_lt.mp (inside bound same)
  · rintro ⟨numbers, rfl, sorted, above, below⟩
    induction numbers generalizing previous with
    | nil => exact .nil previous
    | cons number numbers induction =>
        obtain ⟨first, sorted⟩ := List.pairwise_cons.mp sorted
        refine .cons (above number List.mem_cons_self) (Int.natCast_nonneg number) ?_ ?_
        · exact fun bound same => Int.ofNat_lt.mpr (below number List.mem_cons_self bound same)
        · refine induction sorted (fun other member => Int.ofNat_lt.mpr (first other member)) ?_
          exact fun other member => below other (List.mem_cons_of_mem _ member)

/-- Indices that are natural numbers in ascending order, below a bound if there is one. -/
structure Numbered (upperBound : Option Nat) (indices : List Index) (numbers : List Nat) :
    Prop where
  indices : indices = numbers.map .nat
  ascending : numbers.Pairwise (· < ·)
  inside : ∀ number ∈ numbers, ∀ bound ∈ upperBound, number < bound

theorem validateIndexSequence_ok :
    self.validateIndexSequence indices = .ok () ↔
      ∃ numbers, Numbered self.upperBound indices numbers := by
  rw [IndexCheck.validateIndexSequence, validateAfter_ok, ascending_iff]
  constructor
  · rintro ⟨numbers, same, ascending, -, inside⟩
    exact ⟨numbers, same, ascending, inside⟩
  · rintro ⟨numbers, same, ascending, inside⟩
    refine ⟨numbers, same, ascending, fun number _ => ?_, inside⟩
    exact Int.lt_of_lt_of_le (by decide) (Int.natCast_nonneg number)

theorem Numbered.toNat {upperBound : Option Nat} {numbers : List Nat}
    (numbered : Numbered upperBound indices numbers) : indices.map Index.toNat = numbers := by
  rw [numbered.indices, List.map_map]
  exact List.map_id'' (fun number => rfl) numbers

theorem Numbered.range (count : Nat) :
    Numbered none ((List.range count).map .nat) (List.range count) :=
  ⟨rfl, List.pairwise_lt_range, nofun⟩

theorem resolveSubmissionIndices_ok {submissionIndices : Option (List Index)}
    {resultCount : Nat} {resolved : List Index}
    (passed : resolveSubmissionIndices submissionIndices resultCount = .ok resolved) :
    resolved.length = resultCount ∧ ∃ numbers, Numbered none resolved numbers := by
  cases submissionIndices with
  | none =>
      cases passed
      exact ⟨by simp, _, .range resultCount⟩
  | some indices =>
      simp only [resolveSubmissionIndices] at passed
      split at passed
      · contradiction
      · next same =>
          cases checked : validateSubmissionIndexValues indices with
          | error invalid => simp [checked, bind, Except.bind] at passed
          | ok =>
              simp only [checked, bind, Except.bind] at passed
              cases passed
              exact ⟨Decidable.not_not.mp same, validateIndexSequence_ok.mp checked⟩

/-- The results of the commands that completed, each with the position it was submitted
at, and which of them failed. -/
structure ConcurrentResult (ρ : Type) where
  results : List ρ
  failures : List Nat
  submissionIndices : List Nat
  failuresAscending : failures.Pairwise (· < ·)
  failuresInside : ∀ failure ∈ failures, failure < results.length
  submissionAscending : submissionIndices.Pairwise (· < ·)
  parallel : submissionIndices.length = results.length

namespace ConcurrentResult

variable {ρ : Type}

def init (results : List ρ) (failures : List Index)
    (submissionIndices : Option (List Index)) : Except Invalid (ConcurrentResult ρ) :=
  match checked : validateFailureIndices failures results.length with
  | .error invalid => .error invalid
  | .ok () =>
      match resolved : resolveSubmissionIndices submissionIndices results.length with
      | .error invalid => .error invalid
      | .ok indices =>
          .ok
            { results
              failures := failures.map Index.toNat
              submissionIndices := indices.map Index.toNat
              failuresAscending := by
                obtain ⟨numbers, numbered⟩ := validateIndexSequence_ok.mp checked
                rw [numbered.toNat]
                exact numbered.ascending
              failuresInside := by
                obtain ⟨numbers, numbered⟩ := validateIndexSequence_ok.mp checked
                rw [numbered.toNat]
                exact fun failure member => numbered.inside failure member _ rfl
              submissionAscending := by
                obtain ⟨_, numbers, numbered⟩ := resolveSubmissionIndices_ok resolved
                rw [numbered.toNat]
                exact numbered.ascending
              parallel := by
                rw [List.length_map]
                exact (resolveSubmissionIndices_ok resolved).1 }

def failureSubmissionIndices (self : ConcurrentResult ρ) : List Nat :=
  self.failures.pmap (fun failure inside => self.submissionIndices.get ⟨failure, inside⟩)
    fun failure member => self.parallel ▸ self.failuresInside failure member

theorem map_failureSubmissionIndices (self : ConcurrentResult ρ) :
    self.failureSubmissionIndices.map some =
      self.failures.map (self.submissionIndices[·]?) := by
  rw [failureSubmissionIndices, List.map_pmap]
  rw [← List.pmap_eq_map fun failure member => self.failuresInside failure member]
  apply List.pmap_congr_left
  intro failure member inside _
  exact (List.getElem?_eq_getElem inside).symm

/-- Natural numbers that obey the constructor's rules are never rejected. -/
theorem init_numbered {results : List ρ} {failures submissions : List Nat}
    (ascending : failures.Pairwise (· < ·)) (inside : ∀ failure ∈ failures, failure < results.length)
    (submitted : submissions.Pairwise (· < ·)) (parallel : submissions.length = results.length) :
    ∃ result, init results (failures.map .nat)
        (some (submissions.map .nat)) = .ok result ∧
      result.results = results ∧ result.failures = failures ∧
        result.submissionIndices = submissions := by
  have checked : validateFailureIndices (failures.map .nat) results.length = .ok () :=
    validateIndexSequence_ok.mpr ⟨failures, rfl, ascending, fun failure member bound same => by
      cases same
      exact inside failure member⟩
  have numbered : Numbered none (submissions.map .nat) submissions := ⟨rfl, submitted, nofun⟩
  have resolved : resolveSubmissionIndices (some (submissions.map .nat)) results.length =
      .ok (submissions.map .nat) := by
    have valid : validateSubmissionIndexValues (submissions.map .nat) = .ok () :=
      validateIndexSequence_ok.mpr ⟨submissions, numbered⟩
    simp only [resolveSubmissionIndices, valid, List.length_map, parallel, ne_eq,
      not_true_eq_false, if_false]
    rfl
  have first : (failures.map Index.nat).map Index.toNat = failures := by
    rw [List.map_map]
    exact List.map_id'' (fun number => rfl) failures
  unfold init
  split
  · next invalid refused => exact nomatch checked.symm.trans refused
  · split
    · next invalid refused => exact nomatch resolved.symm.trans refused
    · next indices accepted =>
        cases resolved.symm.trans accepted
        exact ⟨_, rfl, rfl, first, numbered.toNat⟩

end ConcurrentResult

end Cuprum.Concurrent
