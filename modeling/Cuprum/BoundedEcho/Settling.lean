import Cuprum.BoundedEcho.Prefix
import Cuprum.BoundedEcho.Stateless
import Cuprum.Echo.Stream
import Cuprum.Echo.Utf8
import Cuprum.Iteration.Descent

namespace Cuprum.BoundedEcho

open Text Echo Iteration

def markerOf (codec : IncrementalCodec) (dropped : Nat) : List UInt8 :=
  (truncationMarker dropped codec).getD []

theorem truncationMarker_eq (codec : IncrementalCodec) (dropped : Nat) :
    truncationMarker dropped codec = some (markerOf codec dropped) := by
  obtain ⟨head, spelled⟩ := exists_markerHead codec
  rw [markerOf, spelled dropped]
  rfl

/-- A marker is as long as its count has digits, and its fixed text. -/
theorem exists_markerWidth (codec : IncrementalCodec) :
    ∃ width, ∀ dropped, (markerOf codec dropped).length = width + digits dropped := by
  obtain ⟨head, spelled⟩ := exists_markerHead codec
  refine ⟨head.length + 18, fun dropped => ?_⟩
  rw [markerOf, spelled dropped, Option.getD_some, List.length_append, asciiBytes,
    List.length_map, length_countText]
  omega

section Search

variable (limiter : EchoLineLimiter) (line : List UInt8) (finalization : LineFinalization)
  (settings : EchoSettings)

def budgetFor (dropped : Nat) : Nat :=
  limiter.maxLineBytes - finalization.ending.length - (markerOf settings.codec dropped).length

def prefixFor (dropped : Nat) : List UInt8 × List UInt8 :=
  cutPrefix line (budgetFor limiter finalization settings dropped) settings

def leftOut (dropped : Nat) : Nat :=
  finalization.sourceBytes - (prefixFor limiter line finalization settings dropped).1.length +
    finalization.omittedEndingBytes

variable {limiter line finalization settings}

theorem budgetFor_antitone {first second : Nat} (le : digits first ≤ digits second) :
    budgetFor limiter finalization settings second ≤
      budgetFor limiter finalization settings first := by
  obtain ⟨width, spelled⟩ := exists_markerWidth settings.codec
  rw [budgetFor, budgetFor, spelled, spelled]
  omega

theorem leftOut_le_of_digits {first second : Nat} (le : digits first ≤ digits second) :
    leftOut limiter line finalization settings first ≤
      leftOut limiter line finalization settings second := by
  have shorter := (cutPrefix_longest line
    (budgetFor limiter finalization settings second) settings).mono
      (cutPrefix_longest line (budgetFor limiter finalization settings first) settings)
      (budgetFor_antitone le)
  unfold leftOut prefixFor
  omega

theorem leftOut_monotone : Monotone (leftOut limiter line finalization settings) :=
  fun _ _ le => leftOut_le_of_digits (digits_monotone le)

theorem leftOut_congr {first second : Nat} (same : digits first = digits second) :
    leftOut limiter line finalization settings first =
      leftOut limiter line finalization settings second :=
  Nat.le_antisymm (leftOut_le_of_digits same.le) (leftOut_le_of_digits same.ge)

theorem leftOut_le (dropped : Nat) :
    leftOut limiter line finalization settings dropped ≤
      finalization.sourceBytes + finalization.omittedEndingBytes :=
  Nat.add_le_add_right (Nat.sub_le _ _) _

variable (limiter line finalization settings) in
/-- A search that ended in the round after `rounds` adjustments of the count. -/
structure Found (dropped passes rounds : Nat) (search : PrefixSearch) : Prop where
  inTime : rounds ≤ passes
  tried : search.tried = (List.range (rounds + 1)).map fun round =>
    (leftOut limiter line finalization settings)^[round] dropped
  cut : (search.retained, search.encoded) = prefixFor limiter line finalization settings
    ((leftOut limiter line finalization settings)^[rounds] dropped)
  unsettled : ∀ round < rounds, (leftOut limiter line finalization settings)^[round + 1] dropped ≠
    (leftOut limiter line finalization settings)^[round] dropped
  ended : search.settled = true ∧
      (leftOut limiter line finalization settings)^[rounds + 1] dropped =
        (leftOut limiter line finalization settings)^[rounds] dropped ∨
    search.settled = false ∧ rounds = passes ∧
      (leftOut limiter line finalization settings)^[rounds + 1] dropped ≠
        (leftOut limiter line finalization settings)^[rounds] dropped

theorem Found.next {dropped passes rounds : Nat} {search : PrefixSearch}
    (moved : leftOut limiter line finalization settings dropped ≠ dropped)
    (found : Found limiter line finalization settings
      (leftOut limiter line finalization settings dropped) passes rounds search) :
    Found limiter line finalization settings dropped (passes + 1) (rounds + 1)
      { search with tried := dropped :: search.tried } where
  inTime := Nat.succ_le_succ found.inTime
  tried := by
    rw [List.range_succ_eq_map, List.map_cons, List.map_map]
    exact congrArg (dropped :: ·) found.tried
  cut := found.cut
  unsettled := by
    intro round inside
    cases round with
    | zero => exact moved
    | succ round => exact found.unsettled round (Nat.lt_of_succ_lt_succ inside)
  ended := found.ended.imp_right fun last => ⟨last.1, congrArg Nat.succ last.2.1, last.2.2⟩

/-- Every count of the loop is no larger than the first. -/
theorem iterate_le {dropped : Nat}
    (falls : leftOut limiter line finalization settings dropped ≤ dropped) (rounds : Nat) :
    (leftOut limiter line finalization settings)^[rounds] dropped ≤ dropped :=
  leftOut_monotone.antitone_iterate_of_map_le falls (Nat.zero_le rounds)

section Errors

variable (limiter line finalization)
variable (settings : LineSettings)

/-- The scan beside the marker for a count meets no error but a `UnicodeError`. -/
def ReadsBeside (count : Nat) : Prop :=
  (encodePrefix line (budgetFor limiter finalization settings.hushed count) settings).isSome =
    true

instance (count : Nat) : Decidable (ReadsBeside limiter line finalization settings count) :=
  inferInstanceAs (Decidable (_ = true))

variable {limiter line finalization settings}

/-- A smaller count has more room beside its marker, in which more is read. -/
theorem ReadsBeside.of_le {first second : Nat} (le : first ≤ second)
    (reads : ReadsBeside limiter line finalization settings first) :
    ReadsBeside limiter line finalization settings second :=
  encodePrefix_isSome_of_le (budgetFor_antitone (digits_monotone le)) reads

theorem readsBeside_of_heeded (settings : EchoSettings) (count : Nat) :
    ReadsBeside limiter line finalization settings.toLineSettings count :=
  encodePrefix_isSome _ _ settings

theorem boundedPrefix_succ (dropped passes : Nat) :
    boundedPrefix limiter line finalization settings dropped (passes + 1) =
      if ReadsBeside limiter line finalization settings dropped then
        let cut := prefixFor limiter line finalization settings.hushed dropped
        let left := leftOut limiter line finalization settings.hushed dropped
        if left = dropped then some ⟨[dropped], true, cut.1, cut.2⟩
        else if passes = 0 then some ⟨[dropped], false, cut.1, cut.2⟩
        else (boundedPrefix limiter line finalization settings left passes).map
          fun search => { search with tried := dropped :: search.tried }
      else none := by
  rw [boundedPrefix, truncationMarker_eq]
  dsimp only
  have budget : limiter.maxLineBytes - finalization.ending.length -
      (markerOf settings.codec dropped).length =
        budgetFor limiter finalization settings.hushed dropped :=
    rfl
  rw [budget]
  cases found : encodePrefix line (budgetFor limiter finalization settings.hushed dropped)
      settings with
  | none => rw [if_neg (by simp [ReadsBeside, found])]
  | some cut =>
      rw [if_pos (by simp [ReadsBeside, found])]
      obtain rfl : cut = prefixFor limiter line finalization settings.hushed dropped :=
        encodePrefix_hushed found
      rfl

/-- The loop tries the iterates of `leftOut` until one repeats or its passes run out, if
it meets no error on its way. -/
theorem boundedPrefix_found {dropped : Nat} (passes : Nat)
    (falls : leftOut limiter line finalization settings.hushed dropped ≤ dropped) :
    ∃ rounds search,
      Found limiter line finalization settings.hushed dropped passes rounds search ∧
      boundedPrefix limiter line finalization settings dropped (passes + 1) =
        if ReadsBeside limiter line finalization settings
            ((leftOut limiter line finalization settings.hushed)^[rounds] dropped) then
          some search
        else none := by
  induction passes generalizing dropped with
  | zero =>
      by_cases same : leftOut limiter line finalization settings.hushed dropped = dropped
      · refine ⟨0, ⟨[dropped], true, _, _⟩, ⟨Nat.le_refl _, rfl, rfl, nofun, .inl ⟨rfl, same⟩⟩,
          ?_⟩
        rw [boundedPrefix_succ]
        simp only [if_pos same]
        rfl
      · refine ⟨0, ⟨[dropped], false, _, _⟩,
          ⟨Nat.le_refl _, rfl, rfl, nofun, .inr ⟨rfl, rfl, same⟩⟩, ?_⟩
        rw [boundedPrefix_succ]
        simp only [if_neg same, if_true]
        rfl
  | succ passes induction =>
      by_cases same : leftOut limiter line finalization settings.hushed dropped = dropped
      · refine ⟨0, ⟨[dropped], true, _, _⟩,
          ⟨Nat.zero_le _, rfl, rfl, nofun, .inl ⟨rfl, same⟩⟩, ?_⟩
        rw [boundedPrefix_succ]
        simp only [if_pos same]
        rfl
      · obtain ⟨rounds, search, found, ran⟩ := induction (leftOut_monotone falls)
        refine ⟨rounds + 1, _, found.next same, ?_⟩
        rw [boundedPrefix_succ]
        simp only [if_neg same, if_neg (Nat.succ_ne_zero passes), ran]
        by_cases reads : ReadsBeside limiter line finalization settings
            ((leftOut limiter line finalization settings.hushed)^[rounds + 1] dropped)
        · rw [if_pos reads, if_pos (reads.of_le (iterate_le falls (rounds + 1)))]
          exact congrArg (Option.map _) (if_pos reads)
        · rw [if_neg reads]
          refine ite_eq_right_iff.mpr fun _ => ?_
          exact congrArg (Option.map _) (if_neg reads)

end Errors

theorem Found.leftOut_cut {dropped passes rounds : Nat} {search : PrefixSearch}
    (found : Found limiter line finalization settings dropped passes rounds search) :
    finalization.sourceBytes - search.retained.length + finalization.omittedEndingBytes =
      (leftOut limiter line finalization settings)^[rounds + 1] dropped := by
  have retained : search.retained = _ := congrArg Prod.fst found.cut
  rw [Function.iterate_succ_apply', leftOut, ← retained]

theorem Found.tried_pairwise {dropped passes rounds : Nat} {search : PrefixSearch}
    (found : Found limiter line finalization settings dropped passes rounds search)
    (falls : leftOut limiter line finalization settings dropped ≤ dropped) :
    search.tried.Pairwise (· ≥ ·) := by
  have antitone := leftOut_monotone.antitone_iterate_of_map_le falls
  rw [found.tried, List.pairwise_map]
  exact List.pairwise_le_range.imp fun le => antitone le

/-- A count of at most fifteen digits settles within sixteen passes. -/
theorem Found.settles {dropped rounds : Nat} {search : PrefixSearch}
    (found : Found limiter line finalization settings dropped 15 rounds search)
    (falls : leftOut limiter line finalization settings dropped ≤ dropped)
    (short : dropped < 10 ^ 15) :
    search.settled = true ∧
      (leftOut limiter line finalization settings)^[rounds + 1] dropped =
        (leftOut limiter line finalization settings)^[rounds] dropped := by
  refine found.ended.resolve_right ?_
  intro exhausted
  obtain ⟨_, rfl, moved⟩ := exhausted
  have small : digits dropped <
      15 + digits ((leftOut limiter line finalization settings)^[15] dropped) := by
    have few := (digits_le_iff (by decide)).mpr short
    have some := digits_pos ((leftOut limiter line finalization settings)^[15] dropped)
    omega
  obtain ⟨round, le, same⟩ :=
    exists_settled leftOut_monotone digits_monotone leftOut_congr falls small
  rcases Nat.lt_or_eq_of_le le with inside | rfl
  · exact found.unsettled round inside same
  · exact moved same

end Search

/-- The marker of a finished line, cut down where its room is short. -/
def markerFor (settings : EchoSettings) (dropped budget : Nat) : List UInt8 :=
  if (markerOf settings.codec dropped).length ≤ budget then markerOf settings.codec dropped
  else (cutPrefix (asciiBytes (asciiMarkerText dropped)) budget settings).2

theorem fitMarker_markerOf (settings : LineSettings) (dropped budget : Nat) :
    fitMarker (markerOf settings.codec dropped) budget dropped settings =
      some (markerFor settings.hushed dropped budget) := by
  have spelled := isMarkerByte_asciiBytes (isMarkerChar_asciiMarkerText dropped)
  obtain ⟨cut, found⟩ :=
    Option.isSome_iff_exists.mp (encodePrefix_marker spelled budget settings)
  have same : markerOf settings.hushed.codec dropped = markerOf settings.codec dropped := rfl
  unfold fitMarker markerFor
  rw [same]
  split
  next => rfl
  next =>
    rw [encodeText_asciiMarker, ← encodePrefix_hushed found]
    simp only [Option.bind_eq_bind, Option.bind_some, found, Option.pure_def]

/-- The count a line's search begins with: everything is left out. -/
def everything (finalization : LineFinalization) : Nat :=
  finalization.sourceBytes + finalization.omittedEndingBytes

theorem finishLine_of_fits {limiter : EchoLineLimiter} {ending : List UInt8}
    (fits : limiter.sourceLineBytes + ending.length ≤ limiter.maxLineBytes)
    (settings : LineSettings) :
    (finishLine limiter ending settings).1 =
      some ⟨limiter.line, [], ending, 0, limiter.sourceLineBytes + ending.length⟩ := by
  have room : ending.length ≤ limiter.maxLineBytes := by omega
  simp only [finishLine, finalizationOf, if_pos fits, if_pos room]

theorem finishLine_of_exceeds {limiter : EchoLineLimiter} {ending : List UInt8}
    (exceeds : ¬ limiter.sourceLineBytes + ending.length ≤ limiter.maxLineBytes)
    (settings : LineSettings) :
    let finalization := finalizationOf limiter ending
    let left := leftOut limiter limiter.line finalization settings.hushed
    ∃ rounds search,
      Found limiter limiter.line finalization settings.hushed (everything finalization) 15
        rounds search ∧
      boundedPrefix limiter limiter.line finalization settings (everything finalization) 16 =
        (if ReadsBeside limiter limiter.line finalization settings
            (left^[rounds] (everything finalization)) then some search else none) ∧
      (finishLine limiter ending settings).1 =
        if ReadsBeside limiter limiter.line finalization settings
            (left^[rounds] (everything finalization)) then some
          { encoded := search.encoded
            marker := markerFor settings.hushed (left^[rounds + 1] (everything finalization))
              (limiter.maxLineBytes - search.encoded.length - finalization.ending.length)
            ending := finalization.ending
            droppedBytes := left^[rounds + 1] (everything finalization)
            sourceBytes := limiter.sourceLineBytes + ending.length }
        else none := by
  intro finalization left
  obtain ⟨rounds, search, found, ran⟩ := @boundedPrefix_found limiter limiter.line
    finalization settings (everything finalization) 15 (leftOut_le _)
  refine ⟨rounds, search, found, ran, ?_⟩
  have begun : boundedPrefix limiter limiter.line (finalizationOf limiter ending) settings
      ((finalizationOf limiter ending).sourceBytes +
        (finalizationOf limiter ending).omittedEndingBytes) 16 = _ := ran
  rw [← found.leftOut_cut]
  simp only [finishLine, if_neg exceeds, begun]
  split
  next =>
    simp only [Option.bind_eq_bind, Option.bind_some, truncationMarker_eq, fitMarker_markerOf,
      Option.pure_def, finalization]
  next => rfl

/-- Where every error is heeded the search comes to its end. -/
theorem finishLine_of_heeded {limiter : EchoLineLimiter} {ending : List UInt8}
    (exceeds : ¬ limiter.sourceLineBytes + ending.length ≤ limiter.maxLineBytes)
    (settings : EchoSettings) :
    let finalization := finalizationOf limiter ending
    let left := leftOut limiter limiter.line finalization settings
    ∃ rounds search,
      boundedPrefix limiter limiter.line finalization settings.toLineSettings
        (everything finalization) 16 = some search ∧
      Found limiter limiter.line finalization settings (everything finalization) 15 rounds
        search ∧
      (finishLine limiter ending settings.toLineSettings).1 = some
        { encoded := search.encoded
          marker := markerFor settings (left^[rounds + 1] (everything finalization))
            (limiter.maxLineBytes - search.encoded.length - finalization.ending.length)
          ending := finalization.ending
          droppedBytes := left^[rounds + 1] (everything finalization)
          sourceBytes := limiter.sourceLineBytes + ending.length } := by
  obtain ⟨rounds, search, found, ran, finished⟩ :=
    finishLine_of_exceeds exceeds settings.toLineSettings
  rw [if_pos (readsBeside_of_heeded settings _)] at ran finished
  rw [settings.hushed_eq] at found finished
  exact ⟨rounds, search, ran, found, finished⟩

/-- For a line of fewer than 10^14 bytes that exceeds its bound the counts tried never
rise, the loop ends by its equality test, and what it returns is consistent with the
marker that is then written. -/
theorem marker_count_settles (settings : EchoSettings) (maxLineBytes : Nat)
    (content ending : List UInt8)
    (terminator : ending ∈ [[], [lineFeed], [carriageReturn, lineFeed]])
    (short : content.length < 10 ^ 14)
    (exceeds : maxLineBytes < content.length + ending.length) :
    let limiter := fedLimiter maxLineBytes content false
    let finalization := finalizationOf limiter ending
    ∃ search finished,
      boundedPrefix limiter limiter.line finalization settings.toLineSettings
        (finalization.sourceBytes + finalization.omittedEndingBytes) 16 = some search ∧
      (finishLine limiter ending settings.toLineSettings).1 = some finished ∧
      search.tried.Pairwise (· ≥ ·) ∧ search.settled = true ∧
      finished.encoded = search.encoded ∧ finished.ending = finalization.ending ∧
      search.retained.length ≤ content.length ∧
      finished.droppedBytes = content.length - search.retained.length +
        (ending.length - finalization.ending.length) ∧
      ∃ marker, truncationMarker finished.droppedBytes settings.codec = some marker ∧
        LongestPrefix settings.toLineSettings (content.take maxLineBytes)
          (maxLineBytes - finished.ending.length - marker.length)
          search.retained search.encoded ∧
        (marker.length ≤ maxLineBytes - finished.encoded.length - finished.ending.length →
          finished.marker = marker) := by
  intro limiter finalization
  have tooLong : ¬ limiter.sourceLineBytes + ending.length ≤ limiter.maxLineBytes :=
    Nat.not_le_of_lt exceeds
  obtain ⟨rounds, search, ran, found, finished⟩ := finishLine_of_heeded tooLong settings
  have ends : ending.length ≤ 2 := by
    simp only [List.mem_cons, List.not_mem_nil, or_false] at terminator
    rcases terminator with rfl | rfl | rfl <;> simp
  have omitted : finalization.omittedEndingBytes =
      ending.length - finalization.ending.length := by
    simp only [finalization, finalizationOf]
    split <;> split <;> simp <;> omega
  have begun : everything finalization < 10 ^ 15 := by
    have bytes : finalization.sourceBytes = content.length := rfl
    rw [everything, bytes, omitted]
    omega
  obtain ⟨settled, same⟩ := found.settles (leftOut_le _) begun
  have longest : LongestPrefix settings.toLineSettings limiter.line
      (budgetFor limiter finalization settings
        ((leftOut limiter limiter.line finalization settings)^[rounds]
          (everything finalization))) search.retained search.encoded := by
    have cut := cutPrefix_longest limiter.line (budgetFor limiter finalization settings
      ((leftOut limiter limiter.line finalization settings)^[rounds]
        (everything finalization))) settings
    have equal := found.cut
    rw [prefixFor] at equal
    rwa [← equal] at cut
  refine ⟨search, _, ran, finished, found.tried_pairwise (leftOut_le _), settled, rfl, rfl,
    ?_, ?_, _, truncationMarker_eq _ _, ?_, fun fits => if_pos fits⟩
  · exact longest.isPrefix.length_le.trans (List.length_take_le' _ _)
  · rw [← omitted]
    exact found.leftOut_cut.symm
  · rw [same]
    exact longest

/-- Sixty letters and a line feed, within forty bytes of a UTF-8 text sink. -/
theorem marker_count_settles_utf8 :
    let limiter := fedLimiter 40 (List.replicate 60 0x61) false
    ∃ search, boundedPrefix limiter limiter.line (finalizationOf limiter [lineFeed])
        (incrementally ⟨utf8Codec, replaceErrors, true⟩) 60 16 = some search ∧
      search.settled = true := by
  intro limiter
  obtain ⟨search, _, ran, _, _, settled, _⟩ :=
    marker_count_settles
      (heedfully ⟨utf8Codec, replaceErrors, true⟩ ⟨fun _ => rfl, fun _ => rfl⟩) 40
      (List.replicate 60 0x61) [lineFeed] (by decide) (by decide) (by decide)
  exact ⟨search, ran, settled⟩

end Cuprum.BoundedEcho
