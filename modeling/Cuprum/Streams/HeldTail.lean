import Cuprum.Codec.Synchronizing
import Cuprum.Streams.Consume

namespace Cuprum.Streams

open Codec

/-! The bytes of UTF-8 that continue a sequence start none. -/

theorem isTail_of_isWord {lead : Nat} {rest : List Nat} (word : Utf8.IsWord (lead :: rest)) :
    ¬Utf8.IsTail lead ∧ ∀ other ∈ rest, Utf8.IsTail other := by
  rcases rest with _ | ⟨b, _ | ⟨c, _ | ⟨d, _ | ⟨e, rest⟩⟩⟩⟩
  · have leads : lead ≤ 0x7F := word
    exact ⟨fun tail => by have := tail.1; omega, by simp⟩
  · obtain ⟨leads, tail⟩ := word
    exact ⟨fun isTail => by have := isTail.2; omega, by simpa using tail⟩
  · obtain ⟨leads, second, tail⟩ := word
    exact ⟨fun isTail => by have := isTail.2; omega, by simpa using ⟨second.1, tail⟩⟩
  · obtain ⟨leads, second, third, tail⟩ := word
    exact ⟨fun isTail => by have := isTail.2; omega, by simpa using ⟨second.1, third, tail⟩⟩
  · exact word.elim

theorem utf8_synchronizing : Synchronizing utf8 fun byte => Utf8.IsTail byte.toNat := by
  have split : ∀ {c unit rest}, utf8.encode c = unit :: rest →
      ¬Utf8.IsTail unit.toNat ∧ ∀ other ∈ rest, Utf8.IsTail other.toNat := by
    intro c unit rest whole
    have word := Utf8.isWord_encode c
    rw [← utf8_encode, whole, List.map_cons] at word
    obtain ⟨leads, continues⟩ := isTail_of_isWord word
    exact ⟨leads, fun other member => continues _ (List.mem_map_of_mem member)⟩
  exact ⟨fun whole => (split whole).1, fun whole => (split whole).2⟩

theorem length_le_three {word : List UInt8} (isPartial : IsPartial utf8.encode word) :
    word.length ≤ 3 := by
  have partialWord := Utf8.isPartialWord_iff.mpr isPartial
  match word, partialWord with
  | [_], _ | [_, _], _ | [_, _, _], _ => simp

/-- The undecoded bytes are the longest suffix of those fed that a well-formed sequence could
still complete; no other suffix is one. -/
structure HeldTail (fed pending : List UInt8) : Prop where
  short : pending.length ≤ 3
  suffix : pending <:+ fed
  incomplete : pending = [] ∨ IsPartial utf8.encode pending
  longest : ∀ other, other <:+ fed → IsPartial utf8.encode other → other = pending

theorem heldTail_scan (fed : List UInt8) : HeldTail fed (utf8.scan fed).2 where
  short := by
    rcases utf8.scan_tail fed with empty | isPartial
    · simp [empty]
    · exact length_le_three isPartial
  suffix := utf8.scan_tail_suffix fed
  incomplete := utf8.scan_tail fed
  longest := fun _ isSuffix isPartial =>
    (PrefixCode.scan_partial_suffix utf8_synchronizing isPartial isSuffix).symm

theorem appendChunk_eq (output : List Char) (pending chunk : List UInt8) :
    appendChunk (output, pending) chunk =
      (output ++ render (utf8.scan (pending ++ chunk)).1, (utf8.scan (pending ++ chunk)).2) := by
  rw [appendChunk, decodeUtf8Replace_false]

/-- Whatever the output held at the start, the calls leave it as one scan of all the bytes
does. -/
theorem foldl_appendChunk_from (output : List Char) (chunks : List (List UInt8))
    (fed : List UInt8) :
    chunks.foldl appendChunk (output ++ render (utf8.scan fed).1, (utf8.scan fed).2) =
      (output ++ render (utf8.scan (fed ++ chunks.flatten)).1,
        (utf8.scan (fed ++ chunks.flatten)).2) := by
  induction chunks generalizing fed with
  | nil => simp
  | cons chunk chunks induction =>
      have once : appendChunk (output ++ render (utf8.scan fed).1, (utf8.scan fed).2) chunk =
          (output ++ render (utf8.scan (fed ++ chunk)).1, (utf8.scan (fed ++ chunk)).2) := by
        rw [appendChunk_eq, utf8.scan_append fed chunk]
        simp
      rw [List.foldl_cons, once, induction]
      simp

/-- One step of the scan resumes at `next`. -/
def Resumes (pending : List UInt8) (next offset : Nat) : Prop :=
  ∃ output, (scanOnce pending output offset).2 = .continueAt next

theorem wellFounded_resumes (pending : List UInt8) : WellFounded (Resumes pending) := by
  refine Subrelation.wf (r := fun next offset => pending.length - next < pending.length - offset)
    ?_ (measure fun offset => pending.length - offset).wf
  rintro next offset ⟨output, resumed⟩
  have advanced := scanOnce_continueAt resumed
  change pending.length - next < pending.length - offset
  omega

/-- After any chunks what is held is the incomplete suffix and the rest has been decoded, a
further chunk only adds to the output, and a scan that resumes has advanced. -/
theorem held_tail_exact (output : List Char) (chunks : List (List UInt8)) :
    HeldTail chunks.flatten (chunks.foldl appendChunk (output, [])).2 ∧
      (∃ front decoded,
        chunks.flatten = front ++ (chunks.foldl appendChunk (output, [])).2 ∧
          utf8.Lossy front decoded ∧
          (chunks.foldl appendChunk (output, [])).1 = output ++ render decoded) ∧
      (∀ chunk, (chunks.foldl appendChunk (output, [])).1 <+:
        (appendChunk (chunks.foldl appendChunk (output, [])) chunk).1) ∧
      ∀ pending, (∀ offset next, Resumes pending next offset →
        offset < next ∧ next < pending.length) ∧ WellFounded (Resumes pending) := by
  have reached : chunks.foldl appendChunk (output, []) =
      (output ++ render (utf8.scan chunks.flatten).1, (utf8.scan chunks.flatten).2) := by
    simpa using foldl_appendChunk_from output chunks []
  rw [reached]
  refine ⟨heldTail_scan _, ?_, fun chunk => ?_, fun pending => ⟨?_, wellFounded_resumes pending⟩⟩
  · obtain ⟨front, whole, lossy⟩ := utf8.lossy_scan chunks.flatten
    exact ⟨front, _, whole, lossy, rfl⟩
  · rw [appendChunk_eq]
    exact List.prefix_append _ _
  · rintro offset next ⟨output, resumed⟩
    exact scanOnce_continueAt resumed

end Cuprum.Streams
