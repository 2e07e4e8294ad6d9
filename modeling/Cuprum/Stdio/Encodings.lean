import Cuprum.Stdio.Options

namespace Cuprum.Stdio

open Cuprum.Text
open Cuprum.Executable (text)
open Cuprum.StageStreams (CapturePolicy)
open Cuprum.Startup (Stream)

variable {Object Error : Type}

/-- How a run renders what it captures. -/
structure Rendering where
  encoding : Str
  captureBytes : Bool

def repairableCodecs : List Str :=
  [text "utf-8", text "utf-16", text "utf-16-le", text "utf-16-be", text "utf-32",
    text "utf-32-le", text "utf-32-be"]

def markOnlyFamily : Str :=
  text "utf-8-sig"

/-- A decoder that refuses a byte, or that holds it back, ends the probe. -/
def isSingleByteOf (codec : CodecInfo Error) : List UInt8 → Except (Fault Error) Bool
  | [] => .ok true
  | byte :: bytes =>
      match codec.held byte with
      | .error error => .error (.raised error)
      | .ok none => .ok false
      | .ok (some (_ :: _)) => .ok false
      | .ok (some []) => isSingleByteOf codec bytes

def isSingleByte (codec : CodecInfo Error) : Except (Fault Error) Bool :=
  isSingleByteOf codec ((List.range 256).map UInt8.ofNat)

/-- A name that the registry does not know is left to fail at the decode. -/
def isTrimSafe (host : Host Object Error) (encoding : Str) : Except (Fault Error) Bool :=
  match host.lookup encoding with
  | .error error => .error (.raised error)
  | .ok none => .ok true
  | .ok (some codec) =>
      if codec.name ∈ repairableCodecs ∨ codec.name = markOnlyFamily then .ok true
      else isSingleByte codec

def isBounded : Option CapturePolicy → Bool
  | some (.bounded _) => true
  | _ => false

def rejectUnsupportedBoundedEncoding (host : Host Object Error)
    (capture : Option CapturePolicy) (rendering : Rendering) : Except (Fault Error) Unit :=
  if rendering.captureBytes || !isBounded capture then .ok ()
  else do
    let safe ← isTrimSafe host rendering.encoding
    if safe then .ok ()
    else .error (.valueError (text "BoundedCapture requires an encoding whose code-point " ++
      text "boundaries can be repaired after a cut; got " ++ host.repr (.str rendering.encoding) ++
      text ". Use FullCapture or FileBackedCapture for this stream, capture it as bytes, or " ++
      text "choose a single-byte or UTF encoding."))

def rejectUnsupportedBoundedCaptures (host : Host Object Error)
    (resolvedCapture : Stream → Option CapturePolicy) (rendering : Rendering) :
    Except (Fault Error) Unit := do
  rejectUnsupportedBoundedEncoding host (resolvedCapture .stdout) rendering
  rejectUnsupportedBoundedEncoding host (resolvedCapture .stderr) rendering

/-- A cut in the encoding can be repaired: it is not a codec, it is one whose boundaries can
be found again, or each of its bytes is a boundary. -/
inductive Host.Repairs (host : Host Object Error) (encoding : Str) : Prop
  | unknown (found : host.lookup encoding = .ok none)
  | repairable (codec : CodecInfo Error) (found : host.lookup encoding = .ok (some codec))
      (named : codec.name ∈ repairableCodecs ∨ codec.name = markOnlyFamily)
  | singleByte (codec : CodecInfo Error) (found : host.lookup encoding = .ok (some codec))
      (emits : ∀ byte, codec.held byte = .ok (some []))

theorem isSingleByteOf_ok {codec : CodecInfo Error} {bytes : List UInt8} :
    isSingleByteOf codec bytes = .ok true ↔ ∀ byte ∈ bytes, codec.held byte = .ok (some []) := by
  induction bytes with
  | nil => exact ⟨fun _ _ among => (by cases among), fun _ => rfl⟩
  | cons byte bytes induction =>
      rw [List.forall_mem_cons, ← induction]
      cases answer : codec.held byte with
      | error error => simp [isSingleByteOf, answer]
      | ok held =>
          cases held with
          | none => simp [isSingleByteOf, answer]
          | some held => cases held <;> simp [isSingleByteOf, answer]

theorem isSingleByte_ok {codec : CodecInfo Error} :
    isSingleByte codec = .ok true ↔ ∀ byte, codec.held byte = .ok (some []) := by
  rw [isSingleByte, isSingleByteOf_ok]
  constructor
  · intro emits byte
    apply emits byte
    refine List.mem_map.mpr ⟨byte.toNat, ?_, UInt8.ofNat_toNat⟩
    exact List.mem_range.mpr byte.toNat_lt
  · exact fun emits byte _ => emits byte

theorem isTrimSafe_ok {host : Host Object Error} {encoding : Str} :
    isTrimSafe host encoding = .ok true ↔ host.Repairs encoding := by
  unfold isTrimSafe
  constructor
  · intro safe
    cases found : host.lookup encoding with
    | error error =>
        rw [found] at safe
        cases safe
    | ok codec =>
        rw [found] at safe
        cases codec with
        | none => exact .unknown found
        | some codec =>
            by_cases named : codec.name ∈ repairableCodecs ∨ codec.name = markOnlyFamily
            · exact .repairable codec found named
            · simp only [if_neg named] at safe
              exact .singleByte codec found (isSingleByte_ok.mp safe)
  · intro repairs
    cases repairs with
    | unknown found => rw [found]
    | repairable codec found named => simp only [found, if_pos named]
    | singleByte codec found emits =>
        simp only [found]
        split
        next => rfl
        next => exact isSingleByte_ok.mpr emits

theorem rejectUnsupportedBoundedEncoding_ok {host : Host Object Error}
    {capture : Option CapturePolicy} {rendering : Rendering} :
    rejectUnsupportedBoundedEncoding host capture rendering = .ok () ↔
      (isBounded capture = true → rendering.captureBytes = false →
        host.Repairs rendering.encoding) := by
  unfold rejectUnsupportedBoundedEncoding
  by_cases exempt : (rendering.captureBytes || !isBounded capture) = true
  · rw [if_pos exempt]
    refine ⟨fun _ bounded renders => ?_, fun _ => rfl⟩
    rw [bounded, renders] at exempt
    cases exempt
  · rw [if_neg exempt, bind_ok]
    rw [Bool.or_eq_true, not_or, Bool.not_eq_true, Bool.not_eq_true', Bool.not_eq_false] at exempt
    obtain ⟨renders, bounded⟩ := exempt
    constructor
    · rintro ⟨safe, checked, accepts⟩ _ _
      cases safe with
      | true => exact isTrimSafe_ok.mp checked
      | false => cases accepts
    · intro repairs
      exact ⟨true, isTrimSafe_ok.mpr (repairs bounded renders), rfl⟩

theorem rejectUnsupportedBoundedCaptures_ok {host : Host Object Error}
    {resolvedCapture : Stream → Option CapturePolicy} {rendering : Rendering} :
    rejectUnsupportedBoundedCaptures host resolvedCapture rendering = .ok () ↔
      ∀ stream, isBounded (resolvedCapture stream) = true → rendering.captureBytes = false →
        host.Repairs rendering.encoding := by
  rw [rejectUnsupportedBoundedCaptures, next_ok, rejectUnsupportedBoundedEncoding_ok,
    rejectUnsupportedBoundedEncoding_ok]
  constructor
  · rintro ⟨stdout, stderr⟩ stream
    cases stream with
    | stdout => exact stdout
    | stderr => exact stderr
  · exact fun both => ⟨both .stdout, both .stderr⟩

end Cuprum.Stdio
