import Cuprum.Executable.Paths

namespace Cuprum.Stdio

open Cuprum.PathName
open Cuprum.Text
open Cuprum.Executable (posix text)

inductive Kind
  | pipe
  | inherit
  | path
  | fd
  deriving DecidableEq, Repr

def Kind.value : Kind → String
  | .pipe => "pipe"
  | .inherit => "inherit"
  | .path => "path"
  | .fd => "fd"

def Kind.ofValue (value : Str) : Option Kind :=
  [Kind.pipe, .inherit, .path, .fd].find? fun kind => text kind.value = value

/-- What a caller may pass; an `object` is none of the others. -/
inductive Payload (Object : Type)
  | none
  | str (value : Str)
  | path (value : PurePath posix)
  | int (value : Int)
  | object (value : Object)

/-- What an `fd` target carries. -/
inductive Resource (Object : Type)
  | descriptor (fd : Nat)
  | str (value : Str)
  | object (value : Object)

inductive StdioTarget (Object : Type)
  | pipe
  | inherit
  | path (file : PurePath posix)
  | fd (resource : Resource Object)

inductive Fault (Error : Type)
  | valueError (message : Str)
  | unsupportedOperation (message : Str)
  | raised (error : Error)

/-- A codec of the registry. What its incremental decoder holds of a byte it is fed alone is
`none` where the decoder is missing, or raises what the probe of a codec catches. -/
structure CodecInfo (Error : Type) where
  name : Str
  held : UInt8 → Except Error (Option (List UInt8))

/-- What the platform, its codec registry and the caller's own objects answer. A `fileno` is
`none` where it raises `UnsupportedOperation`, a `lookup` where it raises `LookupError`. -/
structure Host (Object Error : Type) where
  repr : Payload Object → Str
  typeName : Object → Str
  posixNamed : Bool
  fileno : Object → Except Error (Option Int)
  filenoOfStr : Str → Error
  lookup : Str → Except Error (Option (CodecInfo Error))

variable {Object Error : Type}

def Resource.value : Resource Object → Payload Object
  | .descriptor fd => .int fd
  | .str value => .str value
  | .object value => .object value

def StdioTarget.kind : StdioTarget Object → Kind
  | .pipe => .pipe
  | .inherit => .inherit
  | .path _ => .path
  | .fd _ => .fd

def StdioTarget.value : StdioTarget Object → Payload Object
  | .pipe => .none
  | .inherit => .none
  | .path file => .path file
  | .fd resource => resource.value

section Init

variable (host : Host Object Error)

def rejectUnknownKind (kind : Str) : Fault Error :=
  .valueError (text "StdioTarget kind must be one of ['fd', 'inherit', 'path', 'pipe'], got " ++
    host.repr (.str kind))

def rejectUnexpectedPayload (kind : Kind) (value : Payload Object) : Fault Error :=
  .valueError (text "StdioTarget." ++ text kind.value ++ text "() takes no payload, got " ++
    host.repr value)

def rejectUnusableFd : Payload Object → Fault Error
  | .none => .valueError (text "StdioTarget.fd requires a descriptor or file object")
  | value => .valueError (text "StdioTarget.fd requires a descriptor or file object, got " ++
      host.repr value)

def rejectSentinelDescriptor (value : Int) : Fault Error :=
  .valueError (text "StdioTarget.fd cannot take the descriptor " ++ text (toString value) ++
    text ": negative values are subprocess sentinels (-1 is PIPE, -2 is STDOUT, -3 is " ++
      text "DEVNULL), not borrowed descriptors. Pass a real descriptor, or use " ++
      text "StdioTarget.pipe() or StdioTarget.inherit().")

/-- `StdioTarget.__post_init__`. -/
def StdioTarget.postInit (kind : Str) (value : Payload Object) :
    Except (Fault Error) (StdioTarget Object) :=
  match Kind.ofValue kind, value with
  | none, _ => .error (rejectUnknownKind host kind)
  | some .pipe, .none => .ok .pipe
  | some .pipe, value => .error (rejectUnexpectedPayload host .pipe value)
  | some .inherit, .none => .ok .inherit
  | some .inherit, value => .error (rejectUnexpectedPayload host .inherit value)
  | some .fd, .int value =>
      if value < 0 then .error (rejectSentinelDescriptor value)
      else .ok (.fd (.descriptor value.toNat))
  | some .fd, .str value => .ok (.fd (.str value))
  | some .fd, .object value => .ok (.fd (.object value))
  | some .fd, value => .error (rejectUnusableFd host value)
  | some .path, .str value => .ok (.path (.parse posix value))
  | some .path, .path file => .ok (.path file)
  | some .path, value =>
      .error (.valueError (text "StdioTarget.path requires a path, got " ++ host.repr value))

end Init

theorem Kind.ofValue_value (kind : Kind) : Kind.ofValue (text kind.value) = some kind := by
  cases kind <;> decide

theorem Kind.ofValue_iff {value : Str} {kind : Kind} :
    Kind.ofValue value = some kind ↔ text kind.value = value := by
  constructor
  · intro known
    simpa using List.find?_some known
  · rintro rfl
    exact kind.ofValue_value

/-- The payload as it is stored: a spelled path becomes the path it spells. -/
def Payload.normalized : Kind → Payload Object → Payload Object
  | .path, .str value => .path (.parse posix value)
  | _, value => value

/-- Building a target again from its own fields gives it back. -/
theorem StdioTarget.postInit_value (host : Host Object Error) (target : StdioTarget Object) :
    StdioTarget.postInit host (text target.kind.value) target.value = .ok target := by
  unfold StdioTarget.postInit
  rw [Kind.ofValue_value]
  cases target with
  | pipe => rfl
  | inherit => rfl
  | path file => rfl
  | fd resource => cases resource <;> rfl

theorem refused_or_eq {α ε : Type} {condition : Prop} [Decidable condition] {fault : ε}
    {value result : α}
    (accepts : (if condition then Except.error fault else .ok value) = .ok result) :
    ¬condition ∧ value = result := by
  split at accepts
  next => cases accepts
  next holds =>
    cases accepts
    exact ⟨holds, rfl⟩

/-- What is accepted is the kind that was named and the payload that was given. -/
theorem StdioTarget.of_postInit {host : Host Object Error} {kind : Str}
    {value : Payload Object} {target : StdioTarget Object}
    (accepts : StdioTarget.postInit host kind value = .ok target) :
    text target.kind.value = kind ∧ target.value = value.normalized target.kind := by
  unfold StdioTarget.postInit at accepts
  cases known : Kind.ofValue kind with
  | none =>
      rw [known] at accepts
      cases accepts
  | some named =>
      have spelled := Kind.ofValue_iff.mp known
      rw [known] at accepts
      cases named with
      | pipe =>
          cases value with
          | none =>
              cases accepts
              exact ⟨spelled, rfl⟩
          | str | path | int | object => cases accepts
      | inherit =>
          cases value with
          | none =>
              cases accepts
              exact ⟨spelled, rfl⟩
          | str | path | int | object => cases accepts
      | path =>
          cases value with
          | str | path =>
              cases accepts
              exact ⟨spelled, rfl⟩
          | none | int | object => cases accepts
      | fd =>
          cases value with
          | int value =>
              obtain ⟨real, same⟩ := refused_or_eq accepts
              cases same
              exact ⟨spelled, congrArg Payload.int (Int.toNat_of_nonneg (Int.not_lt.mp real))⟩
          | str | object =>
              cases accepts
              exact ⟨spelled, rfl⟩
          | none | path => cases accepts

end Cuprum.Stdio
