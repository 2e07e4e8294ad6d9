import Mathlib.Data.List.Infix

namespace Cuprum.Spill

/-- How a blocking call on the file comes out: the class of the `OSError` it raises, if it
does, how much of the data a failing write has accepted, and how much of what was pending
has landed if not all of it has to. -/
structure Answer where
  failure : Option String := none
  taken : Nat := 0
  landed : Nat := 0
  deriving DecidableEq

/-- A file behind its buffered writer: what is on the disk, what was at each call so far,
what is accepted and still pending, and how often its removal was attempted. -/
structure SpillFile where
  disk : List UInt8 := []
  seen : List (List UInt8) := []
  pending : List UInt8 := []
  closed : Bool := false
  removals : Nat := 0
  deriving DecidableEq

namespace SpillFile

def contents (file : SpillFile) : List UInt8 :=
  file.disk ++ file.pending

def land (file : SpillFile) (count : Nat) : SpillFile :=
  { file with
    disk := file.disk ++ file.pending.take count
    seen := file.seen ++ [file.disk ++ file.pending.take count]
    pending := file.pending.drop count }

def write (file : SpillFile) (data : List UInt8) (answer : Answer) : SpillFile :=
  let accepted := if answer.failure.isNone then data else data.take answer.taken
  { file with pending := file.pending ++ accepted }.land answer.landed

def flush (file : SpillFile) (answer : Answer) : SpillFile :=
  file.land (if answer.failure.isNone then file.pending.length else answer.landed)

/-- Closing flushes first, and closes even if that fails; a closed file stays as it is. -/
def close (file : SpillFile) (answer : Answer) : SpillFile :=
  if file.closed then file else { file.flush answer with pending := [], closed := true }

def unlink (file : SpillFile) : SpillFile :=
  { file with removals := file.removals + 1 }

/-- The file holds the first bytes of the stream, and held fewer of them before. -/
structure Holds (file : SpillFile) (stream : List UInt8) : Prop where
  contents : file.contents <+: stream
  seen : ∀ moment ∈ file.seen, moment <+: file.disk

variable {file : SpillFile} {stream : List UInt8}

theorem land_contents (file : SpillFile) (count : Nat) :
    (file.land count).contents = file.contents := by
  simp [contents, land]

@[simp] theorem write_contents (file : SpillFile) (data : List UInt8) (answer : Answer) :
    (file.write data answer).contents =
      file.contents ++ if answer.failure.isNone then data else data.take answer.taken := by
  rw [write, land_contents]
  simp [contents]

@[simp] theorem flush_contents (file : SpillFile) (answer : Answer) :
    (file.flush answer).contents = file.contents :=
  land_contents _ _

@[simp] theorem close_closed (file : SpillFile) (answer : Answer) :
    (file.close answer).closed = true := by
  unfold close
  split
  next closed => exact closed
  next => rfl

@[simp] theorem close_removals (file : SpillFile) (answer : Answer) :
    (file.close answer).removals = file.removals := by
  unfold close
  split <;> rfl

theorem flush_disk {answer : Answer} (returned : answer.failure = none) :
    (file.flush answer).disk = file.contents := by
  simp [flush, land, contents, returned]

theorem close_contents (file : SpillFile) (answer : Answer) :
    (file.close answer).contents <+: file.contents := by
  unfold close
  split
  next => exact List.prefix_refl _
  next =>
    rw [← flush_contents file answer]
    exact List.prefix_append_right_inj _ |>.mpr List.nil_prefix

namespace Holds

theorem disk (holds : file.Holds stream) : file.disk <+: stream :=
  (List.prefix_append _ _).trans holds.contents

theorem empty (stream : List UInt8) : ({} : SpillFile).Holds stream where
  contents := List.nil_prefix
  seen := fun _ member => nomatch member

theorem mono {longer : List UInt8} (holds : file.Holds stream) (more : stream <+: longer) :
    file.Holds longer where
  contents := holds.contents.trans more
  seen := holds.seen

theorem land (holds : file.Holds stream) (count : Nat) : (file.land count).Holds stream where
  contents := by
    rw [land_contents]
    exact holds.contents
  seen := by
    intro moment member
    rcases List.mem_append.mp member with earlier | last
    · exact (holds.seen moment earlier).trans (List.prefix_append _ _)
    · rw [List.mem_singleton.mp last]
      exact List.prefix_refl _

theorem write {data : List UInt8} {answer : Answer} (holds : file.Holds stream)
    (next : file.contents ++ data <+: stream) : (file.write data answer).Holds stream := by
  have accepted : SpillFile.Holds { file with
      pending := file.pending ++
        if answer.failure.isNone then data else data.take answer.taken } stream := by
    refine ⟨?_, holds.seen⟩
    change file.disk ++ (file.pending ++ _) <+: stream
    rw [← List.append_assoc]
    apply List.IsPrefix.trans ?_ next
    apply List.prefix_append_right_inj _ |>.mpr
    split
    · exact List.prefix_refl _
    · exact List.take_prefix _ _
  exact accepted.land answer.landed

theorem flush (holds : file.Holds stream) (answer : Answer) :
    (file.flush answer).Holds stream :=
  holds.land _

theorem close (holds : file.Holds stream) (answer : Answer) :
    (file.close answer).Holds stream where
  contents := (close_contents file answer).trans holds.contents
  seen := by
    unfold SpillFile.close
    split
    next => exact holds.seen
    next => exact (holds.flush answer).seen

theorem unlink (holds : file.Holds stream) : file.unlink.Holds stream where
  contents := holds.contents
  seen := holds.seen

end Holds

end SpillFile

end Cuprum.Spill
