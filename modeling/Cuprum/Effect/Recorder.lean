import Cuprum.Effect.Program

namespace Cuprum.Effect

/-! Programs that record their deeds. -/

/-- How the deeds done between two states show in them. -/
structure Recorder (σ δ : Type) where
  did : σ → List δ → σ → Prop
  idle : ∀ state, did state [] state
  followed : ∀ {before middle after deeds rest},
    did before deeds middle → did middle rest after → did before (deeds ++ rest) after

namespace Recorder

variable {ε σ δ α β : Type} (recorder : Recorder σ δ)

/-- From any state, the deeds with which the program returns and those with which it
raises. -/
def Leaves (program : Program σ ε α) (returned : α → List δ → Prop)
    (raised : ε → List δ → Prop) : Prop :=
  ∀ before, Ends program
    (fun value after => ∃ deeds, recorder.did before deeds after ∧ returned value deeds)
    (fun error after => ∃ deeds, recorder.did before deeds after ∧ raised error deeds) before

namespace Leaves

variable {recorder} {returned : α → List δ → Prop} {raised : ε → List δ → Prop}

theorem mono {program : Program σ ε α} {wider : α → List δ → Prop}
    {worse : ε → List δ → Prop} (leaves : recorder.Leaves program returned raised)
    (returns : ∀ value deeds, returned value deeds → wider value deeds)
    (raises : ∀ error deeds, raised error deeds → worse error deeds) :
    recorder.Leaves program wider worse := by
  intro before
  refine (leaves before).mono ?_ ?_
  · rintro value after ⟨deeds, did, holds⟩
    exact ⟨deeds, did, returns value deeds holds⟩
  · rintro error after ⟨deeds, did, holds⟩
    exact ⟨deeds, did, raises error deeds holds⟩

theorem returns {value : α} (holds : returned value []) :
    recorder.Leaves (pure value : Program σ ε α) returned raised :=
  fun before => .returns ⟨[], recorder.idle before, holds⟩

theorem raises {error : ε} (holds : raised error []) :
    recorder.Leaves (throw error : Program σ ε α) returned raised :=
  fun before => .raises ⟨[], recorder.idle before, holds⟩

theorem updates {update : σ → σ} {updated : Unit → List δ → Prop} (deeds : List δ)
    (did : ∀ before, recorder.did before deeds (update before)) (holds : updated () deeds) :
    recorder.Leaves (modify update : Program σ ε Unit) updated raised :=
  fun before => .updates ⟨deeds, did before, holds⟩

theorem reads {read : σ → List δ → Prop} (holds : ∀ state, read state []) :
    recorder.Leaves (get : Program σ ε σ) read raised :=
  fun before => .reads ⟨[], recorder.idle before, holds before⟩

theorem attempt {answer : Option ε} {answered : Unit → List δ → Prop}
    (returns : answer = none → answered () [])
    (raises : ∀ error, answer = some error → raised error []) :
    recorder.Leaves (Effect.attempt answer) answered raised :=
  fun before => .attempt (fun silent => ⟨[], recorder.idle before, returns silent⟩)
    fun error answers => ⟨[], recorder.idle before, raises error answers⟩

theorem branch {condition : Prop} [Decidable condition] {first second : Program σ ε α}
    (holds : condition → recorder.Leaves first returned raised)
    (fails : ¬condition → recorder.Leaves second returned raised) :
    recorder.Leaves (if condition then first else second) returned raised :=
  fun before => .branch (fun decided => holds decided before) fun decided => fails decided before

theorem bind {program : Program σ ε α} {next : α → Program σ ε β}
    {settled : β → List δ → Prop} (carried : α → List δ → Prop)
    (first : recorder.Leaves program carried raised)
    (second : ∀ value deeds, carried value deeds → recorder.Leaves (next value)
      (fun result rest => settled result (deeds ++ rest))
      (fun error rest => raised error (deeds ++ rest))) :
    recorder.Leaves (program >>= next) settled raised := by
  intro before
  refine .bind ((first before).mono ?_ fun _ _ raises => raises)
  rintro value middle ⟨deeds, did, holds⟩
  refine (second value deeds holds middle).mono ?_ ?_
  · rintro result after ⟨rest, later, settles⟩
    exact ⟨deeds ++ rest, recorder.followed did later, settles⟩
  · rintro error after ⟨rest, later, fails⟩
    exact ⟨deeds ++ rest, recorder.followed did later, fails⟩

theorem handle {program : Program σ ε α} {handler : ε → Program σ ε α}
    (failed : ε → List δ → Prop) (body : recorder.Leaves program returned failed)
    (handled : ∀ error deeds, failed error deeds → recorder.Leaves (handler error)
      (fun result rest => returned result (deeds ++ rest))
      (fun worse rest => raised worse (deeds ++ rest))) :
    recorder.Leaves (tryCatch program handler) returned raised := by
  intro before
  refine .handle ((body before).mono (fun _ _ returns => returns) ?_)
  rintro error middle ⟨deeds, did, holds⟩
  refine (handled error deeds holds middle).mono ?_ ?_
  · rintro result after ⟨rest, later, settles⟩
    exact ⟨deeds ++ rest, recorder.followed did later, settles⟩
  · rintro worse after ⟨rest, later, fails⟩
    exact ⟨deeds ++ rest, recorder.followed did later, fails⟩

end Leaves

end Recorder

end Cuprum.Effect
