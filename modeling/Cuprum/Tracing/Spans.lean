import Cuprum.Tracing.Hook

namespace Cuprum.Tracing

open Transition

/-! What a backend that may raise leaves on a span. -/

namespace Tracer

variable (tracer : Tracer)

theorem perform_made (span : Nat) (calls writes : List SpanCall) :
    ∃ made, made <+: writes ∧ tracer.perform span calls writes = calls ++ made := by
  induction writes generalizing calls with
  | nil => exact ⟨[], List.nil_prefix, (List.append_nil calls).symm⟩
  | cons call writes induction =>
      rw [perform]
      split
      next =>
        obtain ⟨made, within, same⟩ := induction (calls ++ [call])
        refine ⟨call :: made, List.cons_prefix_cons.mpr ⟨rfl, within⟩, ?_⟩
        rw [same, List.append_assoc, List.singleton_append]
      next => exact ⟨[call], List.cons_prefix_cons.mpr ⟨rfl, List.nil_prefix⟩, rfl⟩

variable {tracer}

theorem Reliable.perform (reliable : tracer.Reliable) (span : Nat)
    (calls writes : List SpanCall) :
    tracer.perform span calls writes = calls ++ writes := by
  induction writes generalizing calls with
  | nil => exact (List.append_nil calls).symm
  | cons call writes induction =>
      rw [Tracer.perform, if_pos (reliable.returns span calls call), induction,
        List.append_assoc, List.singleton_append]

end Tracer

/-- The span is not written to after it has ended. -/
def ActiveSpan.Silent (active : ActiveSpan) : Prop :=
  .end_ ∉ active.calls.dropLast ∧ (active.isClosed = false → .end_ ∉ active.calls)

namespace ActiveSpan

variable {active : ActiveSpan}

theorem Silent.write (silent : active.Silent) (opened : active.isClosed = false)
    (tracer : Tracer) (span : Nat) {writes : List SpanCall} (plain : .end_ ∉ writes) :
    ({ active with
      isClosed := false
      calls := tracer.perform span active.calls writes } : ActiveSpan).Silent := by
  obtain ⟨made, within, same⟩ := tracer.perform_made span active.calls writes
  have none : .end_ ∉ active.calls ++ made := by
    intro member
    rcases List.mem_append.mp member with old | new
    · exact silent.2 opened old
    · exact plain (within.subset new)
  rw [Silent, same]
  exact ⟨fun member => none (List.dropLast_subset _ member), fun _ => none⟩

theorem Silent.close (silent : active.Silent) (opened : active.isClosed = false)
    (tracer : Tracer) (span : Nat) {body : List SpanCall} (plain : .end_ ∉ body) :
    ({ active with
      isClosed := true
      calls := tracer.perform span active.calls (body ++ [.end_]) } : ActiveSpan).Silent := by
  obtain ⟨made, within, same⟩ := tracer.perform_made span active.calls (body ++ [.end_])
  refine ⟨?_, nofun⟩
  rw [same]
  intro member
  rcases List.prefix_concat_iff.mp within with rfl | shorter
  · rw [← List.append_assoc, List.dropLast_concat] at member
    rcases List.mem_append.mp member with old | new
    · exact silent.2 opened old
    · exact plain new
  · rcases List.mem_append.mp (List.dropLast_subset _ member) with old | new
    · exact silent.2 opened old
    · exact plain (shorter.subset new)

theorem Silent.nothing_after (silent : active.Silent) {front back : List SpanCall}
    (split : active.calls = front ++ .end_ :: back) : back = [] := by
  rcases List.eq_nil_or_concat back with rfl | ⟨rest, last, rfl⟩
  · rfl
  · apply absurd _ silent.1
    rw [split, List.concat_eq_append, ← List.cons_append, ← List.append_assoc,
      List.dropLast_concat]
    exact List.mem_append_right _ List.mem_cons_self

theorem Silent.count_le_one (silent : active.Silent) : active.calls.count .end_ ≤ 1 := by
  rcases List.eq_nil_or_concat active.calls with empty | ⟨front, last, same⟩
  · rw [empty]
    exact Nat.zero_le 1
  · have none := silent.1
    rw [same, List.concat_eq_append, List.dropLast_concat] at none
    rw [same, List.concat_eq_append, List.count_append, List.count_eq_zero.mpr none,
      Nat.zero_add]
    exact List.count_le_length

end ActiveSpan

namespace Handler

/-- The handler has no span that is its own to install or to close. -/
structure Bare (handler : Handler) : Prop where
  installs : ∀ execId span, handler ≠ .installing execId span
  closes : ∀ span writes, handler ≠ .closing span writes

/-- Only a handler that closes a span ends it, and with its last call. -/
def Quiet : Handler → Prop
  | .looking _ writes => .end_ ∉ writes
  | .writing _ writes => .end_ ∉ writes
  | .closing _ writes => ∃ body, writes = body ++ [.end_] ∧ .end_ ∉ body
  | _ => True

theorem bare_done : Bare .done :=
  ⟨nofun, nofun⟩

theorem bare_looking (execId : ExecId) (writes : List SpanCall) :
    Bare (.looking execId writes) :=
  ⟨nofun, nofun⟩

theorem bare_writing (span : Nat) (writes : List SpanCall) : Bare (.writing span writes) :=
  ⟨nofun, nofun⟩

theorem quiet_addEvent (execId : ExecId) (name : String) (attributes : Attributes) :
    Quiet (.looking execId [.addEvent name attributes]) := by
  simp [Quiet]

theorem quiet_closeSpanCalls (span : Nat) (ok : Bool) :
    Quiet (.closing span (TracingHook.closeSpanCalls ok)) :=
  ⟨[.setStatus ok], rfl, by simp⟩

theorem quiet_settledCalls (span : Nat) (outcome : TerminalOutcome) :
    Quiet (.closing span (TracingHook.settledCalls outcome)) :=
  ⟨[.setAttribute _ _, .setStatus _], rfl, by simp⟩

end Handler

theorem recordSpanEvent_fits (event : ExecEvent) :
    (recordSpanEvent event).Bare ∧ (recordSpanEvent event).Quiet := by
  unfold recordSpanEvent
  split
  next => exact ⟨Handler.bare_done, trivial⟩
  next => exact ⟨Handler.bare_looking .., Handler.quiet_addEvent _ _ _⟩

theorem handleEvent_fits (recordOutput : Bool) (event : ExecEvent) :
    (handleEvent recordOutput event).Bare ∧ (handleEvent recordOutput event).Quiet := by
  have idle : Handler.Bare .done ∧ Handler.Quiet .done := ⟨Handler.bare_done, trivial⟩
  have recorded := recordSpanEvent_fits event
  unfold handleEvent
  split
  case h_3 =>
    unfold handleStart
    split
    next => exact idle
    next => exact ⟨⟨nofun, nofun⟩, trivial⟩
  case h_12 =>
    unfold recordFailFast
    split
    next => exact idle
    next => exact ⟨Handler.bare_looking .., Handler.quiet_addEvent _ _ _⟩
  case h_13 =>
    unfold handleExit
    split
    next => exact idle
    next =>
      refine ⟨Handler.bare_looking .., ?_⟩
      simp [Handler.Quiet, writeExitAttributes]
  case h_14 =>
    unfold handleSettled
    split
    next => exact ⟨⟨nofun, nofun⟩, trivial⟩
    next => exact idle
  all_goals first
    | exact idle
    | exact recorded
    | split <;> first | exact recorded | exact idle

/-- A handler starts out with no span, whatever it is delivered. -/
theorem Delivery.handler_fits (recordOutput : Bool) (delivery : Delivery) :
    (delivery.handler recordOutput).Bare ∧ (delivery.handler recordOutput).Quiet := by
  cases delivery with
  | exec event => exact handleEvent_fits recordOutput event
  | control execId name attributes =>
      cases execId with
      | none => exact ⟨Handler.bare_done, trivial⟩
      | some execId => exact ⟨Handler.bare_looking .., Handler.quiet_addEvent _ _ _⟩
  | lineStream event => exact ⟨Handler.bare_looking .., Handler.quiet_addEvent _ _ _⟩
  | pump event =>
      unfold Delivery.handler recordPumpEvent
      dsimp only
      split
      next => exact ⟨Handler.bare_looking .., Handler.quiet_addEvent _ _ _⟩
      next => exact ⟨Handler.bare_done, trivial⟩

/-- A span that is open is in the registry, about to be put there or about to be closed,
and is so in one way only. -/
structure Sound (state : TracingHook) : Prop where
  unopened : ∀ span, state.spanCount ≤ span → state.spans span = none
  idle : ∀ handler, state.handlerCount ≤ handler → state.handlers handler = .done
  quiet : ∀ handler, (state.handlers handler).Quiet
  silent : ∀ span active, state.spans span = some active → active.Silent
  registered : ∀ execId span, state.activeSpans execId = some span →
    ∃ active, state.spans span = some active ∧ active.execId = execId ∧
      active.isClosed = false
  installing : ∀ handler execId span, state.handlers handler = .installing execId span →
    (∃ active, state.spans span = some active ∧ active.execId = execId ∧
      active.isClosed = false) ∧ state.activeSpans execId ≠ some span
  once : ∀ handler other execId again span,
    state.handlers handler = .installing execId span →
      state.handlers other = .installing again span → handler = other
  closing : ∀ handler span writes, state.handlers handler = .closing span writes →
    state.spans span ≠ none ∧ (∀ execId, state.activeSpans execId ≠ some span) ∧
      ∀ other execId, state.handlers other ≠ .installing execId span
  placed : ∀ span active, state.spans span = some active → active.isClosed = false →
    state.activeSpans active.execId = some span ∨
      (∃ handler, state.handlers handler = .installing active.execId span) ∨
        ∃ handler writes, state.handlers handler = .closing span writes

theorem update_eq_iff {α β : Type} [DecidableEq α] {f : α → β} {index other : α}
    {value found : β} :
    Function.update f index value other = found ↔
      other = index ∧ value = found ∨ other ≠ index ∧ f other = found := by
  by_cases same : other = index
  · subst same
    simp
  · simp [same]

namespace Sound

variable {state : TracingHook}

theorem initially : Sound .initial := by
  constructor <;> simp [TracingHook.initial, Handler.Quiet]

theorem registered_alone (sound : Sound state) {execId : ExecId} {span : Nat}
    (mapped : state.activeSpans execId = some span) :
    (∀ other, state.activeSpans other = some span → other = execId) ∧
      (∀ handler other, state.handlers handler ≠ .installing other span) ∧
        ∀ handler writes, state.handlers handler ≠ .closing span writes := by
  obtain ⟨active, known, same, _⟩ := sound.registered execId span mapped
  refine ⟨?_, ?_, ?_⟩
  · intro other again
    obtain ⟨_, found, equal, _⟩ := sound.registered other span again
    cases known.symm.trans found
    exact equal.symm.trans same
  · intro handler other installs
    obtain ⟨⟨_, found, equal, _⟩, parted⟩ := sound.installing handler other span installs
    cases known.symm.trans found
    exact parted (equal.symm.trans same ▸ mapped)
  · intro handler writes closes
    exact (sound.closing handler span writes closes).2.1 execId mapped

/-! A handler that goes on, and the others beside it. -/

section Update

variable {handler : Nat} {next : Handler}

theorem idle_update (sound : Sound state) {count other : Nat} (counts : state.handlerCount ≤ count)
    (counted : handler < count) (beyond : count ≤ other) :
    Function.update state.handlers handler next other = .done :=
  update_eq_iff.mpr (.inr ⟨by omega, sound.idle other (Nat.le_trans counts beyond)⟩)

theorem quiet_update (sound : Sound state) (quiet : next.Quiet) (other : Nat) :
    (Function.update state.handlers handler next other).Quiet := by
  by_cases same : other = handler
  · rwa [same, Function.update_self]
  · rw [Function.update_of_ne same]
    exact sound.quiet other

/-- An open span that is not this handler's is where it was. -/
theorem placed_update (sound : Sound state) {span : Nat} {active : ActiveSpan}
    (known : state.spans span = some active) (opened : active.isClosed = false)
    (installs : state.handlers handler ≠ .installing active.execId span)
    (closes : ∀ writes, state.handlers handler ≠ .closing span writes) :
    state.activeSpans active.execId = some span ∨
      (∃ other, Function.update state.handlers handler next other =
        .installing active.execId span) ∨
        ∃ other writes, Function.update state.handlers handler next other =
          .closing span writes := by
  rcases sound.placed span active known opened with mapped | ⟨other, holds⟩ |
    ⟨other, writes, holds⟩
  · exact .inl mapped
  · have differ : other ≠ handler := fun same => installs (same ▸ holds)
    exact .inr (.inl ⟨other, update_eq_iff.mpr (.inr ⟨differ, holds⟩)⟩)
  · have differ : other ≠ handler := fun same => closes writes (same ▸ holds)
    exact .inr (.inr ⟨other, writes, update_eq_iff.mpr (.inr ⟨differ, holds⟩)⟩)

end Update

/-- A handler that has nothing to install, nor an open span to close, goes on so. -/
theorem move (sound : Sound state) {handler count : Nat} {next : Handler}
    (installs : ∀ execId span, state.handlers handler ≠ .installing execId span)
    (closes : ∀ span writes, state.handlers handler = .closing span writes →
      ∃ active, state.spans span = some active ∧ active.isClosed = true)
    (bare : next.Bare) (quiet : next.Quiet) (counts : state.handlerCount ≤ count)
    (counted : handler < count) :
    Sound { state.setHandler handler next with handlerCount := count } := by
  have installing : ∀ {other execId span},
      (state.setHandler handler next).handlers other = .installing execId span →
        state.handlers other = .installing execId span := by
    intro other execId span installs
    rcases update_eq_iff.mp installs with ⟨_, same⟩ | ⟨_, old⟩
    · exact absurd same (bare.installs execId span)
    · exact old
  refine { sound with
    idle := fun other beyond => sound.idle_update counts counted beyond
    quiet := sound.quiet_update quiet
    installing := fun other execId span installs =>
      sound.installing other execId span (installing installs)
    once := fun first second execId again span installs other =>
      sound.once first second execId again span (installing installs) (installing other)
    closing := ?closing
    placed := ?placed }
  case closing =>
    intro other span writes closes
    rcases update_eq_iff.mp closes with ⟨_, same⟩ | ⟨_, old⟩
    · exact absurd same (bare.closes span writes)
    · obtain ⟨known, parted, free⟩ := sound.closing other span writes old
      exact ⟨known, parted, fun holder execId installs =>
        free holder execId (installing installs)⟩
  case placed =>
    intro span active known opened
    refine sound.placed_update known opened (installs _ _) fun writes holds => ?_
    obtain ⟨other, found, closed⟩ := closes span writes holds
    cases known.symm.trans found
    rw [opened] at closed
    cases closed

/-- A span is written to, and closed only by the handler it is left to. -/
theorem amend (sound : Sound state) {span : Nat} {active after : ActiveSpan}
    (known : state.spans span = some active) (silent : after.Silent)
    (same : after.execId = active.execId)
    (keeps : after.isClosed = active.isClosed ∨
      (∀ execId, state.activeSpans execId ≠ some span) ∧
        (∀ handler execId, state.handlers handler ≠ .installing execId span) ∧
          after.isClosed = true) :
    Sound { state with spans := Function.update state.spans span (some after) } := by
  have opened : ∀ {other execId}, (state.activeSpans execId = some other ∨
      ∃ handler, state.handlers handler = .installing execId other) →
      (∃ found, state.spans other = some found ∧ found.execId = execId ∧
        found.isClosed = false) →
      ∃ found, Function.update state.spans span (some after) other = some found ∧
        found.execId = execId ∧ found.isClosed = false := by
    intro other execId owned open_
    obtain ⟨found, old, equal, unclosed⟩ := open_
    by_cases differ : other = span
    · subst differ
      cases known.symm.trans old
      refine ⟨after, Function.update_self .., same.trans equal, ?_⟩
      rcases keeps with kept | ⟨unmapped, uninstalled, _⟩
      · exact kept.trans unclosed
      · rcases owned with mapped | ⟨handler, installs⟩
        · exact absurd mapped (unmapped execId)
        · exact absurd installs (uninstalled handler execId)
    · exact ⟨found, (Function.update_of_ne differ ..).trans old, equal, unclosed⟩
  refine { sound with
    unopened := ?_
    silent := ?_
    registered := fun execId other mapped =>
      opened (.inl mapped) (sound.registered execId other mapped)
    installing := fun handler execId other installs =>
      ⟨opened (.inr ⟨handler, installs⟩) (sound.installing handler execId other installs).1,
        (sound.installing handler execId other installs).2⟩
    closing := ?_
    placed := ?_ }
  · intro other beyond
    have none := sound.unopened other beyond
    refine update_eq_iff.mpr (.inr ⟨?_, none⟩)
    intro equal
    subst equal
    cases none.symm.trans known
  · intro other found written
    rcases update_eq_iff.mp written with ⟨_, now⟩ | ⟨_, old⟩
    · cases now
      exact silent
    · exact sound.silent other found old
  · intro handler other writes closes
    obtain ⟨exists_, rest⟩ := sound.closing handler other writes closes
    refine ⟨?_, rest⟩
    intro none
    rcases update_eq_iff.mp none with ⟨_, now⟩ | ⟨_, old⟩
    · cases now
    · exact exists_ old
  · intro other found written unclosed
    rcases update_eq_iff.mp written with ⟨rfl, now⟩ | ⟨_, old⟩
    · cases now
      rw [same]
      rcases keeps with kept | ⟨_, _, closed⟩
      · exact sound.placed other active known (kept.symm.trans unclosed)
      · rw [unclosed] at closed
        cases closed
    · exact sound.placed other found old unclosed

/-! The span that is started next. -/

theorem unmapped_fresh (sound : Sound state) (execId : ExecId) :
    state.activeSpans execId ≠ some state.spanCount := by
  intro mapped
  obtain ⟨_, known, _⟩ := sound.registered execId _ mapped
  cases (sound.unopened _ (Nat.le_refl _)).symm.trans known

theorem uninstalled_fresh (sound : Sound state) (handler : Nat) (execId : ExecId) :
    state.handlers handler ≠ .installing execId state.spanCount := by
  intro installs
  obtain ⟨_, known, _⟩ := (sound.installing handler execId _ installs).1
  cases (sound.unopened _ (Nat.le_refl _)).symm.trans known

theorem spans_fresh (sound : Sound state) {value : Option ActiveSpan} {span : Nat} {active : ActiveSpan}
    (known : state.spans span = some active) :
    Function.update state.spans state.spanCount value span = some active := by
  refine update_eq_iff.mpr (.inr ⟨?_, known⟩)
  rintro rfl
  cases (sound.unopened _ (Nat.le_refl _)).symm.trans known

/-- A handler that has nothing yet starts a span and is to install it. -/
theorem start (sound : Sound state) {handler : Nat} (bare : (state.handlers handler).Bare)
    (counted : handler < state.handlerCount) (execId : ExecId) (name : String)
    (attributes : Attributes) :
    Sound { state.setHandler handler (.installing execId state.spanCount) with
      spans := Function.update state.spans state.spanCount
        (some ⟨execId, name, attributes, [], false⟩)
      spanCount := state.spanCount + 1 } := by
  refine {
    unopened := ?unopened
    idle := fun other beyond => sound.idle_update (Nat.le_refl _) counted beyond
    quiet := sound.quiet_update trivial
    silent := ?silent
    registered := ?registered
    installing := ?installing
    once := ?once
    closing := ?closing
    placed := ?placed }
  case unopened =>
    intro span beyond
    have beyond : state.spanCount + 1 ≤ span := beyond
    exact update_eq_iff.mpr (.inr ⟨by omega, sound.unopened span (by omega)⟩)
  case silent =>
    intro span active known
    rcases update_eq_iff.mp known with ⟨_, now⟩ | ⟨_, old⟩
    · cases now
      exact ⟨List.not_mem_nil, fun _ => List.not_mem_nil⟩
    · exact sound.silent span active old
  case registered =>
    intro other span mapped
    obtain ⟨active, known, rest⟩ := sound.registered other span mapped
    exact ⟨active, sound.spans_fresh known, rest⟩
  case installing =>
    intro other again span installs
    rcases update_eq_iff.mp installs with ⟨_, now⟩ | ⟨_, old⟩
    · cases now
      exact ⟨⟨_, Function.update_self .., rfl, rfl⟩, sound.unmapped_fresh execId⟩
    · obtain ⟨⟨active, known, rest⟩, parted⟩ := sound.installing other again span old
      exact ⟨⟨active, sound.spans_fresh known, rest⟩, parted⟩
  case once =>
    intro first second one two span installs again
    rcases update_eq_iff.mp installs with ⟨rfl, now⟩ | ⟨_, old⟩
    · rcases update_eq_iff.mp again with ⟨rfl, _⟩ | ⟨_, other⟩
      · rfl
      · cases now
        exact absurd other (sound.uninstalled_fresh second two)
    · rcases update_eq_iff.mp again with ⟨rfl, now⟩ | ⟨_, other⟩
      · cases now
        exact absurd old (sound.uninstalled_fresh first one)
      · exact sound.once first second one two span old other
  case closing =>
    intro other span writes closes
    rcases update_eq_iff.mp closes with ⟨_, now⟩ | ⟨_, old⟩
    · cases now
    · obtain ⟨known, parted, free⟩ := sound.closing other span writes old
      refine ⟨?_, parted, ?_⟩
      · intro none
        rcases update_eq_iff.mp none with ⟨_, now⟩ | ⟨_, gone⟩
        · cases now
        · exact known gone
      · intro holder again installs
        rcases update_eq_iff.mp installs with ⟨_, now⟩ | ⟨_, old⟩
        · cases now
          exact known (sound.unopened _ (Nat.le_refl _))
        · exact free holder again old
  case placed =>
    intro span active known opened
    rcases update_eq_iff.mp known with ⟨rfl, now⟩ | ⟨_, old⟩
    · cases now
      exact .inr (.inl ⟨handler, Function.update_self ..⟩)
    · exact sound.placed_update old opened (bare.installs _ _) (bare.closes _)

/-- What a handler does with the span it has taken out of the registry. -/
def closer (mapped : Option Nat) (writes : List SpanCall) : Handler :=
  match mapped with
  | some stale => .closing stale writes
  | none => .done

theorem closer_eq_closing {mapped : Option Nat} {writes other : List SpanCall} {span : Nat} :
    closer mapped writes = .closing span other ↔ mapped = some span ∧ writes = other := by
  cases mapped with
  | none => simp [closer]
  | some stale => simp [closer]

theorem closer_ne_installing {mapped : Option Nat} {writes : List SpanCall} {execId : ExecId}
    {span : Nat} : closer mapped writes ≠ .installing execId span := by
  cases mapped with
  | none => exact nofun
  | some stale => exact nofun

theorem quiet_closer {mapped : Option Nat} {writes : List SpanCall}
    (quiet : ∀ span, Handler.Quiet (.closing span writes)) : (closer mapped writes).Quiet := by
  cases mapped with
  | none => trivial
  | some stale => exact quiet stale

/-- An execution's entry in the registry is replaced by the span the handler is to
install, if any, and the span found there is left to the handler to close. -/
theorem replace (sound : Sound state) (handler : Nat) (execId : ExecId) (new : Option Nat)
    (holds : ∀ other span, state.handlers handler = .installing other span ↔
      other = execId ∧ new = some span)
    (closes : ∀ span writes, state.handlers handler ≠ .closing span writes)
    (counted : handler < state.handlerCount) {writes : List SpanCall}
    (quiet : ∀ span, Handler.Quiet (.closing span writes)) :
    Sound { state.setHandler handler (closer (state.activeSpans execId) writes) with
      activeSpans := Function.update state.activeSpans execId new } := by
  have installing : ∀ {other again span},
      Function.update state.handlers handler (closer (state.activeSpans execId) writes) other =
          .installing again span →
        other ≠ handler ∧ state.handlers other = .installing again span := by
    intro other again span installs
    rcases update_eq_iff.mp installs with ⟨_, now⟩ | old
    · exact absurd now closer_ne_installing
    · exact old
  refine { sound with
    idle := fun other beyond => sound.idle_update (Nat.le_refl _) counted beyond
    quiet := sound.quiet_update (quiet_closer quiet)
    registered := ?registered
    installing := ?installing
    once := fun first second one two span installs again =>
      sound.once first second one two span (installing installs).2 (installing again).2
    closing := ?closing
    placed := ?placed }
  case registered =>
    intro other span mapped
    rcases update_eq_iff.mp mapped with ⟨rfl, now⟩ | ⟨_, old⟩
    · exact (sound.installing handler other span ((holds other span).mpr ⟨rfl, now⟩)).1
    · exact sound.registered other span old
  case installing =>
    intro other again span installs
    obtain ⟨differ, old⟩ := installing installs
    obtain ⟨opened, parted⟩ := sound.installing other again span old
    refine ⟨opened, ?_⟩
    intro mapped
    rcases update_eq_iff.mp mapped with ⟨rfl, now⟩ | ⟨_, before⟩
    · exact differ (sound.once other handler again again span old
        ((holds again span).mpr ⟨rfl, now⟩))
    · exact parted before
  case closing =>
    intro other span calls closing
    rcases update_eq_iff.mp closing with ⟨rfl, now⟩ | ⟨_, old⟩
    · obtain ⟨stale, _⟩ := closer_eq_closing.mp now
      obtain ⟨alone, uninstalled, _⟩ := sound.registered_alone stale
      obtain ⟨active, known, _⟩ := sound.registered execId span stale
      refine ⟨?_, ?_, ?_⟩
      · intro none
        cases known.symm.trans none
      · intro again mapped
        rcases update_eq_iff.mp mapped with ⟨rfl, entered⟩ | ⟨differ, before⟩
        · exact uninstalled other again ((holds again span).mpr ⟨rfl, entered⟩)
        · exact differ (alone again before)
      · intro holder again installs
        exact uninstalled holder again (installing installs).2
    · obtain ⟨known, unmapped, free⟩ := sound.closing other span calls old
      refine ⟨known, ?_, fun holder again installs =>
        free holder again (installing installs).2⟩
      intro again mapped
      rcases update_eq_iff.mp mapped with ⟨rfl, now⟩ | ⟨_, before⟩
      · exact free handler again ((holds again span).mpr ⟨rfl, now⟩)
      · exact unmapped again before
  case placed =>
    intro span active known opened
    rcases sound.placed span active known opened with mapped | ⟨holder, installs⟩ |
      ⟨holder, calls, closing⟩
    · by_cases same : active.execId = execId
      · rw [same] at mapped
        refine .inr (.inr ⟨handler, writes, update_eq_iff.mpr (.inl ⟨rfl, ?_⟩)⟩)
        exact closer_eq_closing.mpr ⟨mapped, rfl⟩
      · exact .inl (update_eq_iff.mpr (.inr ⟨same, mapped⟩))
    · by_cases same : holder = handler
      · subst same
        obtain ⟨equal, now⟩ := (holds _ _).mp installs
        exact .inl (update_eq_iff.mpr (.inl ⟨equal, now⟩))
      · exact .inr (.inl ⟨holder, update_eq_iff.mpr (.inr ⟨same, installs⟩)⟩)
    · have differ : holder ≠ handler := by
        intro same
        subst same
        exact closes _ _ closing
      exact .inr (.inr ⟨holder, calls, update_eq_iff.mpr (.inr ⟨differ, closing⟩)⟩)

theorem handler_lt (sound : Sound state) {handler : Nat}
    (busy : state.handlers handler ≠ .done) : handler < state.handlerCount := by
  by_contra beyond
  exact busy (sound.idle handler (Nat.le_of_not_lt beyond))

theorem proceed (sound : Sound state) {handler : Nat} {before next : Handler}
    (at_ : state.handlers handler = before) (begun : before ≠ .done) (bare : before.Bare)
    (fits : next.Bare) (quiet : next.Quiet) : Sound (state.setHandler handler next) := by
  subst at_
  apply sound.move bare.installs ?_ fits quiet (Nat.le_refl _) (sound.handler_lt begun)
  intro span writes closes
  exact absurd closes (bare.closes span writes)

theorem under (sound : Sound state) (tracer : Tracer) {handler span : Nat}
    {writes : List SpanCall} {closes : Bool}
    (at_ : state.handlers handler =
      if closes then .closing span writes else .writing span writes) :
    Sound (state.under tracer handler span writes closes) := by
  have begun : state.handlers handler ≠ .done := by
    rw [at_]
    cases closes <;> exact nofun
  have uninstalled : ∀ execId span, state.handlers handler ≠ .installing execId span := by
    intro execId span
    rw [at_]
    cases closes <;> exact nofun
  have quiet := sound.quiet handler
  rw [at_] at quiet
  have finish : ∀ {after : TracingHook}, Sound after → after.handlers = state.handlers →
      after.handlerCount = state.handlerCount →
      (closes = true → ∃ active, after.spans span = some active ∧ active.isClosed = true) →
      Sound (after.setHandler handler .done) := by
    intro after kept same count closed
    apply kept.move ?_ ?_ Handler.bare_done trivial (Nat.le_refl _)
    · rw [count]
      exact sound.handler_lt begun
    · rw [same]
      exact uninstalled
    · intro other calls holds
      rw [same, at_] at holds
      cases closes with
      | false => cases holds
      | true =>
          cases holds
          exact closed rfl
  unfold TracingHook.under
  split
  next active known =>
    split
    next closed => exact finish sound rfl rfl fun _ => ⟨active, known, closed⟩
    next opened =>
      have opened : active.isClosed = false := Bool.eq_false_iff.mpr opened
      cases closes with
      | false =>
          have written := sound.amend known
            ((sound.silent span active known).write opened tracer span quiet) rfl
            (.inl opened.symm)
          exact finish written rfl rfl nofun
      | true =>
          obtain ⟨body, rfl, plain⟩ := quiet
          obtain ⟨_, unmapped, free⟩ := sound.closing handler span _ at_
          have closed := sound.amend known
            ((sound.silent span active known).close opened tracer span plain) rfl
            (.inr ⟨unmapped, free, rfl⟩)
          exact finish closed rfl rfl fun _ => ⟨_, Function.update_self .., rfl⟩
  next none =>
    refine finish sound rfl rfl ?_
    intro closing
    subst closing
    exact absurd none (sound.closing handler span writes at_).1

theorem next (sound : Sound state) {tracer : Tracer} {recordOutput : Bool} {event : Event}
    {after : TracingHook} (step : state.next tracer recordOutput event = some after) :
    Sound after := by
  cases event with
  | deliver delivery =>
      cases step
      have idle := sound.idle state.handlerCount (Nat.le_refl _)
      obtain ⟨bare, quiet⟩ := delivery.handler_fits recordOutput
      apply sound.move ?_ ?_ bare quiet (Nat.le_succ _) (Nat.lt_succ_self _)
      · intro execId span
        rw [idle]
        exact nofun
      · intro span writes
        rw [idle]
        exact nofun
  | step handler =>
      simp only [TracingHook.next] at step
      split at step
      next execId name attributes at_ =>
        cases step
        have bare : Handler.Bare (.opening execId name attributes) := ⟨nofun, nofun⟩
        unfold TracingHook.startSpan
        split
        next =>
          have counted := sound.handler_lt (at_ ▸ nofun : state.handlers handler ≠ .done)
          exact sound.start (at_ ▸ bare) counted execId name attributes
        next => exact sound.proceed at_ nofun bare Handler.bare_done trivial
      next execId span at_ =>
        cases step
        have counted := sound.handler_lt (at_ ▸ nofun : state.handlers handler ≠ .done)
        refine sound.replace handler execId (some span) ?_ ?_ counted
          (Handler.quiet_closeSpanCalls · false)
        · intro other found
          rw [at_]
          simp [eq_comm]
        · rw [at_]
          exact nofun
      next execId writes at_ =>
        cases step
        have quiet := sound.quiet handler
        rw [at_] at quiet
        unfold TracingHook.lookupExecSpan
        split
        next => exact sound.proceed at_ nofun ⟨nofun, nofun⟩ (Handler.bare_writing ..) quiet
        next => exact sound.proceed at_ nofun ⟨nofun, nofun⟩ Handler.bare_done trivial
      next span writes at_ =>
        cases step
        exact sound.under tracer at_
      next execId outcome at_ =>
        cases step
        have counted := sound.handler_lt (at_ ▸ nofun : state.handlers handler ≠ .done)
        unfold TracingHook.pop
        split
        next span mapped =>
          have installs : ∀ other found, state.handlers handler = .installing other found ↔
              other = execId ∧ none = some found := by
            intro other found
            rw [at_]
            simp
          have closes : ∀ found writes, state.handlers handler ≠ .closing found writes := by
            rw [at_]
            exact nofun
          have popped := sound.replace handler execId none installs closes counted
            (Handler.quiet_settledCalls · outcome)
          rw [mapped] at popped
          exact popped
        next => exact sound.proceed at_ nofun ⟨nofun, nofun⟩ Handler.bare_done trivial
      next span writes at_ =>
        cases step
        exact sound.under tracer at_
      next => cases step

theorem of_reachable {tracer : Tracer} {recordOutput : Bool} {state : TracingHook}
    (reachable : (tracingHook tracer recordOutput).Reachable state) : Sound state :=
  reachable.invariant initially fun sound step => sound.next step

end Sound

end Cuprum.Tracing
