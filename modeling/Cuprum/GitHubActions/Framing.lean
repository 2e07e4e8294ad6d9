import Cuprum.GitHubActions.Session

namespace Cuprum.GitHubActions

open Codec (Escaping)
open Text (CodePoint Str)

theorem flatMap_plain {f : CodePoint → Str} {c : CodePoint} : [c].flatMap f = f c :=
  List.append_nil _

theorem escapeData_eq (value : Str) : escapeData value = dataEscaping.escape value := by
  unfold escapeData replace
  rw [List.flatMap_assoc, List.flatMap_assoc]
  apply List.flatMap_congr
  intro c _
  by_cases marked : c = percent
  · subst marked
    decide
  · by_cases returned : c = carriageReturn
    · subst returned
      decide
    · by_cases fed : c = lineFeed
      · subst fed
        decide
      · rw [if_neg marked, flatMap_plain, if_neg returned, flatMap_plain, if_neg fed]
        exact (dataEscaping.code_plain (by simp [dataEscaping, marked, returned, fed])).symm

theorem escapeProperty_eq (value : Str) : escapeProperty value = propertyEscaping.escape value := by
  unfold escapeProperty replace
  rw [escapeData_eq, Escaping.escape, List.flatMap_assoc, List.flatMap_assoc]
  apply List.flatMap_congr
  intro c _
  by_cases marked : c = percent
  · subst marked
    decide
  · by_cases returned : c = carriageReturn
    · subst returned
      decide
    · by_cases fed : c = lineFeed
      · subst fed
        decide
      · have plain : dataEscaping.code c = [c] :=
          dataEscaping.code_plain (by simp [dataEscaping, marked, returned, fed])
        rw [plain, flatMap_plain]
        by_cases delimits : c = colon
        · subst delimits
          decide
        · rw [if_neg delimits, flatMap_plain]
          by_cases separates : c = comma
          · subst separates
            decide
          · rw [if_neg separates]
            exact (propertyEscaping.code_plain (by
              simp [propertyEscaping, marked, returned, fed, delimits, separates])).symm

def Unbroken (text : Str) : Prop :=
  lineFeed ∉ text ∧ carriageReturn ∉ text

theorem unbroken_append {first second : Str} :
    Unbroken (first ++ second) ↔ Unbroken first ∧ Unbroken second := by
  simp only [Unbroken, List.mem_append, not_or]
  exact and_and_and_comm

theorem escapeData_injective : Function.Injective escapeData := by
  intro first second same
  rw [escapeData_eq, escapeData_eq] at same
  exact dataEscaping.escape_injective same

theorem escapeProperty_injective : Function.Injective escapeProperty := by
  intro first second same
  rw [escapeProperty_eq, escapeProperty_eq] at same
  exact propertyEscaping.escape_injective same

theorem unbroken_escapeData (value : Str) : Unbroken (escapeData value) := by
  rw [escapeData_eq]
  exact ⟨dataEscaping.not_mem_escape (by decide) (by decide) (by decide) value,
    dataEscaping.not_mem_escape (by decide) (by decide) (by decide) value⟩

theorem unbroken_escapeProperty (value : Str) : Unbroken (escapeProperty value) := by
  rw [escapeProperty_eq]
  exact ⟨propertyEscaping.not_mem_escape (by decide) (by decide) (by decide) value,
    propertyEscaping.not_mem_escape (by decide) (by decide) (by decide) value⟩

/-- No character that would end the title or begin another property. -/
theorem undelimited_escapeProperty (value : Str) :
    colon ∉ escapeProperty value ∧ comma ∉ escapeProperty value := by
  rw [escapeProperty_eq]
  exact ⟨propertyEscaping.not_mem_escape (by decide) (by decide) (by decide) value,
    propertyEscaping.not_mem_escape (by decide) (by decide) (by decide) value⟩

theorem unbroken_token (token : StopToken) : Unbroken token.text := by
  constructor
  · intro member
    exact absurd (token.hexadecimal _ member) (by decide)
  · intro member
    exact absurd (token.hexadecimal _ member) (by decide)

/-! The lines of a frame. -/

def openingLines (label : Str) (framing : Annotation) (token : StopToken) : List Str :=
  if framing.emitGroup then [groupPrefix ++ escapeData label, stopPrefix ++ token.text] else []

def releaseLines (framing : Annotation) (token : StopToken) : List Str :=
  if framing.emitGroup then [str "::" ++ token.text ++ str "::", endgroup] else []

def errorLines (framing : Annotation) (outcome : SessionOutcome) : List Str :=
  if framing.emitAnnotations ∧ outcome.outcome ≠ .exitZero then
    [errorPrefix ++ str "title=" ++ escapeProperty framing.label ++ str "::" ++
      escapeData outcome.message]
  else []

def closingLines (framing : Annotation) (token : StopToken) (outcome : SessionOutcome) :
    List Str :=
  releaseLines framing token ++ errorLines framing outcome

def sinkLines (lines : List Str) : List Write :=
  lines.map fun line => .sink (line ++ [lineFeed])

theorem log_start (log : List Write) (label : Str) (framing : Annotation)
    (token : StopToken) :
    Session.start log label framing token =
      { log := log ++ sinkLines (openingLines label framing token)
        label, framing, stopToken := token } := by
  unfold Session.start openingLines
  split
  · simp [Session.write, sinkLines]
  · simp [sinkLines]

theorem log_release (session : Session) :
    session.releaseLease =
      { session with
        log := session.log ++ sinkLines (releaseLines session.framing session.stopToken) } := by
  unfold Session.releaseLease releaseLines
  split
  · simp [Session.write, sinkLines]
  · simp [sinkLines]

/-- The first close writes the closing lines, and no other does anything. -/
theorem log_close {session : Session} (opened : session.closed = false)
    (outcome : SessionOutcome) :
    session.close outcome =
      { session with
        closed := true
        log := session.log ++
          sinkLines (closingLines session.framing session.stopToken outcome) } := by
  unfold Session.close closingLines errorLines
  rw [opened, log_release]
  simp only [Bool.false_eq_true, if_false]
  cases emits : session.framing.emitAnnotations with
  | false => simp [sinkLines]
  | true =>
      by_cases zero : outcome.outcome = .exitZero
      · simp [zero, sinkLines]
      · simp [zero, sinkLines, Session.write, Session.emitErrorAnnotationLine]

theorem close_closed {session : Session} (closed : session.closed = true)
    (outcome : SessionOutcome) : session.close outcome = session := by
  unfold Session.close
  rw [closed, if_pos rfl]

/-! Runs of a session. -/

def outputs (events : List SessionEvent) : List Str :=
  events.filterMap fun event =>
    match event with
    | .output text => some text
    | .close _ => none

theorem run_outputs (session : Session) (texts : List Str) :
    session.run (texts.map .output) = { session with log := session.log ++ texts.map .child } := by
  induction texts generalizing session with
  | nil => simp [Session.run]
  | cons text texts induction =>
      refine (induction (session.next (.output text))).trans ?_
      simp [Session.next]

theorem run_closed {session : Session} (closed : session.closed = true)
    (events : List SessionEvent) :
    session.run events = { session with log := session.log ++ (outputs events).map .child } := by
  induction events generalizing session with
  | nil => simp [Session.run, outputs]
  | cons event events induction =>
      cases event with
      | output text =>
          refine (@induction (session.next (.output text)) closed).trans ?_
          simp [Session.next, outputs]
      | close outcome =>
          have same : session.next (.close outcome) = session := close_closed closed outcome
          change (session.next (.close outcome)).run events = _
          rw [same]
          exact induction closed

theorem log_run_close {session : Session} (opened : session.closed = false) (texts : List Str)
    (outcome : SessionOutcome) (later : List SessionEvent) :
    (session.run (texts.map .output ++ .close outcome :: later)).log =
      session.log ++ texts.map .child ++
        sinkLines (closingLines session.framing session.stopToken outcome) ++
          (outputs later).map .child := by
  have split : session.run (texts.map .output ++ .close outcome :: later) =
      (((session.run (texts.map .output)).close outcome).run later) := by
    unfold Session.run
    rw [List.foldl_append]
    rfl
  rw [split, run_outputs, log_close, run_closed]
  · rfl
  · exact opened

theorem unbroken_opening {label : Str} {framing : Annotation} {token : StopToken} :
    ∀ line ∈ openingLines label framing token, Unbroken line := by
  intro line member
  unfold openingLines at member
  split at member
  · rcases List.mem_cons.mp member with rfl | last
    · exact unbroken_append.mpr ⟨by constructor <;> decide, unbroken_escapeData label⟩
    · rw [List.mem_singleton.mp last]
      exact unbroken_append.mpr ⟨by constructor <;> decide, unbroken_token token⟩
  · contradiction

theorem unbroken_closing {framing : Annotation} {token : StopToken}
    {outcome : SessionOutcome} :
    ∀ line ∈ closingLines framing token outcome, Unbroken line := by
  intro line member
  rcases List.mem_append.mp member with released | failed
  · unfold releaseLines at released
    split at released
    · rcases List.mem_cons.mp released with rfl | last
      · exact unbroken_append.mpr ⟨unbroken_append.mpr
          ⟨by constructor <;> decide, unbroken_token token⟩, by constructor <;> decide⟩
      · rw [List.mem_singleton.mp last]
        constructor <;> decide
    · contradiction
  · unfold errorLines at failed
    split at failed
    · rw [List.mem_singleton.mp failed]
      exact unbroken_append.mpr ⟨unbroken_append.mpr ⟨unbroken_append.mpr
        ⟨by constructor <;> decide, unbroken_escapeProperty _⟩, by constructor <;> decide⟩,
        unbroken_escapeData _⟩
    · contradiction

/-! The log as text. -/

def Write.text : Write → Str
  | .sink text => text
  | .child text => text

def logText (log : List Write) : Str :=
  log.flatMap Write.text

/-- A line a child has written. -/
structure Line where
  text : Str
  whole : lineFeed ∉ text

def Line.written (line : Line) : Str :=
  line.text ++ [lineFeed]

theorem splitOn_lines {lines : List Str} (whole : ∀ line ∈ lines, lineFeed ∉ line) :
    (lines.flatMap fun line => line ++ [lineFeed]).splitOn lineFeed = lines ++ [[]] := by
  induction lines with
  | nil => rfl
  | cons line lines induction =>
      obtain ⟨first, rest⟩ := List.forall_mem_cons.mp whole
      rw [List.flatMap_cons, List.append_assoc, List.singleton_append,
        List.splitOn_append_cons_self_of_not_mem first, induction rest]
      rfl

/-- What is written after some lines goes on with the last of them, which has not ended. -/
def continued : List Str → List Str → List Str
  | [], next => next
  | [last], next => next.modifyHead (last ++ ·)
  | line :: lines, next => line :: continued lines next

theorem splitOn_append (first second : Str) :
    (first ++ second).splitOn lineFeed =
      continued (first.splitOn lineFeed) (second.splitOn lineFeed) := by
  induction first with
  | nil =>
      rw [List.nil_append, List.splitOn_nil]
      exact (congrFun List.modifyHead_id _).symm
  | cons c first induction =>
      rw [List.cons_append, List.splitOn_cons_eq_if_modifyHead,
        List.splitOn_cons_eq_if_modifyHead, induction]
      match split : first.splitOn lineFeed with
      | [] => exact absurd split (List.splitOn_ne_nil _ _)
      | line :: lines =>
          by_cases ends : c == lineFeed
          · rw [if_pos ends, if_pos ends]
            rfl
          · rw [if_neg ends, if_neg ends]
            cases lines with
            | nil => exact List.modifyHead_modifyHead
            | cons other lines => rfl

theorem logText_append (first second : List Write) :
    logText (first ++ second) = logText first ++ logText second :=
  List.flatMap_append

theorem logText_sinkLines (lines : List Str) :
    logText (sinkLines lines) = lines.flatMap fun line => line ++ [lineFeed] := by
  rw [logText, sinkLines, List.flatMap_map]
  rfl

theorem splitOn_sinkLines {lines : List Str} (whole : ∀ line ∈ lines, Unbroken line) :
    (logText (sinkLines lines)).splitOn lineFeed = lines ++ [[]] := by
  rw [logText_sinkLines]
  exact splitOn_lines fun line member => (whole line member).1

theorem logText_child (texts : List Str) : logText (texts.map .child) = texts.flatten := by
  rw [logText, List.flatMap_map]
  exact List.flatMap_id

theorem logText_lines (lines : List Line) :
    logText ((lines.map Line.written).map .child) =
      (lines.map Line.text).flatMap fun line => line ++ [lineFeed] := by
  rw [logText_child, List.flatMap_map]
  rfl

/-- Whatever is in its titles and details, and whatever the child writes, a session writes
one opening before the child's output and one closing after it, each line unbroken. -/
structure Framed (log : List Write) (label : Str) (framing : Annotation)
    (token : StopToken) : Prop where
  opened : ∀ texts : List Str,
    ((Session.start log label framing token).run (texts.map .output)).log =
      log ++ sinkLines (openingLines label framing token) ++ texts.map .child
  closed : ∀ (texts : List Str) outcome later,
    ((Session.start log label framing token).run
        (texts.map .output ++ .close outcome :: later)).log =
      log ++ sinkLines (openingLines label framing token) ++ texts.map .child ++
        sinkLines (closingLines framing token outcome) ++ (outputs later).map .child
  errors : ∀ outcome, (errorLines framing outcome).length ≤ 1
  unbroken : ∀ outcome,
    ∀ line ∈ openingLines label framing token ++ closingLines framing token outcome,
      Unbroken line
  lines : ∀ (front : List Line) outcome later (back : List Line),
    log = [] → outputs later = back.map Line.written →
    (logText ((Session.start log label framing token).run
        ((front.map Line.written).map .output ++ .close outcome :: later)).log).splitOn
          lineFeed =
      openingLines label framing token ++ front.map Line.text ++
        closingLines framing token outcome ++ back.map Line.text ++ [[]]
  /-- A log and a child may each leave a line that has not ended, and the command written
  next is then no line of its own. -/
  unended : ∀ (texts : List Str) outcome later,
    (logText ((Session.start log label framing token).run
        (texts.map .output ++ .close outcome :: later)).log).splitOn lineFeed =
      continued ((logText log).splitOn lineFeed)
        (continued (openingLines label framing token ++ [[]])
          (continued (texts.flatten.splitOn lineFeed)
            (continued (closingLines framing token outcome ++ [[]])
              ((outputs later).flatten.splitOn lineFeed))))

theorem framed (log : List Write) (label : Str) (framing : Annotation)
    (token : StopToken) : Framed log label framing token where
  opened texts := by
    rw [log_start, run_outputs]
  closed texts outcome later := by
    rw [log_start, log_run_close rfl]
  errors outcome := by
    unfold errorLines
    split
    · exact Nat.le_refl 1
    · exact Nat.zero_le 1
  unbroken outcome line member := by
    rcases List.mem_append.mp member with opening | closing
    · exact unbroken_opening line opening
    · exact unbroken_closing line closing
  lines front outcome later back empty written := by
    have whole : ∀ line ∈ openingLines label framing token ++ front.map Line.text ++
        closingLines framing token outcome ++ back.map Line.text, lineFeed ∉ line := by
      intro line member
      rcases List.mem_append.mp member with member | last
      · rcases List.mem_append.mp member with member | closing
        · rcases List.mem_append.mp member with opening | first
          · exact (unbroken_opening line opening).1
          · obtain ⟨line, -, rfl⟩ := List.mem_map.mp first
            exact line.whole
        · exact (unbroken_closing line closing).1
      · obtain ⟨line, -, rfl⟩ := List.mem_map.mp last
        exact line.whole
    rw [← splitOn_lines whole, empty, log_start, log_run_close rfl, written, List.nil_append]
    simp only [logText_append, logText_sinkLines, logText_lines, List.flatMap_append]
  unended texts outcome later := by
    rw [log_start, log_run_close rfl, ← splitOn_sinkLines unbroken_opening,
      ← splitOn_sinkLines unbroken_closing, ← logText_child texts, ← logText_child (outputs later)]
    simp only [← splitOn_append, logText_append, List.append_assoc]

/-- No title, detail or output breaks out of the frame of its session. -/
theorem framing_holds :
    (∀ log label framing token, Framed log label framing token) ∧
      Function.Injective escapeData ∧ Function.Injective escapeProperty ∧
      (∀ value, Unbroken (escapeData value)) ∧
      (∀ value, Unbroken (escapeProperty value) ∧ colon ∉ escapeProperty value ∧
        comma ∉ escapeProperty value) ∧
      ∀ (session : Session) first second,
        (session.close first).close second = session.close first := by
  refine ⟨framed, escapeData_injective, escapeProperty_injective, unbroken_escapeData,
    fun value => ⟨unbroken_escapeProperty value, undelimited_escapeProperty value⟩, ?_⟩
  intro session first second
  apply close_closed
  cases opened : session.closed with
  | true => rwa [close_closed opened]
  | false => rw [log_close opened]

end Cuprum.GitHubActions
