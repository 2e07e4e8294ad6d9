import Cuprum.NativePump.Executor
import Mathlib.Data.List.Nodup
import Mathlib.Data.List.Perm.Subperm

namespace Cuprum.NativePump.Executor

open Transition

/-- Every job that was handed over is in the inbox of one waiting worker or was started,
and a worker is idle, held by one submitter or has a job of its own. -/
structure Sound (state : PooledExecutor) : Prop where
  bounded : state.idle.length ≤ state.idleLimit
  distinct : state.idle.Nodup
  idle : ∀ worker ∈ state.idle, state.workers worker = ⟨[], .waiting⟩
  held : ∀ submission job worker,
    state.submissions submission = some ⟨job, .holding worker⟩ →
      state.workers worker = ⟨[], .waiting⟩ ∧ worker ∉ state.idle
  single : ∀ submission other job again worker,
    state.submissions submission = some ⟨job, .holding worker⟩ →
      state.submissions other = some ⟨again, .holding worker⟩ → submission = other
  unstarted : ∀ worker, state.workerCount ≤ worker →
    state.workers worker = ⟨[], .unstarted⟩
  absent : ∀ submission, state.submissionCount ≤ submission →
    state.submissions submission = none
  numbered : ∀ submission job phase,
    state.submissions submission = some ⟨job, phase⟩ → job.future = submission
  inbox : ∀ worker, ∀ job ∈ (state.workers worker).inbox,
    state.workers worker = ⟨[job], .waiting⟩ ∧
      state.submissions job.future = some ⟨job, .returned⟩ ∧ job ∉ state.started
  unique : ∀ worker other, ∀ job ∈ (state.workers worker).inbox,
    job ∈ (state.workers other).inbox → worker = other
  started : ∀ job ∈ state.started, state.submissions job.future = some ⟨job, .returned⟩
  once : state.started.Nodup
  placed : ∀ submission job, state.submissions submission = some ⟨job, .returned⟩ →
    job ∈ state.started ∨ ∃ worker, job ∈ (state.workers worker).inbox

namespace PooledExecutor

variable {state : PooledExecutor}

theorem submissions_setSubmission {submission other : Nat} {value found : Submission} :
    (state.setSubmission submission value).submissions other = some found ↔
      other = submission ∧ found = value ∨
        other ≠ submission ∧ state.submissions other = some found := by
  by_cases same : other = submission
  · subst same
    simp [setSubmission, eq_comm]
  · simp [setSubmission, same]

theorem workers_setWorker_self (state : PooledExecutor) (worker : Nat) (value : Worker) :
    (state.setWorker worker value).workers worker = value :=
  Function.update_self ..

theorem workers_setWorker_of_ne {worker other : Nat} (differ : other ≠ worker)
    (value : Worker) : (state.setWorker worker value).workers other = state.workers other :=
  Function.update_of_ne differ ..

end PooledExecutor

open PooledExecutor

namespace Sound

variable {state : PooledExecutor}

theorem initially (idleLimit : Nat) : Sound (.initial idleLimit) := by
  constructor <;> simp [PooledExecutor.initial]

theorem unknown (sound : Sound state) {submission : Nat} {job : NativePumpJob}
    {phase : SubmitPhase} (called : state.submissions submission = some ⟨job, phase⟩)
    (early : phase ≠ .returned) :
    job ∉ state.started ∧ ∀ worker, job ∉ (state.workers worker).inbox := by
  have numbered := sound.numbered submission job phase called
  subst numbered
  constructor
  · intro member
    cases called.symm.trans (sound.started job member)
    exact early rfl
  · intro worker member
    cases called.symm.trans (sound.inbox worker job member).2.1
    exact early rfl

/-- A call is recorded in a phase in which its job is not yet handed over. -/
theorem record (sound : Sound state) {submission count : Nat} {job : NativePumpJob}
    {phase : SubmitPhase} (numbered : job.future = submission)
    (early : ∀ other, state.submissions submission ≠ some ⟨other, .returned⟩)
    (later : phase ≠ .returned) (counts : state.submissionCount ≤ count)
    (counted : submission < count)
    (takes : ∀ worker, phase = .holding worker →
      state.workers worker = ⟨[], .waiting⟩ ∧ worker ∉ state.idle ∧
        ∀ other again, state.submissions other ≠ some ⟨again, .holding worker⟩) :
    Sound { state.setSubmission submission ⟨job, phase⟩ with submissionCount := count } := by
  have kept : ∀ other, state.submissions other.future = some ⟨other, .returned⟩ →
      (state.setSubmission submission ⟨job, phase⟩).submissions other.future =
        some ⟨other, .returned⟩ := by
    intro other returned
    refine submissions_setSubmission.mpr (.inr ⟨?_, returned⟩)
    intro same
    rw [same] at returned
    exact early other returned
  refine { sound with
    held := ?held
    single := ?single
    absent := ?absent
    numbered := ?numbered
    inbox := ?inbox
    started := fun other member => kept other (sound.started other member)
    placed := ?placed }
  case held =>
    intro other again worker holds
    rcases submissions_setSubmission.mp holds with ⟨_, same⟩ | ⟨_, old⟩
    · cases same
      exact ⟨(takes worker rfl).1, (takes worker rfl).2.1⟩
    · exact sound.held other again worker old
  case single =>
    intro first second one two worker holds again
    rcases submissions_setSubmission.mp holds with ⟨rfl, same⟩ | ⟨_, old⟩
    · cases same
      rcases submissions_setSubmission.mp again with ⟨rfl, _⟩ | ⟨_, other⟩
      · rfl
      · exact absurd other ((takes worker rfl).2.2 second two)
    · rcases submissions_setSubmission.mp again with ⟨rfl, same⟩ | ⟨_, other⟩
      · cases same
        exact absurd old ((takes worker rfl).2.2 first one)
      · exact sound.single first second one two worker old other
  case absent =>
    intro other beyond
    have beyond : count ≤ other := beyond
    have differ : other ≠ submission := by omega
    exact (Function.update_of_ne differ ..).trans (sound.absent other (Nat.le_trans counts beyond))
  case numbered =>
    intro other again phase' found
    rcases submissions_setSubmission.mp found with ⟨rfl, same⟩ | ⟨_, old⟩
    · cases same
      exact numbered
    · exact sound.numbered other again phase' old
  case inbox =>
    intro worker other member
    obtain ⟨waits, returned, unheard⟩ := sound.inbox worker other member
    exact ⟨waits, kept other returned, unheard⟩
  case placed =>
    intro other again returned
    rcases submissions_setSubmission.mp returned with ⟨_, same⟩ | ⟨_, old⟩
    · cases same
      exact absurd rfl later
    · exact sound.placed other again old

theorem submission_lt (sound : Sound state) {submission : Nat} {found : Submission}
    (called : state.submissions submission = some found) :
    submission < state.submissionCount := by
  by_contra beyond
  cases called.symm.trans (sound.absent submission (Nat.le_of_not_lt beyond))

/-- A call already recorded goes on to another such phase. -/
theorem proceed (sound : Sound state) {submission : Nat} {job : NativePumpJob}
    {before phase : SubmitPhase}
    (called : state.submissions submission = some ⟨job, before⟩) (early : before ≠ .returned)
    (later : phase ≠ .returned)
    (takes : ∀ worker, phase = .holding worker →
      state.workers worker = ⟨[], .waiting⟩ ∧ worker ∉ state.idle ∧
        ∀ other again, state.submissions other ≠ some ⟨again, .holding worker⟩) :
    Sound (state.setSubmission submission ⟨job, phase⟩) := by
  refine sound.record (sound.numbered submission job before called) ?_ later
    (Nat.le_refl _) (sound.submission_lt called) takes
  intro other returned
  cases called.symm.trans returned
  exact early rfl

theorem hold (sound : Sound state) {submission worker : Nat} {job : NativePumpJob}
    {before : SubmitPhase} (called : state.submissions submission = some ⟨job, before⟩)
    (early : before ≠ .returned) (waits : state.workers worker = ⟨[], .waiting⟩)
    (parted : worker ∉ state.idle)
    (free : ∀ other again, state.submissions other ≠ some ⟨again, .holding worker⟩) :
    Sound (state.setSubmission submission ⟨job, .holding worker⟩) := by
  refine sound.proceed called early ?_ ?_
  · exact nofun
  · intro held same
    cases same
    exact ⟨waits, parted, free⟩

theorem submit (sound : Sound state) (function : Nat) (readerFd writerFd : Int) :
    Sound (state.submit function readerFd writerFd) := by
  refine sound.record rfl ?_ nofun (Nat.le_succ _) (Nat.lt_succ_self _) nofun
  intro other returned
  cases returned.symm.trans (sound.absent state.submissionCount (Nat.le_refl _))

theorem takeWorker (sound : Sound state) {submission : Nat} {job : NativePumpJob}
    (called : state.submissions submission = some ⟨job, .taking⟩) :
    Sound (state.takeWorker submission job) := by
  unfold PooledExecutor.takeWorker
  split
  next worker last =>
    have listed : worker ∈ state.idle := List.mem_of_getLast? last
    have split := List.dropLast_append_getLast? worker last
    have fewer : ∀ other ∈ state.idle.dropLast, other ∈ state.idle :=
      fun other member => (List.dropLast_sublist _).subset member
    have gone : worker ∉ state.idle.dropLast := by
      intro member
      have distinct := sound.distinct
      rw [← split, List.nodup_append] at distinct
      exact distinct.2.2 worker member worker List.mem_cons_self rfl
    have popped : Sound { state with idle := state.idle.dropLast } := { sound with
      bounded := Nat.le_trans (List.dropLast_sublist _).length_le sound.bounded
      distinct := sound.distinct.sublist (List.dropLast_sublist _)
      idle := fun other member => sound.idle other (fewer other member)
      held := fun other again held holds =>
        ⟨(sound.held other again held holds).1, fun member =>
          (sound.held other again held holds).2 (fewer held member)⟩ }
    have free : ∀ other again, state.submissions other ≠ some ⟨again, .holding worker⟩ :=
      fun other again holds => (sound.held other again worker holds).2 listed
    exact popped.hold called nofun (sound.idle worker listed) gone free
  next => exact sound.proceed called nofun nofun nofun

/-- A worker without a job, in no one's hands, goes on to another phase. -/
theorem setWorker (sound : Sound state) {worker count : Nat} (phase : WorkerPhase)
    (empty : (state.workers worker).inbox = []) (parted : worker ∉ state.idle)
    (free : ∀ other again, state.submissions other ≠ some ⟨again, .holding worker⟩)
    (counts : state.workerCount ≤ count) (counted : worker < count) :
    Sound { state.setWorker worker ⟨[], phase⟩ with workerCount := count } := by
  have same : ∀ other, other ≠ worker →
      (state.setWorker worker ⟨[], phase⟩).workers other = state.workers other :=
    fun other differ => workers_setWorker_of_ne differ _
  have boxes : ∀ other,
      ((state.setWorker worker ⟨[], phase⟩).workers other).inbox =
        (state.workers other).inbox := by
    intro other
    by_cases equal : other = worker
    · subst equal
      rw [workers_setWorker_self, empty]
    · rw [same other equal]
  have others : ∀ {other : Nat} {job : NativePumpJob},
      job ∈ (state.workers other).inbox → other ≠ worker := by
    intro other job member equal
    subst equal
    rw [empty] at member
    cases member
  refine { sound with
    idle := ?idle
    held := ?held
    unstarted := ?unstarted
    inbox := ?inbox
    unique := ?unique
    placed := ?placed }
  case idle =>
    intro other member
    have differ : other ≠ worker := fun equal => parted (equal ▸ member)
    exact (same other differ).trans (sound.idle other member)
  case held =>
    intro submission job other holds
    have differ : other ≠ worker := fun equal => free submission job (equal ▸ holds)
    obtain ⟨waits, apart⟩ := sound.held submission job other holds
    exact ⟨(same other differ).trans waits, apart⟩
  case unstarted =>
    intro other beyond
    have beyond : count ≤ other := beyond
    exact (same other (by omega)).trans (sound.unstarted other (Nat.le_trans counts beyond))
  case inbox =>
    intro other job member
    have member : job ∈ (state.workers other).inbox := boxes other ▸ member
    obtain ⟨waits, known⟩ := sound.inbox other job member
    exact ⟨(same other (others member)).trans waits, known⟩
  case unique =>
    intro first second job member inside
    exact sound.unique first second job (boxes first ▸ member) (boxes second ▸ inside)
  case placed =>
    intro submission job returned
    rcases sound.placed submission job returned with done | ⟨other, member⟩
    · exact .inl done
    · exact .inr ⟨other, (boxes other).symm ▸ member⟩

theorem startWorker (sound : Sound state) {submission : Nat} {job : NativePumpJob}
    (called : state.submissions submission = some ⟨job, .starting⟩) (fails : Bool) :
    Sound (state.startWorker submission job fails) := by
  unfold PooledExecutor.startWorker
  split
  next => exact sound.proceed called nofun nofun nofun
  next =>
    have new := sound.unstarted state.workerCount (Nat.le_refl _)
    have parted : state.workerCount ∉ state.idle := by
      intro member
      cases new.symm.trans (sound.idle _ member)
    have free : ∀ other again,
        state.submissions other ≠ some ⟨again, .holding state.workerCount⟩ := by
      intro other again holds
      cases new.symm.trans (sound.held other again _ holds).1
    have begun := sound.setWorker .waiting (by rw [new]) parted free (Nat.le_succ _)
      (Nat.lt_succ_self _)
    exact begun.hold called nofun (workers_setWorker_self ..) parted free

theorem busy (sound : Sound state) {worker : Nat}
    (busy : (state.workers worker).phase ≠ .waiting) :
    (state.workers worker).inbox = [] ∧ worker ∉ state.idle ∧
      ∀ other again, state.submissions other ≠ some ⟨again, .holding worker⟩ := by
  refine ⟨?_, ?_, ?_⟩
  · rw [List.eq_nil_iff_forall_not_mem]
    intro job member
    rw [(sound.inbox worker job member).1] at busy
    exact busy rfl
  · intro member
    rw [sound.idle worker member] at busy
    exact busy rfl
  · intro other again holds
    rw [(sound.held other again worker holds).1] at busy
    exact busy rfl

theorem worker_lt (sound : Sound state) {worker : Nat}
    (begun : (state.workers worker).phase ≠ .unstarted) : worker < state.workerCount := by
  by_contra beyond
  rw [sound.unstarted worker (Nat.le_of_not_lt beyond)] at begun
  exact begun rfl

theorem settle (sound : Sound state) {worker : Nat} {job : NativePumpJob}
    (running : (state.workers worker).phase = .running job) (failed callbackRaises : Bool) :
    Sound (state.settle worker job failed callbackRaises) := by
  have busy : (state.workers worker).phase ≠ .waiting := by
    rw [running]
    exact nofun
  have alive : (state.workers worker).phase ≠ .unstarted := by
    rw [running]
    exact nofun
  obtain ⟨empty, parted, free⟩ := sound.busy busy
  have begun := sound.worker_lt alive
  unfold PooledExecutor.settle
  dsimp only
  rw [empty]
  exact { sound.setWorker _ empty parted free (Nat.le_refl _) begun with }

theorem retireOrReuse (sound : Sound state) {worker : Nat}
    (settled : (state.workers worker).phase = .settled) :
    Sound (state.retireOrReuse worker) := by
  have busy : (state.workers worker).phase ≠ .waiting := by
    rw [settled]
    exact nofun
  have alive : (state.workers worker).phase ≠ .unstarted := by
    rw [settled]
    exact nofun
  obtain ⟨empty, parted, free⟩ := sound.busy busy
  have begun := sound.worker_lt alive
  unfold PooledExecutor.retireOrReuse
  dsimp only
  rw [empty]
  split
  next => exact sound.setWorker .retired empty parted free (Nat.le_refl _) begun
  next room =>
    have waits := sound.setWorker .waiting empty parted free (Nat.le_refl _) begun
    refine { waits with
      bounded := ?_
      distinct := ?_
      idle := ?_
      held := ?_ }
    · rw [List.length_append]
      exact Nat.lt_of_not_le room
    · exact List.nodup_append.mpr ⟨sound.distinct, List.nodup_singleton _, by
        intro other member again same equal
        obtain rfl := List.mem_singleton.mp same
        exact parted (equal ▸ member)⟩
    · intro other member
      rcases List.mem_append.mp member with old | new
      · exact waits.idle other old
      · obtain rfl := List.mem_singleton.mp new
        exact workers_setWorker_self ..
    · intro submission job other holds
      obtain ⟨idle, apart⟩ := waits.held submission job other holds
      refine ⟨idle, fun member => ?_⟩
      rcases List.mem_append.mp member with old | new
      · exact apart old
      · obtain rfl := List.mem_singleton.mp new
        exact free submission job holds

theorem cancel (sound : Sound state) (future : Nat) : Sound (state.cancel future) := by
  unfold PooledExecutor.cancel
  split
  next => exact { sound with }
  next => exact sound

section Put

variable {submission worker other : Nat} {job found : NativePumpJob}

theorem workers_put (sound : Sound state)
    (called : state.submissions submission = some ⟨job, .holding worker⟩) :
    (state.put submission job worker).workers worker = ⟨[job], .waiting⟩ := by
  rw [PooledExecutor.put, (sound.held submission job worker called).1]
  exact workers_setWorker_self ..

theorem workers_put_of_ne (differ : other ≠ worker) :
    (state.put submission job worker).workers other = state.workers other :=
  workers_setWorker_of_ne differ _

/-- Of the calls only the one that puts its job returns. -/
theorem submissions_put {call : Submission} :
    (state.put submission job worker).submissions other = some call ↔
      other = submission ∧ call = ⟨job, .returned⟩ ∨
        other ≠ submission ∧ state.submissions other = some call :=
  submissions_setSubmission

theorem holding_put {held : Nat}
    (holds : (state.put submission job worker).submissions other = some ⟨found, .holding held⟩) :
    other ≠ submission ∧ state.submissions other = some ⟨found, .holding held⟩ := by
  rcases submissions_put.mp holds with ⟨_, equal⟩ | old
  · cases equal
  · exact old

theorem returned_put (called : state.submissions submission = some ⟨job, .holding worker⟩)
    (returned : state.submissions found.future = some ⟨found, .returned⟩) :
    (state.put submission job worker).submissions found.future = some ⟨found, .returned⟩ := by
  refine submissions_put.mpr (.inr ⟨?_, returned⟩)
  intro equal
  rw [equal] at returned
  cases called.symm.trans returned

/-- The job is in one inbox, and in none before. -/
theorem mem_inbox_put (sound : Sound state)
    (called : state.submissions submission = some ⟨job, .holding worker⟩)
    (member : found ∈ ((state.put submission job worker).workers other).inbox) :
    other = worker ∧ found = job ∨
      other ≠ worker ∧ found ≠ job ∧ found ∈ (state.workers other).inbox := by
  by_cases equal : other = worker
  · subst equal
    rw [sound.workers_put called] at member
    exact .inl ⟨rfl, List.mem_singleton.mp member⟩
  · rw [workers_put_of_ne equal] at member
    refine .inr ⟨equal, ?_, member⟩
    rintro rfl
    exact (sound.unknown called nofun).2 other member

theorem put (sound : Sound state)
    (called : state.submissions submission = some ⟨job, .holding worker⟩) :
    Sound (state.put submission job worker) := by
  obtain ⟨waits, parted⟩ := sound.held submission job worker called
  have numbered := sound.numbered submission job _ called
  have given := sound.workers_put called
  refine { sound with
    idle := ?idle
    held := ?held
    single := ?single
    unstarted := ?unstarted
    absent := ?absent
    numbered := ?numbered
    inbox := ?inbox
    unique := ?unique
    started := fun other member => returned_put called (sound.started other member)
    placed := ?placed }
  case idle =>
    intro other member
    have differ : other ≠ worker := fun equal => parted (equal ▸ member)
    exact (workers_put_of_ne differ).trans (sound.idle other member)
  case held =>
    intro other again held holds
    obtain ⟨apart, old⟩ := holding_put holds
    have differ : held ≠ worker := by
      rintro rfl
      exact apart (sound.single other submission again job held old called)
    obtain ⟨idle, gone⟩ := sound.held other again held old
    exact ⟨(workers_put_of_ne differ).trans idle, gone⟩
  case single =>
    intro first second one two held holds again
    exact sound.single first second one two held (holding_put holds).2 (holding_put again).2
  case unstarted =>
    intro other beyond
    have new := sound.unstarted other beyond
    have differ : other ≠ worker := by
      rintro rfl
      cases new.symm.trans waits
    exact (workers_put_of_ne differ).trans new
  case absent =>
    intro other beyond
    have differ : other ≠ submission := by
      rintro rfl
      cases called.symm.trans (sound.absent other beyond)
    exact (Function.update_of_ne differ ..).trans (sound.absent other beyond)
  case numbered =>
    intro other again phase found
    rcases submissions_put.mp found with ⟨rfl, equal⟩ | ⟨_, old⟩
    · cases equal
      exact numbered
    · exact sound.numbered other again phase old
  case inbox =>
    intro other found member
    rcases sound.mem_inbox_put called member with ⟨rfl, rfl⟩ | ⟨differ, _, old⟩
    · exact ⟨given, submissions_put.mpr (.inl ⟨numbered, rfl⟩), (sound.unknown called nofun).1⟩
    · obtain ⟨idle, returned, silent⟩ := sound.inbox other found old
      exact ⟨(workers_put_of_ne differ).trans idle, returned_put called returned, silent⟩
  case unique =>
    intro first second found member inside
    rcases sound.mem_inbox_put called member with ⟨rfl, rfl⟩ | ⟨_, apart, old⟩
    · rcases sound.mem_inbox_put called inside with ⟨rfl, _⟩ | ⟨_, apart, _⟩
      · rfl
      · exact absurd rfl apart
    · rcases sound.mem_inbox_put called inside with ⟨_, equal⟩ | ⟨_, _, other⟩
      · exact absurd equal apart
      · exact sound.unique first second found old other
  case placed =>
    intro other found returned
    rcases submissions_put.mp returned with ⟨_, equal⟩ | ⟨_, old⟩
    · cases equal
      exact .inr ⟨worker, by rw [given]; exact List.mem_cons_self⟩
    · refine (sound.placed other found old).imp_right fun ⟨box, member⟩ => ⟨box, ?_⟩
      have differ : box ≠ worker := by
        rintro rfl
        rw [waits] at member
        cases member
      rw [workers_put_of_ne differ]
      exact member

end Put

theorem get (sound : Sound state) {worker : Nat} {job : NativePumpJob}
    {inbox : List NativePumpJob}
    (waits : state.workers worker = ⟨job :: inbox, .waiting⟩) :
    Sound (state.get worker job inbox) := by
  have member : job ∈ (state.workers worker).inbox := by
    rw [waits]
    exact List.mem_cons_self
  obtain ⟨alone, returned, unheard⟩ := sound.inbox worker job member
  have rest : inbox = [] := by
    have same := congrArg Worker.inbox (waits.symm.trans alone)
    exact (List.cons.inj same).2
  subst rest
  have running : (state.get worker job []).workers worker = ⟨[], .running job⟩ :=
    workers_setWorker_self ..
  have same : ∀ other, other ≠ worker →
      (state.get worker job []).workers other = state.workers other :=
    fun other differ => workers_setWorker_of_ne differ _
  have boxes : ∀ {other : Nat} {found : NativePumpJob},
      found ∈ ((state.get worker job []).workers other).inbox →
        other ≠ worker ∧ found ∈ (state.workers other).inbox := by
    intro other found inside
    by_cases equal : other = worker
    · subst equal
      rw [running] at inside
      cases inside
    · rw [same other equal] at inside
      exact ⟨equal, inside⟩
  refine { sound with
    idle := ?idle
    held := ?held
    unstarted := ?unstarted
    inbox := ?inbox
    unique := fun first second found inside again =>
      sound.unique first second found (boxes inside).2 (boxes again).2
    started := ?started
    once := ?once
    placed := ?placed }
  case idle =>
    intro other idle
    have differ : other ≠ worker := by
      intro equal
      subst equal
      cases waits.symm.trans (sound.idle other idle)
    exact (same other differ).trans (sound.idle other idle)
  case held =>
    intro submission other held holds
    obtain ⟨idle, gone⟩ := sound.held submission other held holds
    have differ : held ≠ worker := by
      intro equal
      subst equal
      cases waits.symm.trans idle
    exact ⟨(same held differ).trans idle, gone⟩
  case unstarted =>
    intro other beyond
    have new := sound.unstarted other beyond
    have differ : other ≠ worker := by
      intro equal
      subst equal
      cases new.symm.trans waits
    exact (same other differ).trans new
  case inbox =>
    intro other found inside
    obtain ⟨differ, old⟩ := boxes inside
    obtain ⟨idle, known, silent⟩ := sound.inbox other found old
    refine ⟨(same other differ).trans idle, known, fun listed => ?_⟩
    rcases List.mem_append.mp listed with earlier | now
    · exact silent earlier
    · obtain rfl := List.mem_singleton.mp now
      exact differ (sound.unique other worker found old member)
  case started =>
    intro other listed
    rcases List.mem_append.mp listed with earlier | now
    · exact sound.started other earlier
    · obtain rfl := List.mem_singleton.mp now
      exact returned
  case once =>
    refine List.nodup_append.mpr ⟨sound.once, List.nodup_singleton _, ?_⟩
    intro other earlier again now equal
    obtain rfl := List.mem_singleton.mp now
    exact unheard (equal ▸ earlier)
  case placed =>
    intro submission found known
    rcases sound.placed submission found known with done | ⟨box, inside⟩
    · exact .inl (List.mem_append_left _ done)
    · by_cases equal : box = worker
      · subst equal
        rw [waits] at inside
        exact .inl (List.mem_append_right _ inside)
      · exact .inr ⟨box, by rw [same box equal]; exact inside⟩

theorem next (sound : Sound state) {event : Event} {after : PooledExecutor}
    (step : state.next event = some after) : Sound after := by
  cases event with
  | submit function readerFd writerFd =>
      cases step
      exact sound.submit function readerFd writerFd
  | takeWorker submission =>
      simp only [PooledExecutor.next] at step
      split at step
      next job called =>
        cases step
        exact sound.takeWorker called
      next => cases step
  | startWorker submission fails =>
      simp only [PooledExecutor.next] at step
      split at step
      next job called =>
        cases step
        exact sound.startWorker called fails
      next => cases step
  | put submission =>
      simp only [PooledExecutor.next] at step
      split at step
      next job worker called =>
        cases step
        exact sound.put called
      next => cases step
  | get worker =>
      simp only [PooledExecutor.next] at step
      split at step
      next job inbox waits =>
        cases step
        exact sound.get waits
      next => cases step
  | settle worker failed callbackRaises =>
      simp only [PooledExecutor.next] at step
      split at step
      next job running =>
        cases step
        exact sound.settle running failed callbackRaises
      next => cases step
  | retireOrReuse worker =>
      simp only [PooledExecutor.next] at step
      split at step
      next settled =>
        cases step
        exact sound.retireOrReuse settled
      next => cases step
  | cancel future =>
      cases step
      exact sound.cancel future

theorem of_reachable {idleLimit : Nat} {state : PooledExecutor}
    (reachable : (executor idleLimit).Reachable state) : Sound state :=
  reachable.invariant (initially idleLimit) fun sound step => sound.next step

theorem length_started_le (sound : Sound state) :
    state.started.length ≤ state.submissionCount := by
  have distinct : (state.started.map NativePumpJob.future).Nodup := by
    refine sound.once.map_on ?_
    intro job member other inside same
    have first := sound.started job member
    have second := sound.started other inside
    rw [same] at first
    cases first.symm.trans second
    rfl
  have within : state.started.map NativePumpJob.future ⊆ List.range state.submissionCount := by
    intro future member
    obtain ⟨job, listed, rfl⟩ := List.mem_map.mp member
    exact List.mem_range.mpr (sound.submission_lt (sound.started job listed))
  have shorter := (List.subperm_of_subset distinct within).length_le
  rwa [List.length_map, List.length_range] at shorter

end Sound

/-- The only step a job still needs of a worker. -/
def Event.isGet : Event → Bool
  | .get _ => true
  | _ => false

theorem idleLimit_next {state after : PooledExecutor} {event : Event}
    (step : state.next event = some after) : after.idleLimit = state.idleLimit := by
  cases event with
  | submit function readerFd writerFd =>
      cases step
      rfl
  | takeWorker submission =>
      simp only [PooledExecutor.next] at step
      split at step
      next =>
        cases step
        unfold takeWorker
        split <;> rfl
      next => cases step
  | startWorker submission fails =>
      simp only [PooledExecutor.next] at step
      split at step
      next =>
        cases step
        unfold startWorker
        split <;> rfl
      next => cases step
  | put submission =>
      simp only [PooledExecutor.next] at step
      split at step
      next =>
        cases step
        rfl
      next => cases step
  | get worker =>
      simp only [PooledExecutor.next] at step
      split at step
      next =>
        cases step
        rfl
      next => cases step
  | settle worker failed callbackRaises =>
      simp only [PooledExecutor.next] at step
      split at step
      next =>
        cases step
        rfl
      next => cases step
  | retireOrReuse worker =>
      simp only [PooledExecutor.next] at step
      split at step
      next =>
        cases step
        unfold retireOrReuse
        split <;> rfl
      next => cases step
  | cancel future =>
      cases step
      unfold cancel
      split <;> rfl

theorem idleLimit_of_reachable {idleLimit : Nat} {state : PooledExecutor}
    (reachable : (executor idleLimit).Reachable state) : state.idleLimit = idleLimit :=
  @System.Reachable.invariant _ _ (executor idleLimit)
    (fun state => state.idleLimit = idleLimit) rfl
    (fun same step => (idleLimit_next step).trans same) _ reachable

theorem retired_next {state after : PooledExecutor} (sound : Sound state) {worker : Nat}
    (retired : state.workers worker = ⟨[], .retired⟩) {event : Event}
    (step : state.next event = some after) : after.workers worker = ⟨[], .retired⟩ := by
  have kept : ∀ {other : Nat} (value : Worker), state.workers other ≠ ⟨[], .retired⟩ →
      Function.update state.workers other value worker = ⟨[], .retired⟩ := by
    intro other value busy
    have differ : worker ≠ other := fun same => busy (same ▸ retired)
    rw [Function.update_of_ne differ, retired]
  cases event with
  | submit function readerFd writerFd =>
      cases step
      exact retired
  | takeWorker submission =>
      simp only [PooledExecutor.next] at step
      split at step
      next =>
        cases step
        unfold takeWorker
        split <;> exact retired
      next => cases step
  | startWorker submission fails =>
      simp only [PooledExecutor.next] at step
      split at step
      next =>
        cases step
        unfold startWorker
        split
        next => exact retired
        next =>
          apply kept
          rw [sound.unstarted state.workerCount (Nat.le_refl _)]
          exact nofun
      next => cases step
  | put submission =>
      simp only [PooledExecutor.next] at step
      split at step
      next job held called =>
        cases step
        apply kept
        rw [(sound.held submission job held called).1]
        exact nofun
      next => cases step
  | get other =>
      simp only [PooledExecutor.next] at step
      split at step
      next waits =>
        cases step
        apply kept
        rw [waits]
        exact nofun
      next => cases step
  | settle other failed callbackRaises =>
      simp only [PooledExecutor.next] at step
      split at step
      next running =>
        cases step
        apply kept
        intro same
        rw [same] at running
        cases running
      next => cases step
  | retireOrReuse other =>
      simp only [PooledExecutor.next] at step
      split at step
      next settled =>
        cases step
        have busy : state.workers other ≠ ⟨[], .retired⟩ := by
          intro same
          rw [same] at settled
          cases settled
        unfold retireOrReuse
        split <;> exact kept _ busy
      next => cases step
  | cancel future =>
      cases step
      unfold cancel
      split <;> exact retired

/-- However the workers take up what they have been given, and none of those at work
getting any further, a job handed over is started. -/
theorem job_starts (idleLimit : Nat) {state : PooledExecutor} (sound : Sound state)
    {submission : Nat} {job : NativePumpJob}
    (returned : state.submissions submission = some ⟨job, .returned⟩) :
    (executor idleLimit).Inevitable Event.isGet
      (fun later => later.started.count job = 1) state := by
  have waiting : ∀ {state : PooledExecutor}, Sound state →
      ¬ state.started.count job = 1 → job ∉ state.started := by
    intro state sound none member
    exact none (List.count_eq_one_of_mem sound.once member)
  apply @System.inevitable_of_rank _ _ (executor idleLimit) Event.isGet _
    (fun state => Sound state ∧ state.submissions submission = some ⟨job, .returned⟩)
    (fun state => state.submissionCount - state.started.length)
  · intro state holds unstarted
    obtain ⟨sound, returned⟩ := holds
    obtain ⟨worker, member⟩ :=
      (sound.placed submission job returned).resolve_left (waiting sound unstarted)
    refine ⟨.get worker, rfl, ?_⟩
    have waits := (sound.inbox worker job member).1
    simp [executor, PooledExecutor.next, waits]
  · intro state event after holds own step
    obtain ⟨sound, returned⟩ := holds
    have kept : Sound after := sound.next step
    cases event with
    | get worker =>
        simp only [executor, PooledExecutor.next] at step
        split at step
        next other inbox waits =>
          cases step
          refine ⟨⟨kept, returned⟩, ?_⟩
          have room := kept.length_started_le
          have longer : (state.get worker other inbox).started.length =
              state.started.length + 1 := List.length_append
          have same : (state.get worker other inbox).submissionCount =
              state.submissionCount := rfl
          omega
        next => cases step
    | _ => cases own
  · exact ⟨sound, returned⟩

theorem put_waiting {state after : PooledExecutor} (sound : Sound state) {submission : Nat}
    (step : state.next (.put submission) = some after) :
    ∃ worker job, state.submissions submission = some ⟨job, .holding worker⟩ ∧
      state.workers worker = ⟨[], .waiting⟩ ∧ after.workers worker = ⟨[job], .waiting⟩ := by
  simp only [PooledExecutor.next] at step
  split at step
  next job worker called =>
    cases step
    have waits := (sound.held submission job worker called).1
    refine ⟨worker, job, called, waits, ?_⟩
    rw [put, waits]
    exact workers_setWorker_self ..
  next => cases step

/-- A worker that finds the pool full is out for good, and has nothing. -/
theorem retire_full {idleLimit : Nat} {state after : PooledExecutor} (sound : Sound state)
    (full : state.idleLimit ≤ state.idle.length) {worker : Nat}
    (step : state.next (.retireOrReuse worker) = some after) {events : List Event}
    {later : PooledExecutor} (runs : (executor idleLimit).exec after events = some later) :
    later.workers worker = ⟨[], .retired⟩ := by
  have retired : after.workers worker = ⟨[], .retired⟩ := by
    simp only [PooledExecutor.next] at step
    split at step
    next settled =>
      cases step
      have busy : (state.workers worker).phase ≠ .waiting := by
        rw [settled]
        exact nofun
      rw [retireOrReuse, if_pos full, workers_setWorker_self]
      dsimp only
      rw [(sound.busy busy).1]
    next => cases step
  have both := @System.exec_invariant _ _ (executor idleLimit)
    (fun state => Sound state ∧ state.workers worker = ⟨[], .retired⟩)
    (fun holds step => ⟨holds.1.next step, retired_next holds.1 holds.2 step⟩)
    _ _ events ⟨sound.next step, retired⟩ runs
  exact both.2

/-- The pool neither loses nor queues work, in every run. -/
theorem executor_neither_loses_nor_queues (idleLimit : Nat) {state : PooledExecutor}
    (reachable : (executor idleLimit).Reachable state) :
    (∀ job, state.started.count job ≤ 1 ∧
      (job ∈ state.started → state.submissions job.future = some ⟨job, .returned⟩)) ∧
    (∀ submission job, state.submissions submission = some ⟨job, .returned⟩ →
      (executor idleLimit).Inevitable Event.isGet
        (fun later => later.started.count job = 1) state) ∧
    (∀ submission after, state.next (.put submission) = some after →
      ∃ worker job, state.submissions submission = some ⟨job, .holding worker⟩ ∧
        state.workers worker = ⟨[], .waiting⟩ ∧
        after.workers worker = ⟨[job], .waiting⟩) ∧
    state.idle.length ≤ idleLimit ∧
    (∀ worker ∈ state.idle, state.workers worker = ⟨[], .waiting⟩) ∧
    ∀ worker after, idleLimit ≤ state.idle.length →
      state.next (.retireOrReuse worker) = some after →
        ∀ events later, (executor idleLimit).exec after events = some later →
          later.workers worker = ⟨[], .retired⟩ := by
  have sound := Sound.of_reachable reachable
  have limit := idleLimit_of_reachable reachable
  refine ⟨?_, ?_, fun _ _ => put_waiting sound, limit ▸ sound.bounded, sound.idle, ?_⟩
  · intro job
    exact ⟨List.nodup_iff_count_le_one.mp sound.once job, sound.started job⟩
  · intro submission job returned
    exact job_starts idleLimit sound returned
  · intro worker after full step events later runs
    exact retire_full sound (limit ▸ full) step runs

/-- One submission and its worker, reused by the next. -/
theorem executor_reuses_worker :
    ∃ state, (executor 1).exec (.initial 1) [.submit 0 3 4, .takeWorker 0,
        .startWorker 0 false, .put 0, .get 0, .settle 0 false false, .retireOrReuse 0,
        .submit 0 5 6, .takeWorker 1, .put 1] = some state ∧
      state.idle.length ≤ 1 ∧ ∀ job, state.started.count job ≤ 1 := by
  have runs : (executor 1).exec (.initial 1) [.submit 0 3 4, .takeWorker 0,
      .startWorker 0 false, .put 0, .get 0, .settle 0 false false, .retireOrReuse 0,
      .submit 0 5 6, .takeWorker 1, .put 1] = some _ := rfl
  have holds := executor_neither_loses_nor_queues 1 ⟨_, runs⟩
  exact ⟨_, runs, holds.2.2.2.1, fun job => (holds.1 job).1⟩

end Cuprum.NativePump.Executor
