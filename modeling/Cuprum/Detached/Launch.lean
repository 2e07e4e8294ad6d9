import Cuprum.Detached.Child

namespace Cuprum.Detached

open Cuprum.Effect

section Programs

variable (env : Env)

/-- `Popen.__init__`: a failed `exec` is reported, collected and raised. -/
def popenInit : Step Unit := do
  call env .setup
  call env .fork
  modify fun ledger => { ledger with child := .starting }
  call env .store
  modify fun ledger => { ledger with pid := true }
  call env .report
  if env.execs then
    modify fun ledger => { ledger with child := ledger.child.move .setsid }
  else do
    call env .collect
    modify fun ledger => { ledger with child := .reaped }
    throw .failed

def killUnled : Step Unit := do
  if ← killpg env then pure () else kill env

def reclaimPartialSpawn : Step Unit := do
  let ledger ← get
  if ledger.pid then
    match ← waitpidNoHang env with
    | .noChild | .collected => pure ()
    | .running => do
        killUnled env
        waitpid env
  else pure ()

def spawnDetached : Step Unit :=
  tryCatch (popenInit env) fun error => do
    reclaimPartialSpawn env
    throw error

/-- There being no group is suppressed. -/
def abandonDetached : Step Unit := do
  let _ ← killpg env
  waitpid env

/-- `_launch_detached`. -/
def launchDetachedSync : Step Unit := do
  call env .allowlist
  call env .isolation
  call env .resolve
  spawnDetached env
  tryCatch (call env .receipt) fun error => do
    abandonDetached env
    throw error

/-- The one suspension comes after the launch. -/
def launchDetached : Step Unit := do
  launchDetachedSync env
  tryCatch (call env .transfer) fun error =>
    if error = .cancelled then do
      abandonDetached env
      throw error
    else throw error

end Programs

/-- The file has been executed, if the child has not been ended before. -/
def Child.started : Child → Bool
  | .leading | .zombie _ => true
  | _ => false

variable (env : Env)

def Env.silent (site : Site) : Bool :=
  (env.raises site).isNone

/-- The cleanup of a spawn that failed leaves no child. -/
def Env.reclaimsPartial (child : Child) : Bool :=
  !child.unreaped || env.silent .probe && ((env.moved .probe child).exited ||
    env.silent .killpg &&
      ((env.moved .killpg (env.moved .probe child)).leads || env.silent .kill) &&
      env.silent .wait)

def Env.forks : Bool :=
  env.silent .setup && env.silent .fork

/-- The child as its report is awaited. -/
def Env.awaited : Child :=
  env.moved .report (env.moved .store .starting)

def Env.spawns : Bool :=
  env.forks && env.silent .store && env.silent .report && env.execs

/-- No child is left where the spawn fails. -/
def Env.reclaimsSpawn : Bool :=
  !env.forks || env.silent .store &&
    if env.silent .report then
      env.silent .collect || env.reclaimsPartial (env.moved .collect env.awaited)
    else env.reclaimsPartial env.awaited

def Env.checks : Bool :=
  env.silent .allowlist && env.silent .isolation && env.silent .resolve

def Env.abandons : Bool :=
  env.silent .killpg && env.silent .wait

/-- No child is left where the launch fails. -/
def Env.reclaimsLaunch : Bool :=
  !env.checks || if env.spawns then env.abandons else env.reclaimsSpawn

def Env.launches : Bool :=
  env.checks && env.spawns && env.silent .receipt

/-- No child is left where the coroutine fails. -/
def Env.reclaims : Bool :=
  if env.launches then decide (env.raises .transfer = some .cancelled) && env.abandons
  else env.reclaimsLaunch

section Steps

variable {env} {ledger : Ledger}

/-- No signal has gone astray, no wait has blocked, and there is no child left just where it
has been reclaimed. -/
structure Ledger.Left (ledger : Ledger) (reclaimed : Bool) : Prop where
  stray : ledger.stray = false
  blocked : ledger.blocked = false
  child : ledger.child.unreaped = !reclaimed

theorem Ledger.Left.congr {reclaimed other : Bool} (left : ledger.Left reclaimed)
    (same : reclaimed = other) : ledger.Left other :=
  same ▸ left

theorem call_ends {site : Site} {returned : Unit → Ledger → Prop}
    {raised : Raised → Ledger → Prop}
    (returns : env.silent site = true →
      returned () { ledger with child := env.moved site ledger.child })
    (raises : ∀ error, env.raises site = some error → env.silent site = false →
      raised error { ledger with child := env.moved site ledger.child }) :
    Ends (call env site) returned raised ledger := by
  apply Ends.bind
  apply Ends.updates
  apply Ends.attempt
  · intro answer
    exact returns (by rw [Env.silent, answer]; rfl)
  · intro error answer
    exact raises error answer (by rw [Env.silent, answer]; rfl)

@[simp]
theorem unreaped_moved (site : Site) (child : Child) :
    (env.moved site child).unreaped = child.unreaped :=
  Child.unreaped_advance child _

theorem Child.started_move {child : Child} (started : child.started = true) (move : Move) :
    (child.move move).started = true := by
  cases child with
  | leading => cases move <;> rfl
  | zombie => rfl
  | absent | starting | reaped => cases started

theorem Child.started_advance {child : Child} (started : child.started = true)
    (moves : List Move) : (child.advance moves).started = true := by
  induction moves generalizing child with
  | nil => exact started
  | cons move moves induction => exact induction (Child.started_move started move)

theorem Child.unreaped_of_started {child : Child} (started : child.started = true) :
    child.unreaped = true := by
  cases child with
  | leading | zombie => rfl
  | absent | starting | reaped => cases started

theorem Child.exited_of_started {child : Child} (started : child.started = true)
    (unled : child.leads = false) : child.exited = true := by
  cases child with
  | zombie => rfl
  | leading => cases unled
  | absent | starting | reaped => cases started

theorem waitpid_ends (left : ledger.Left false) (exited : ledger.child.exited = true) :
    Ends (waitpid env) (fun _ after => env.silent .wait = true ∧ after.Left true)
      (fun _ after => env.silent .wait = false ∧ after.Left false) ledger := by
  apply Ends.bind
  apply call_ends
  · intro silent
    apply Ends.updates
    have later : (env.moved .wait ledger.child).exited = true := Child.exited_advance exited _
    refine ⟨silent, ?_⟩
    simp only [Child.unreaped_of_exited later, if_true]
    exact ⟨left.stray, by rw [left.blocked, later]; rfl, rfl⟩
  · intro error _ silent
    exact ⟨silent, left.stray, left.blocked, (unreaped_moved _ _).trans left.child⟩

theorem killpg_ends (left : ledger.Left false) :
    Ends (killpg env)
      (fun reached after => env.silent .killpg = true ∧ after.Left false ∧
        reached = (env.moved .killpg ledger.child).leads ∧
        after.child.exited = (reached || (env.moved .killpg ledger.child).exited))
      (fun _ after => env.silent .killpg = false ∧ after.Left false) ledger := by
  have unreaped : (env.moved .killpg ledger.child).unreaped = true :=
    (unreaped_moved _ _).trans left.child
  apply Ends.bind
  apply call_ends
  · intro silent
    apply Ends.bind
    apply Ends.reads
    apply Ends.branch
    · intro leads
      apply Ends.bind
      apply Ends.updates
      apply Ends.returns
      refine ⟨silent, ⟨left.stray, left.blocked, ?_⟩, leads.symm, Child.exited_killed unreaped⟩
      exact (Child.unreaped_killed _).trans unreaped
    · intro unled
      apply Ends.bind
      apply Ends.updates
      apply Ends.returns
      refine ⟨silent, ⟨?_, left.blocked, unreaped⟩, (eq_false_of_ne_true unled).symm, rfl⟩
      rw [left.stray, unreaped]
      rfl
  · intro error _ silent
    exact ⟨silent, left.stray, left.blocked, unreaped⟩

theorem kill_ends (left : ledger.Left false) :
    Ends (kill env)
      (fun _ after => env.silent .kill = true ∧ after.Left false ∧ after.child.exited = true)
      (fun _ after => env.silent .kill = false ∧ after.Left false) ledger := by
  have unreaped : (env.moved .kill ledger.child).unreaped = true :=
    (unreaped_moved _ _).trans left.child
  apply Ends.bind
  apply call_ends
  · intro silent
    apply Ends.updates
    simp only [unreaped, if_true]
    exact ⟨silent, ⟨left.stray, left.blocked, (Child.unreaped_killed _).trans unreaped⟩,
      Child.exited_killed unreaped⟩
  · intro error _ silent
    exact ⟨silent, left.stray, left.blocked, unreaped⟩

/-- The group is signalled, or the child itself where it leads none yet. -/
theorem killUnled_ends (left : ledger.Left false) :
    Ends (killUnled env)
      (fun _ after => (env.silent .killpg &&
          ((env.moved .killpg ledger.child).leads || env.silent .kill)) = true ∧
        after.Left false ∧ after.child.exited = true)
      (fun _ after => (env.silent .killpg &&
          ((env.moved .killpg ledger.child).leads || env.silent .kill)) = false ∧
        after.Left false) ledger := by
  apply Ends.bind
  apply (killpg_ends left).mono
  · intro reached after ends
    obtain ⟨silent, left, leads, exited⟩ := ends
    rw [silent, ← leads]
    apply Ends.branch
    · intro reaches
      apply Ends.returns
      rw [reaches] at exited ⊢
      exact ⟨rfl, left, exited⟩
    · intro misses
      rw [eq_false_of_ne_true misses]
      apply (kill_ends left).mono
      · intro _ after ends
        exact ⟨ends.1, ends.2⟩
      · intro _ after ends
        exact ⟨ends.1, ends.2⟩
  · intro error after ends
    rw [ends.1]
    exact ⟨rfl, ends.2⟩

/-- A child that has been started is ended and waited for. -/
theorem abandonDetached_ends (left : ledger.Left false)
    (started : ledger.child.started = true) :
    Ends (abandonDetached env) (fun _ after => env.abandons = true ∧ after.Left true)
      (fun _ after => env.abandons = false ∧ after.Left false) ledger := by
  have later : (env.moved .killpg ledger.child).started = true := Child.started_advance started _
  apply Ends.bind
  apply (killpg_ends left).mono
  · intro reached after ends
    obtain ⟨silent, left, leads, exited⟩ := ends
    have ended : after.child.exited = true := by
      rw [exited, leads]
      cases unled : (env.moved .killpg ledger.child).leads with
      | true => rfl
      | false => exact Child.exited_of_started later unled
    rw [Env.abandons, silent, Bool.true_and]
    exact waitpid_ends left ended
  · intro error after ends
    rw [Env.abandons, ends.1]
    exact ⟨rfl, ends.2⟩

/-- Where a spawn has failed the child is looked for, ended and waited for. -/
theorem reclaimPartialSpawn_ends (stray : ledger.stray = false)
    (blocked : ledger.blocked = false) :
    Ends (reclaimPartialSpawn env)
      (fun _ after => after.Left
        (!ledger.child.unreaped || ledger.pid && env.reclaimsPartial ledger.child))
      (fun _ after => after.Left
        (!ledger.child.unreaped || ledger.pid && env.reclaimsPartial ledger.child)) ledger := by
  apply Ends.bind
  apply Ends.reads
  apply Ends.branch
  · intro named
    rw [named, Bool.true_and]
    apply Ends.bind
    apply Ends.bind
    apply call_ends
    · intro silent
      apply Ends.bind
      apply Ends.reads
      apply Ends.branch
      · intro exited
        apply Ends.bind
        apply Ends.updates
        apply Ends.returns
        apply Ends.returns
        refine ⟨stray, blocked, ?_⟩
        rw [Env.reclaimsPartial, silent, exited, Bool.true_and, Bool.true_or, Bool.or_true,
          Bool.or_true]
        rfl
      · intro running
        apply Ends.branch
        · intro unreaped
          apply Ends.returns
          have ours : ledger.child.unreaped = true := (unreaped_moved _ _).symm.trans unreaped
          have reclaims : env.reclaimsPartial ledger.child = (env.silent .killpg &&
              ((env.moved .killpg (env.moved .probe ledger.child)).leads || env.silent .kill) &&
              env.silent .wait) := by
            rw [Env.reclaimsPartial, ours, silent, eq_false_of_ne_true running, Bool.true_and,
              Bool.not_true, Bool.false_or, Bool.false_or]
          rw [ours, Bool.not_true, Bool.false_or, reclaims]
          apply Ends.bind
          have still : Ledger.Left { ledger with child := env.moved .probe ledger.child } false :=
            ⟨stray, blocked, unreaped⟩
          apply (killUnled_ends still).mono
          · intro _ after ends
            obtain ⟨kills, left, exited⟩ := ends
            rw [kills, Bool.true_and]
            apply (waitpid_ends left exited).mono
            · intro _ after ends
              exact ends.2.congr ends.1.symm
            · intro _ after ends
              exact ends.2.congr ends.1.symm
          · intro error after ends
            rw [ends.1, Bool.false_and]
            exact ends.2
        · intro gone
          apply Ends.returns
          apply Ends.returns
          have unreaped := eq_false_of_ne_true gone
          refine ⟨stray, blocked, ?_⟩
          rw [unreaped, (unreaped_moved _ _).symm.trans unreaped]
          rfl
    · intro error _ loud
      refine ⟨stray, blocked, ?_⟩
      rw [Env.reclaimsPartial, loud, Bool.false_and, Bool.or_false, Bool.or_self, Bool.not_not]
      exact unreaped_moved _ _
  · intro unnamed
    apply Ends.returns
    refine ⟨stray, blocked, ?_⟩
    rw [eq_false_of_ne_true unnamed, Bool.false_and, Bool.or_false, Bool.not_not]

theorem Child.advance_absent (moves : List Move) : Child.absent.advance moves = .absent := by
  induction moves with
  | nil => rfl
  | cons move moves induction => exact induction

/-- Before there is a child a call changes nothing. -/
theorem call_early {site : Site} {returned : Unit → Ledger → Prop}
    {raised : Raised → Ledger → Prop} (returns : env.silent site = true → returned () {})
    (raises : ∀ error, env.silent site = false → raised error {}) :
    Ends (call env site) returned raised {} := by
  have same : ({ child := env.moved site Child.absent } : Ledger) = {} := by
    rw [Env.moved, Child.advance_absent]
  apply call_ends
  · intro silent
    exact same.symm ▸ returns silent
  · intro error _ loud
    exact same.symm ▸ raises error loud

/-- What is left where the process object is not built, before it is looked after. -/
structure Ledger.Partial (ledger : Ledger) (env : Env) : Prop where
  stray : ledger.stray = false
  blocked : ledger.blocked = false
  reclaims : env.reclaimsSpawn =
    (!ledger.child.unreaped || ledger.pid && env.reclaimsPartial ledger.child)

theorem Child.started_setsid {child : Child} (unreaped : child.unreaped = true) :
    (child.move .setsid).started = true := by
  cases child with
  | starting | leading | zombie => rfl
  | absent | reaped => cases unreaped

theorem unreaped_awaited : env.awaited.unreaped = true :=
  (unreaped_moved _ _).trans (unreaped_moved _ _)

theorem popenInit_ends :
    Ends (popenInit env)
      (fun _ after => env.spawns = true ∧
        ∃ child, after = { child := child, pid := true } ∧ child.started = true)
      (fun _ after => env.spawns = false ∧ after.Partial env) {} := by
  apply Ends.bind
  apply call_early
  · intro sets
    apply Ends.bind
    apply call_early
    · intro forks
      have forked : env.forks = true := by
        rw [Env.forks, sets, forks]
        rfl
      apply Ends.bind
      apply Ends.updates
      apply Ends.bind
      apply call_ends
      · intro stores
        apply Ends.bind
        apply Ends.updates
        apply Ends.bind
        apply call_ends
        · intro reports
          apply Ends.branch
          · intro execs
            apply Ends.updates
            refine ⟨?_, _, rfl, Child.started_setsid unreaped_awaited⟩
            simp only [Env.spawns, forked, stores, reports, execs, Bool.and_self]
          · intro fails
            have unspawned : env.spawns = false := by
              rw [Env.spawns, eq_false_of_ne_true fails, Bool.and_false]
            apply Ends.bind
            apply call_ends
            · intro collects
              apply Ends.bind
              apply Ends.updates
              apply Ends.raises
              refine ⟨unspawned, rfl, rfl, ?_⟩
              simp [Env.reclaimsSpawn, stores, reports, collects, Child.unreaped]
            · intro error _ loud
              refine ⟨unspawned, rfl, rfl, ?_⟩
              have unreaped : (env.moved .collect env.awaited).unreaped = true :=
                (unreaped_moved _ _).trans unreaped_awaited
              change _ = (!(env.moved .collect env.awaited).unreaped ||
                true && env.reclaimsPartial (env.moved .collect env.awaited))
              simp [Env.reclaimsSpawn, forked, stores, reports, loud, unreaped]
        · intro error _ loud
          refine ⟨by simp [Env.spawns, loud], rfl, rfl, ?_⟩
          change _ = (!env.awaited.unreaped || true && env.reclaimsPartial env.awaited)
          simp [Env.reclaimsSpawn, forked, stores, loud, unreaped_awaited]
      · intro error _ loud
        have unreaped : (env.moved .store .starting).unreaped = true := unreaped_moved _ _
        refine ⟨by simp [Env.spawns, loud], rfl, rfl, ?_⟩
        change _ = (!(env.moved .store .starting).unreaped || false)
        simp [Env.reclaimsSpawn, forked, loud, unreaped]
    · intro error loud
      exact ⟨by simp [Env.spawns, Env.forks, loud], rfl, rfl,
        by simp [Env.reclaimsSpawn, Env.forks, loud, Child.unreaped]⟩
  · intro error loud
    exact ⟨by simp [Env.spawns, Env.forks, loud], rfl, rfl,
      by simp [Env.reclaimsSpawn, Env.forks, loud, Child.unreaped]⟩

theorem spawnDetached_ends :
    Ends (spawnDetached env)
      (fun _ after => env.spawns = true ∧
        ∃ child, after = { child := child, pid := true } ∧ child.started = true)
      (fun _ after => env.spawns = false ∧ after.Left env.reclaimsSpawn) {} := by
  apply Ends.handle
  apply popenInit_ends.mono
  · exact fun _ _ ends => ends
  · intro error after ends
    obtain ⟨unspawned, stray, blocked, reclaims⟩ := ends
    rw [reclaims]
    apply Ends.bind
    apply (reclaimPartialSpawn_ends stray blocked).mono
    · intro _ after left
      exact Ends.raises ⟨unspawned, left⟩
    · intro _ after left
      exact ⟨unspawned, left⟩

theorem launchDetachedSync_ends :
    Ends (launchDetachedSync env)
      (fun _ after => env.launches = true ∧
        ∃ child, after = { child := child, pid := true } ∧ child.started = true)
      (fun _ after => env.launches = false ∧ after.Left env.reclaimsLaunch) {} := by
  have early : env.checks = false → env.launches = false ∧ Ledger.Left {} env.reclaimsLaunch := by
    intro refused
    refine ⟨by simp [Env.launches, refused], rfl, rfl, ?_⟩
    simp [Env.reclaimsLaunch, refused, Child.unreaped]
  apply Ends.bind
  apply call_early
  · intro allows
    apply Ends.bind
    apply call_early
    · intro isolates
      apply Ends.bind
      apply call_early
      · intro resolves
        have checks : env.checks = true := by
          rw [Env.checks, allows, isolates, resolves]
          rfl
        apply Ends.bind
        apply spawnDetached_ends.mono
        · intro _ after ends
          obtain ⟨spawns, child, rfl, started⟩ := ends
          apply Ends.handle
          apply call_ends
          · intro receipt
            refine ⟨by simp only [Env.launches, checks, spawns, receipt, Bool.and_self], _, rfl, ?_⟩
            exact Child.started_advance started _
          · intro error _ loud
            have fails : env.launches = false := by
              rw [Env.launches, loud, Bool.and_false]
            have reclaims : env.reclaimsLaunch = env.abandons := by
              simp [Env.reclaimsLaunch, checks, spawns]
            have later : (env.moved .receipt child).started = true :=
              Child.started_advance started _
            have left : Ledger.Left { child := env.moved .receipt child, pid := true } false :=
              ⟨rfl, rfl, Child.unreaped_of_started later⟩
            apply Ends.bind
            apply (abandonDetached_ends left later).mono
            · intro _ after ends
              exact Ends.raises ⟨fails, ends.2.congr (reclaims.trans ends.1).symm⟩
            · intro _ after ends
              exact ⟨fails, ends.2.congr (reclaims.trans ends.1).symm⟩
        · intro error after ends
          refine ⟨by simp [Env.launches, ends.1], ends.2.congr ?_⟩
          simp [Env.reclaimsLaunch, checks, ends.1]
      · intro error loud
        exact early (by simp [Env.checks, loud])
    · intro error loud
      exact early (by simp [Env.checks, loud])
  · intro error loud
    exact early (by simp [Env.checks, loud])

/-- The caller holds the receipt of a child that has not been touched, or none is left just
where nothing befell the launch that it cannot answer; in either case no signal has gone to
another process. -/
theorem hands_over_or_reclaims (env : Env) :
    Ends (launchDetached env)
      (fun _ after => after.pid = true ∧ after.child.started = true ∧ after.signals = 0 ∧
        after.stray = false ∧ after.blocked = false)
      (fun _ after => after.stray = false ∧ after.blocked = false ∧
        (after.child.unreaped = false ↔ env.reclaims = true)) {} := by
  have settled : ∀ {after : Ledger} {reclaimed : Bool}, after.Left reclaimed →
      env.reclaims = reclaimed → after.stray = false ∧ after.blocked = false ∧
        (after.child.unreaped = false ↔ env.reclaims = true) := by
    intro after reclaimed left same
    refine ⟨left.stray, left.blocked, ?_⟩
    rw [left.child, same]
    cases reclaimed <;> simp
  apply Ends.bind
  apply launchDetachedSync_ends.mono
  · intro _ after ends
    obtain ⟨launches, child, rfl, started⟩ := ends
    have later : (env.moved .transfer child).started = true := Child.started_advance started _
    have left : Ledger.Left { child := env.moved .transfer child, pid := true } false :=
      ⟨rfl, rfl, Child.unreaped_of_started later⟩
    apply Ends.handle
    apply call_ends
    · intro transfers
      exact ⟨rfl, later, rfl, rfl, rfl⟩
    · intro error answer _
      apply Ends.branch
      · intro cancelled
        have reclaims : env.reclaims = env.abandons := by
          simp [Env.reclaims, launches, answer, cancelled]
        apply Ends.bind
        apply (abandonDetached_ends left later).mono
        · intro _ after ends
          exact Ends.raises (settled ends.2 (reclaims.trans ends.1))
        · intro _ after ends
          exact settled ends.2 (reclaims.trans ends.1)
      · intro other
        apply Ends.raises
        apply settled left
        simp [Env.reclaims, launches, answer, other]
  · intro error after ends
    apply settled ends.2
    simp [Env.reclaims, ends.1]

end Steps

end Cuprum.Detached
