import Gonitor.Concurrent.Phases

/-!
# One Run at a Time

Under the strategies Skip and Delay the wrapped job of an entry lets one call through at a time.
The lock belongs to the wrapped job, which `start` makes anew for every entry; runs of an earlier
entry go on under their own lock.  Two runs of a task then attempt at the same time.

`StartsAfresh` is the condition under which locks of different generations do not meet: a new
entry is only made when the task has none and its earlier runs are through with their attempts.

## Main Results

- `one_run_at_a_time`: where entries are only made afresh, at most one scheduled run of the task
  is between the start of its first attempt and the end of its last one.
- `restart_overlaps_runs`: stopping and starting a task while it runs gives it two runs at once.
-/

namespace Gonitor.Concurrent

open Gonitor.Model Gonitor.Server Gonitor.Requests Gonitor.Task AtomicProgram SoftDelete

variable {ext : Externals} {t : Int}

/-! ## Attempts -/

/-- The last attempt of the run has ended. -/
def Run.AttemptsOver (run : Run) : Prop :=
  run.phase = .passed ∨ run.phase = .completing ∨ run.phase = .deleting ∨ run.phase = .over ∨
    (run.limit ≤ run.attempts ∧ (run.phase = .failed ∨ run.phase = .ready))

/-- The run is between the start of its first attempt and the end of its last one. -/
def Run.Attempting (run : Run) : Prop := 1 ≤ run.attempts ∧ ¬ run.AttemptsOver

instance (run : Run) : Decidable run.AttemptsOver :=
  inferInstanceAs (Decidable (_ ∨ _ ∨ _ ∨ _ ∨ _))

instance (run : Run) : Decidable run.Attempting :=
  inferInstanceAs (Decidable (_ ∧ ¬ run.AttemptsOver))

/-- The thread carries out a scheduled run of the task. -/
def ScheduledRun (L : Nat → Option Local) (t : Int) (j : Nat) (run : Run) : Prop :=
  runs L j = some run ∧ run.scheduled = true ∧ run.task.id = t

/-- A run that is through with its attempts stays so. -/
theorem attemptsOver_step {run run' : Run} {o : Op} (hover : run.AttemptsOver)
    (hscheduled : run.scheduled = true) (hsame : run.SameRun run')
    (hstep : PhaseStep run o run'.phase run'.attempts) : run'.AttemptsOver := by
  unfold Run.AttemptsOver
  rw [hsame.limit]
  -- the places where attempts are still to come are not among those it can be at
  have hnot : ∀ phase : Phase, run.phase = phase → phase ≠ .passed → phase ≠ .completing →
      phase ≠ .deleting → phase ≠ .over →
      run.limit ≤ run.attempts ∧ (phase = .failed ∨ phase = .ready) := by
    rintro _ rfl h₁ h₂ h₃ h₄
    rcases hover with h | h | h | h | h
    · exact absurd h h₁
    · exact absurd h h₂
    · exact absurd h h₃
    · exact absurd h h₄
    · exact h
  -- inside an attempt a run is not through with its attempts
  have hworking : run.phase.inAttempt = true → False := by
    intro hin
    have hlast := (hnot run.phase rfl (by rintro h; rw [h] at hin; cases hin)
      (by rintro h; rw [h] at hin; cases hin) (by rintro h; rw [h] at hin; cases hin)
      (by rintro h; rw [h] at hin; cases hin)).2
    rcases hlast with h | h <;> rw [h] at hin <;> cases hin
  generalize run'.phase = phase at hstep ⊢
  generalize run'.attempts = attempts at hstep ⊢
  cases hstep with
  | stay => exact hover
  | «begin» hphase => simpa using hnot _ hphase
  | skip => simp
  | pass hphase => simpa using hnot _ hphase
  | refuse => simp
  -- an attempt begins only below the limit
  | launch pid hphase hlimit =>
    have hused := (hnot _ hphase (by simp) (by simp) (by simp) (by simp)).1
    exact absurd (hlimit hscheduled) (by omega)
  | launchFails hphase hlimit =>
    have hused := (hnot _ hphase (by simp) (by simp) (by simp) (by simp)).1
    exact absurd (hlimit hscheduled) (by omega)
  | work hin => exact (hworking hin).elim
  | succeed => simp
  | fail hin => exact (hworking hin).elim
  | retry hphase =>
    have hused := (hnot _ hphase (by simp) (by simp) (by simp) (by simp)).1
    simp [hused]
  | complete _ _ hphase => rcases hphase with rfl | rfl <;> simp
  | finish _ hphase => rcases hphase with rfl | rfl | rfl <;> simp

/-! ## Locks -/

section Locks

variable {s s' : State} {L : Nat → Option Local} {tid : Nat} {ℓ : Local} {c : Choice}

/-- The operations on the lock of a wrapped job. -/
def lockOp : RunOp → Bool
  | .tryAcquire _ | .acquire _ | .release _ => true
  | _ => false

theorem locked_of_not_lockOp {o : RunOp} (ho : lockOp o = false) {d d' : Scheduler}
    {os os' : Processes} {r : o.Res} (hexec : o.exec c d os = some (r, d', os')) :
    d'.locked = d.locked ∧ ∀ run : Run, (run.advance o r).locked = run.locked := by
  refine ⟨?_, fun run => ?_⟩
  · cases o with
    | tryAcquire e => cases ho
    | acquire e => cases ho
    | release e => cases ho
    | startProcess task log command args =>
      simp only [RunOp.exec] at hexec
      split at hexec
      · cases hexec
        rfl
      · split at hexec <;> cases hexec
        rfl
    | addTaskRunningIns taskId log =>
      cases hexec
      unfold Scheduler.register
      split <;> rfl
    | waitReturn log timeout =>
      simp only [RunOp.exec] at hexec
      split at hexec <;> cases hexec
      rfl
    | unregister taskId log =>
      simp only [RunOp.exec] at hexec
      split at hexec <;> cases hexec <;> rfl
    | _ =>
      cases hexec
      rfl
  · cases o with
    | tryAcquire e => cases ho
    | acquire e => cases ho
    | release e => cases ho
    | startProcess task log command args => cases r <;> rfl
    | waitReturn log timeout => cases r <;> rfl
    | isRegistered taskId log =>
      cases r with
      | none => rfl
      | some registered => cases registered <;> rfl
    | _ => rfl

theorem logged_locked (run : Run) (o : DbOp) (r : o.Res) : (run.logged o r).locked = run.locked := by
  unfold Run.logged
  split
  · split <;> rfl
  all_goals rfl

/-- Operations outside of runs do not touch the locks. -/
theorem locked_same {o : Op} {r : o.Res} (hexec : exec ext o c s = some (r, s'))
    (ho : ∀ d, o ≠ .run d) : s'.sched.locked = s.sched.locked := by
  cases o with
  | run o => exact absurd rfl (ho o)
  | db o =>
    obtain ⟨-, -, rfl⟩ := exec_db hexec
    rfl
  | world o =>
    obtain ⟨-, -, rfl⟩ := exec_world hexec
    rfl
  | sched o =>
    obtain ⟨-, -, rfl⟩ := exec_sched hexec
    cases o with
    | cronAddJob spec job =>
      rcases addJob_cases ext c s.sched s.os spec job with hok | herror
      · rw [hok]
      · rw [herror]
    | stopRunning e log =>
      exact congrArg Scheduler.locked (stopRunning_sched ext c s.sched s.os e log)
    | _ => rfl

/-- What an operation does to the lock of the thread's run. -/
theorem lock_step {o : Op} {r : o.Res} {run run' : Run} (hallowed : Allowed ℓ o)
    (hexec : exec ext o c s = some (r, s')) (hrun : ℓ.run = some run)
    (hnext : (next ℓ o r).run = some run') :
    (run'.locked = run.locked ∧ s'.sched.locked = s.sched.locked) ∨
    (run'.locked = true ∧ s.sched.locked run.entry = false ∧
      s'.sched.locked = Function.update s.sched.locked run.entry true) ∨
    (run'.locked = false ∧ run.locked = true ∧ run.phase = .over ∧
      s'.sched.locked = Function.update s.sched.locked run.entry false) := by
  -- the run that the discipline speaks of is this one
  have hself : ∀ {P : Run → Prop}, ℓ.HasRun P → P run := by
    rintro P ⟨run', hrun', h⟩
    rw [hrun, Option.some.injEq] at hrun'
    exact hrun' ▸ h
  cases o with
  | db o =>
    rw [show (next ℓ (.db o) r).run = _ from run_nextDb ℓ o r, hrun] at hnext
    cases hnext
    exact .inl ⟨logged_locked run o r, locked_same hexec (by simp)⟩
  | sched o =>
    rw [show (next ℓ (.sched o) r).run = ℓ.run from rfl, hrun] at hnext
    cases hnext
    exact .inl ⟨rfl, locked_same hexec (by simp)⟩
  | world o =>
    rw [show (next ℓ (.world o) r).run = ℓ.run from rfl, hrun] at hnext
    cases hnext
    exact .inl ⟨rfl, locked_same hexec (by simp)⟩
  | run o =>
    obtain ⟨-, d, os, hrunop, rfl⟩ := exec_run hexec
    have hadvance := (nextRun_some hallowed hrun r).symm.trans hnext
    cases hadvance
    cases o with
    | tryAcquire e =>
      obtain ⟨-, hfree, rfl⟩ := hself hallowed
      simp only [RunOp.exec] at hrunop
      split at hrunop
      · -- the call is skipped
        cases hrunop
        exact .inl ⟨rfl, rfl⟩
      · rename_i hunlocked
        cases hrunop
        exact .inr (.inl ⟨rfl, by simpa using hunlocked, rfl⟩)
    | acquire e =>
      obtain ⟨-, hfree, rfl⟩ := hself hallowed
      simp only [RunOp.exec] at hrunop
      split at hrunop
      · -- a call that is delayed blocks until the lock is free
        cases hrunop
      · rename_i hunlocked
        cases hrunop
        exact .inr (.inl ⟨rfl, by simpa using hunlocked, rfl⟩)
    | release e =>
      obtain ⟨hphase, hlocked, rfl⟩ := hself hallowed
      cases hrunop
      exact .inr (.inr ⟨rfl, hlocked, hphase, rfl⟩)
    | _ =>
      obtain ⟨hsame, hkeeps⟩ := locked_of_not_lockOp rfl hrunop
      exact .inl ⟨hkeeps run, hsame⟩

/-- A thread without a run touches no lock. -/
theorem locked_of_no_run {o : Op} {r : o.Res} (hallowed : Allowed ℓ o)
    (hexec : exec ext o c s = some (r, s')) (hrun : ℓ.run = none) :
    s'.sched.locked = s.sched.locked := by
  cases o with
  | run o =>
    obtain ⟨-, d, os, hrunop, rfl⟩ := exec_run hexec
    have hnolock : lockOp o = false := by
      cases o with
      | tryAcquire e =>
        obtain ⟨run, hrun', -⟩ := hallowed
        rw [hrun] at hrun'
        cases hrun'
      | acquire e =>
        obtain ⟨run, hrun', -⟩ := hallowed
        rw [hrun] at hrun'
        cases hrun'
      | release e =>
        obtain ⟨run, hrun', -⟩ := hallowed
        rw [hrun] at hrun'
        cases hrun'
      | _ => rfl
    exact (locked_of_not_lockOp hnolock hrunop).1
  | db o => exact locked_same hexec (by simp)
  | sched o => exact locked_same hexec (by simp)
  | world o => exact locked_same hexec (by simp)

/-- Locks are held by one run each; a run whose job is wrapped holds its lock from its beginning
    to its end. -/
structure LocksHeld (s : State) (run : Nat → Option Run) : Prop where
  locked : ∀ j r, run j = some r → r.locked = true → s.sched.locked r.entry = true
  unique : ∀ j j' r r', run j = some r → run j' = some r' → r.locked = true → r'.locked = true →
    r.entry = r'.entry → j = j'
  held : ∀ j r, run j = some r → r.scheduled = true → r.chain ≠ .recover → r.InFlight →
    r.locked = true
  unstarted : ∀ j r, run j = some r → r.phase = .fired → r.attempts = 0

/-- The operation of a thread without a run; it may get the run of a `StartOnceTask` request. -/
theorem LocksHeld.opWithoutRun {o : Op} {r : o.Res} (h : LocksHeld s (runs L))
    (hallowed : Allowed ℓ o) (hexec : exec ext o c s = some (r, s')) (hrun : ℓ.run = none) :
    LocksHeld s' (runs (Function.update L tid (some (next ℓ o r)))) := by
  rw [runs_update]
  have hlocks := locked_of_no_run hallowed hexec hrun
  have hcases : ∀ j a, Function.update (runs L) tid (next ℓ o r).run j = some a →
      runs L j = some a ∨ ∃ task, a = Run.once task := by
    intro j a ha
    rcases update_eq_some ha with ⟨-, hnext⟩ | ⟨-, hold⟩
    · rcases run_step hallowed hnext with ⟨run, hrun', -⟩ | ⟨-, task, -, hmade⟩
      · rw [hrun] at hrun'
        cases hrun'
      · exact .inr ⟨task, hmade⟩
    · exact .inl hold
  constructor
  case locked =>
    intro j a ha hl
    rw [hlocks]
    rcases hcases j a ha with hold | ⟨task, rfl⟩
    · exact h.locked j a hold hl
    · cases hl
  case unique =>
    intro j j' a a' ha ha' hl hl' heq
    rcases hcases j a ha with hold | ⟨task, rfl⟩
    · rcases hcases j' a' ha' with hold' | ⟨task, rfl⟩
      · exact h.unique j j' a a' hold hold' hl hl' heq
      · cases hl'
    · cases hl
  case held =>
    intro j a ha hscheduled
    rcases hcases j a ha with hold | ⟨task, rfl⟩
    · exact h.held j a hold hscheduled
    · cases hscheduled
  case unstarted =>
    intro j a ha hfired
    rcases hcases j a ha with hold | ⟨task, rfl⟩
    · exact h.unstarted j a hold hfired
    · cases hfired

/-- The operation of a thread whose run `run` becomes `run'`. -/
theorem LocksHeld.opWithRun {o : Op} {r : o.Res} {run run' : Run} (h : LocksHeld s (runs L))
    (hℓ : L tid = some ℓ) (hallowed : Allowed ℓ o) (hexec : exec ext o c s = some (r, s'))
    (hrun : ℓ.run = some run) (hnext : (next ℓ o r).run = some run') (hsame : run.SameRun run')
    (hstep : PhaseStep run o run'.phase run'.attempts) :
    LocksHeld s' (runs (Function.update L tid (some (next ℓ o r)))) := by
  have hr : runs L tid = some run := (runs_of_some hℓ).trans hrun
  rw [runs_update, hnext]
  have hlock := lock_step hallowed hexec hrun hnext
  -- what is locked for another run does not share the entry of a run that takes its lock
  have hapart : ∀ j a, j ≠ tid → runs L j = some a → a.locked = true → run'.locked = true →
      a.entry ≠ run'.entry := by
    intro j a hne ha hl hl' heq
    rw [hsame.entry] at heq
    rcases hlock with ⟨hkeep, -⟩ | ⟨-, hfree, -⟩ | ⟨hreleased, -⟩
    · exact hne (h.unique j tid a run ha hr hl (hkeep ▸ hl') heq)
    · have htaken := h.locked j a ha hl
      rw [heq, hfree] at htaken
      cases htaken
    · rw [hreleased] at hl'
      cases hl'
  constructor
  case locked =>
    intro j a ha hl
    rcases update_eq_some ha with ⟨rfl, ⟨⟩⟩ | ⟨hne, hold⟩
    · rw [hsame.entry]
      rcases hlock with ⟨hkeep, hlocks⟩ | ⟨-, -, hlocks⟩ | ⟨hreleased, -⟩
      · rw [hlocks]
        exact h.locked j run hr (hkeep ▸ hl)
      · rw [hlocks, Function.update_self]
      · rw [hreleased] at hl
        cases hl
    · -- the lock of another run is not the one that is released
      have htaken := h.locked j a hold hl
      rcases hlock with ⟨-, hlocks⟩ | ⟨-, -, hlocks⟩ | ⟨-, hheld, -, hlocks⟩
      · rw [hlocks]
        exact htaken
      · rw [hlocks, Function.update_apply]
        split
        · rfl
        · exact htaken
      · rw [hlocks, Function.update_of_ne]
        · exact htaken
        · exact fun heq => hne (h.unique j tid a run hold hr hl hheld heq)
  case unique =>
    intro j j' a a' ha ha' hl hl' heq
    rcases update_eq_some ha with ⟨rfl, ⟨⟩⟩ | ⟨hne, hold⟩ <;>
      rcases update_eq_some ha' with ⟨rfl, ⟨⟩⟩ | ⟨hne', hold'⟩
    · rfl
    · exact absurd heq.symm (hapart j' a' hne' hold' hl' hl)
    · exact absurd heq (hapart j a hne hold hl hl')
    · exact h.unique j j' a a' hold hold' hl hl' heq
  case held =>
    intro j a ha hscheduled hchain hflight
    rcases update_eq_some ha with ⟨rfl, ⟨⟩⟩ | ⟨-, hold⟩
    · -- the run held its lock before, or takes it to its beginning
      have hheld : run.locked = true ∧ run.phase ≠ .over := by
        rcases inFlight_step hflight hstep with hin | hbegin
        · exact ⟨h.held j run hr (hsame.scheduled ▸ hscheduled) (hsame.chain ▸ hchain) hin, hin.2⟩
        · subst hbegin
          obtain ⟨run₀, hrun₀, hphase, -, hlocked⟩ := hallowed
          obtain rfl : run = run₀ := Option.some.inj (hrun.symm.trans hrun₀)
          exact ⟨hlocked (hsame.chain ▸ hchain), by simp [hphase]⟩
      rcases hlock with ⟨hkeep, -⟩ | ⟨htaken, -⟩ | ⟨-, -, hphase, -⟩
      · exact hkeep.trans hheld.1
      · exact htaken
      · exact absurd hphase hheld.2
    · exact h.held j a hold hscheduled hchain hflight
  case unstarted =>
    intro j a ha hfired
    rcases update_eq_some ha with ⟨rfl, ⟨⟩⟩ | ⟨-, hold⟩
    · obtain ⟨hphase, hattempts⟩ := fired_step hstep hfired
      exact hattempts.trans (h.unstarted j run hr hphase)
    · exact h.unstarted j a hold hfired

/-- The locks are held when the operation of a thread is done. -/
theorem LocksHeld.op {o : Op} {r : o.Res} (h : LocksHeld s (runs L)) (hℓ : L tid = some ℓ)
    (hallowed : Allowed ℓ o) (hexec : exec ext o c s = some (r, s')) :
    LocksHeld s' (runs (Function.update L tid (some (next ℓ o r)))) := by
  cases hrun : ℓ.run with
  | none => exact h.opWithoutRun hallowed hexec hrun
  | some run =>
    obtain ⟨run', hnext⟩ := run_persists hrun o r
    rcases run_step hallowed hnext with ⟨run₀, hrun₀, hsame, hstep⟩ | ⟨hnone, -⟩
    · exact h.opWithRun hℓ hallowed hexec hrun₀ hnext hsame hstep
    · rw [hrun] at hnone
      cases hnone

/-- A run that has just been fired holds no lock yet. -/
theorem LocksHeld.spawn (h : LocksHeld s (runs L)) (hfresh : Fresh s ℓ) :
    LocksHeld s (runs (Function.update L tid (some ℓ))) := by
  constructor
  case locked =>
    intro j a ha hl
    rcases runs_spawn hfresh ha with hold | ⟨x, -, rfl⟩
    · exact h.locked j a hold hl
    · cases hl
  case unique =>
    intro j j' a a' ha ha' hl hl' heq
    rcases runs_spawn hfresh ha with hold | ⟨x, -, rfl⟩
    · rcases runs_spawn hfresh ha' with hold' | ⟨x, -, rfl⟩
      · exact h.unique j j' a a' hold hold' hl hl' heq
      · cases hl'
    · cases hl
  case held =>
    intro j a ha hscheduled hchain hflight
    rcases runs_spawn hfresh ha with hold | ⟨x, -, rfl⟩
    · exact h.held j a hold hscheduled hchain hflight
    · exact absurd rfl hflight.1
  case unstarted =>
    intro j a ha hfired
    rcases runs_spawn hfresh ha with hold | ⟨x, -, rfl⟩
    · exact h.unstarted j a hold hfired
    · rfl

end Locks

/-! ## One generation of runs -/

section Generation

variable {s s' : State} {L : Nat → Option Local} {tid : Nat} {ℓ : Local} {c : Choice}

/-- The strategy is Skip or Delay. -/
def Exclusive (task : Task) : Prop := task.execStrategy = 1 ∨ task.execStrategy = 2

/-- The stored strategy of the task is Skip or Delay. -/
def StoredExclusive (t : Int) (s : State) : Prop :=
  ∀ row, s.db.task.row? t = some row → Exclusive row

instance (task : Task) : Decidable (Exclusive task) :=
  inferInstanceAs (Decidable (_ ∨ _))

instance (t : Int) (s : State) : Decidable (StoredExclusive t s) :=
  inferInstanceAs (Decidable (∀ row ∈ s.db.task.row? t, Exclusive row))

/-- An entry for the task is only made when cron has none, and when all scheduled runs of the
    task are through with their attempts. -/
def StartsAfresh (t : Int) : StepCondition := fun s L _ o _ =>
  match o with
  | .sched (.cronAddJob _ job) => job.taskInfo.id = t →
    (∀ x ∈ s.sched.cron.entries, x.job.taskInfo.id ≠ t) ∧
      ∀ j run, ScheduledRun L t j run → run.AttemptsOver
  | _ => True

/-- The strategy stays exclusive, and entries are only made afresh. -/
def ExclusiveAfresh (t : Int) : StepCondition := fun s L tid o c =>
  StoredExclusive t s ∧ StartsAfresh t s L tid o c

theorem chain_of_exclusive {task : Task} (h : Exclusive task) :
    (wrappedJob task).chain ≠ .recover := by
  show getTaskChain task ≠ .recover
  unfold getTaskChain
  rcases h with h | h <;> simp [h]

/-- All jobs and runs of the task are exclusive, and those that still attempt share one entry. -/
structure OneGeneration (t : Int) (s : State) (L : Nat → Option Local) : Prop where
  entries : ∀ x ∈ s.sched.cron.entries, x.job.taskInfo.id = t → Exclusive x.job.taskInfo
  rows : ∀ j ℓ row, L j = some ℓ → ℓ.row = some row → row.id = t → Exclusive row
  chains : ∀ j run, ScheduledRun L t j run → run.chain ≠ .recover
  one : ∃ e, (∀ x ∈ s.sched.cron.entries, x.job.taskInfo.id = t → x.id = e) ∧
    ∀ j run, ScheduledRun L t j run → ¬ run.AttemptsOver → run.entry = e

/-- The row that a thread has read is one of before, or one that is stored. -/
theorem row_step {o : Op} {r : o.Res} {row : Task} (hexec : exec ext o c s = some (r, s'))
    (hrow : (next ℓ o r).row = some row) : ℓ.row = some row ∨ s.db.task.row? row.id = some row := by
  cases o with
  | sched o => exact .inl hrow
  | run o => exact .inl hrow
  | world o => exact .inl hrow
  | db o =>
    obtain ⟨-, hr, -⟩ := exec_db hexec
    cases o with
    | findTask id =>
      cases r with
      | error err => exact .inl hrow
      | ok row' =>
        cases hrow
        simp only [DbOp.exec, query] at hr
        split at hr
        · cases hr
        · split at hr
          · rename_i row'' hbyId
            cases hr
            have hfound := (Table.byId_eq_some.mp hbyId).1
            have hid : row.id = id := Table.rowId_of_row? hfound
            exact .inr (hid ▸ hfound)
          · cases hr
    | _ => exact .inl hrow

/-- A scheduled run of the task after an operation was one before, and if its attempts are not
    over they were not over before. -/
theorem scheduledRun_step {o : Op} {r : o.Res} {j : Nat} {run' : Run} (hℓ : L tid = some ℓ)
    (hallowed : Allowed ℓ o)
    (h : ScheduledRun (Function.update L tid (some (next ℓ o r))) t j run') :
    ∃ run, ScheduledRun L t j run ∧ run'.chain = run.chain ∧ run'.entry = run.entry ∧
      (run.AttemptsOver → run'.AttemptsOver) := by
  obtain ⟨hrun', hscheduled, htask⟩ := h
  rcases runs_step hℓ hallowed hrun' with ⟨run, hrun, hsame, hstep⟩ | ⟨-, task, -, rfl⟩
  · have hsch : run.scheduled = true := hsame.scheduled ▸ hscheduled
    exact ⟨run, ⟨hrun, hsch, hsame.task ▸ htask⟩, hsame.chain, hsame.entry,
      fun hover => attemptsOver_step hover hsch hsame hstep⟩
  · cases hscheduled

/-- Every operation under the condition keeps the generation, or begins a new one. -/
theorem OneGeneration.op {o : Op} {r : o.Res} (h : OneGeneration t s L) (hℓ : L tid = some ℓ)
    (hallowed : Allowed ℓ o) (hC : ExclusiveAfresh t s L tid o c)
    (hexec : exec ext o c s = some (r, s')) :
    OneGeneration t s' (Function.update L tid (some (next ℓ o r))) := by
  constructor
  case entries =>
    intro x hx hid
    rcases entry_cases hexec hx with hold | ⟨⟨spec, rfl⟩, -⟩
    · exact h.entries x hold hid
    · -- the job is made of the row that the thread has read
      exact h.rows tid ℓ x.job.taskInfo hℓ hallowed.2.1 hid
  case rows =>
    intro j ℓ' row hℓ' hrow hid
    rcases update_eq_some hℓ' with ⟨rfl, ⟨⟩⟩ | ⟨-, hold⟩
    · rcases row_step hexec hrow with hold | hstored
      · exact h.rows j ℓ row hℓ hold hid
      · exact hC.1 row (hid ▸ hstored)
    · exact h.rows j ℓ' row hold hrow hid
  case chains =>
    intro j run' hrun'
    obtain ⟨run, hrun, hchain, -, -⟩ := scheduledRun_step hℓ hallowed hrun'
    rw [hchain]
    exact h.chains j run hrun
  case one =>
    by_cases hadds : ∃ spec job, o = .sched (.cronAddJob spec job) ∧ job.taskInfo.id = t
    · -- a new generation: nothing of the old one is left
      obtain ⟨spec, job, rfl, hid⟩ := hadds
      obtain ⟨hnone, hover⟩ := hC.2 hid
      refine ⟨s.sched.cron.nextID, fun x hx hxt => ?_, fun j run' hrun' hnot => ?_⟩
      · rcases entry_cases hexec hx with hold | ⟨-, hnew⟩
        · exact absurd hxt (hnone x hold)
        · exact hnew
      · obtain ⟨run, hold, -, -, hkeepover⟩ := scheduledRun_step hℓ hallowed hrun'
        exact absurd (hkeepover (hover j run hold)) hnot
    · obtain ⟨e, hentry, hrun⟩ := h.one
      refine ⟨e, fun x hx hxt => ?_, fun j run' hrun' hnot => ?_⟩
      · rcases entry_cases hexec hx with hold | ⟨⟨spec, hadd⟩, -⟩
        · exact hentry x hold hxt
        · exact absurd ⟨spec, x.job, hadd, hxt⟩ hadds
      · obtain ⟨run, hold, -, hsame, hkeepover⟩ := scheduledRun_step hℓ hallowed hrun'
        rw [hsame]
        exact hrun j run hold fun hbefore => hnot (hkeepover hbefore)

theorem OneGeneration.spawn (h : OneGeneration t s L)
    (hw : Wellformed s.sched.cron s.sched.taskList (stages L)) (hfresh : Fresh s ℓ) :
    OneGeneration t s (Function.update L tid (some ℓ)) := by
  -- a new run is one of an entry of cron
  have hcases : ∀ j run, ScheduledRun (Function.update L tid (some ℓ)) t j run →
      ScheduledRun L t j run ∨ ∃ x ∈ s.sched.cron.entries, run = Run.ofEntry x ∧
        x.job.taskInfo.id = t := by
    rintro j run ⟨hrun, hscheduled, htask⟩
    rcases runs_spawn hfresh hrun with hold | ⟨x, hx, rfl⟩
    · exact .inl ⟨hold, hscheduled, htask⟩
    · exact .inr ⟨x, hx, rfl, htask⟩
  obtain ⟨e, hentry, hrun⟩ := h.one
  refine ⟨h.entries, ?_, ?_, e, hentry, ?_⟩
  · intro j ℓ' row hℓ' hrow hid
    rcases update_eq_some hℓ' with ⟨-, ⟨⟩⟩ | ⟨-, hold⟩
    · rcases hfresh with rfl | ⟨x, -, rfl⟩ <;> cases hrow
    · exact h.rows j ℓ' row hold hrow hid
  · intro j run hrun'
    rcases hcases j run hrun' with hold | ⟨x, hx, rfl, hid⟩
    · exact h.chains j run hold
    · show x.job.chain ≠ .recover
      rw [hw.entry_job x hx]
      exact chain_of_exclusive (h.entries x hx hid)
  · intro j run hrun' hnot
    -- a run that has just been fired belongs to the entry of this generation
    rcases hcases j run hrun' with hold | ⟨x, hx, rfl, hid⟩
    · exact hrun j run hold hnot
    · exact hentry x hx hid

/-- After start-up the entry of the task is that of its one instance. -/
theorem OneGeneration.start (h : StartedUp ext AnyStep s) (hstored : StoredExclusive t s) :
    OneGeneration t s fun _ => none := by
  have hs := healthy_of_startedUp h
  -- an entry of the task belongs to the instance under its id
  have hlisted : ∀ x ∈ s.sched.cron.entries, x.job.taskInfo.id = t → ∃ ti,
      s.sched.taskList.lookup t = some ti ∧ ti.entryId = x.id ∧ x.job.taskInfo = ti.taskInfo := by
    intro x hx hid
    obtain ⟨t', ti, hti, he, hjob⟩ := hs.sound.entry_listed x hx
    have hinfo : x.job.taskInfo = ti.taskInfo := by rw [hjob]; rfl
    have hkey := (hs.sound.key_eq t' ti hti).2
    rw [hinfo, hkey] at hid
    subst hid
    exact ⟨ti, hti, he, hinfo⟩
  have hnoRun : ∀ j run, ¬ ScheduledRun (fun _ => none) t j run := by
    rintro j run ⟨hrun, -⟩
    cases hrun
  refine ⟨fun x hx hid => ?_, fun j ℓ row hℓ => (by cases hℓ), fun j run hrun => (hnoRun j run hrun).elim,
    ?_⟩
  · obtain ⟨ti, hti, -, hinfo⟩ := hlisted x hx hid
    obtain ⟨row, hrow, hconf, -⟩ := hs.fresh t ti hti
    -- the snapshot has the strategy of the stored row
    have hsame : row.configuration.execStrategy = ti.taskInfo.configuration.execStrategy :=
      congrArg Task.execStrategy hconf
    change row.execStrategy = ti.taskInfo.execStrategy at hsame
    have hexcl := hstored row hrow
    unfold Exclusive at hexcl ⊢
    rwa [hinfo, ← hsame]
  · cases hti : s.sched.taskList.lookup t with
    | none =>
      refine ⟨0, fun x hx hid => ?_, fun j run hrun => (hnoRun j run hrun).elim⟩
      obtain ⟨ti, hsome, -⟩ := hlisted x hx hid
      rw [hti] at hsome
      cases hsome
    | some ti =>
      refine ⟨ti.entryId, fun x hx hid => ?_, fun j run hrun => (hnoRun j run hrun).elim⟩
      obtain ⟨ti', hsome, he, -⟩ := hlisted x hx hid
      rw [hti, Option.some.injEq] at hsome
      rw [← he, hsome]

end Generation

/-! ## The guarantee -/

section Guarantee

variable {p₀ p : ServerPool}

theorem oneGeneration_of_reach (h₀ : Initial ext p₀) (hstored : StoredExclusive t p₀.shared)
    (h : (server ext).Reach (onOps (ExclusiveAfresh t)) p₀ p) :
    LocksHeld p.shared (runs (locals p)) ∧ OneGeneration t p.shared (locals p) := by
  refine (h₀.invariant (I := fun s L => LocksHeld s (runs L) ∧ OneGeneration t s L) h ?_ ?_ ?_).2
  · exact ⟨⟨by simp [runs], by simp [runs], by simp [runs], by simp [runs]⟩,
      OneGeneration.start h₀.1 hstored⟩
  · rintro s L tid ℓ hw ⟨hlocks, hi⟩ - hfresh
    exact ⟨hlocks.spawn hfresh, hi.spawn hw hfresh⟩
  · rintro s L tid ℓ o c r s' - ⟨hlocks, hi⟩ hℓ hallowed hC hexec
    exact ⟨hlocks.op hℓ hallowed hexec, hi.op hℓ hallowed hC hexec⟩

/-- **One run at a time**: while the stored strategy is Skip or Delay, and entries for the task
    are only made afresh, no two scheduled runs of the task are between the start of their
    first attempt and the end of their last one. -/
theorem one_run_at_a_time (h₀ : Initial ext p₀) (hstored : StoredExclusive t p₀.shared)
    (h : (server ext).Reach (onOps (ExclusiveAfresh t)) p₀ p) :
    ∀ j j' run run', ScheduledRun (locals p) t j run → ScheduledRun (locals p) t j' run' →
      run.Attempting → run'.Attempting → j = j' := by
  intro j j' run run' hrun hrun' hattempting hattempting'
  obtain ⟨hlocks, hgeneration⟩ := oneGeneration_of_reach h₀ hstored h
  -- a run that attempts is in flight, so it holds the lock of its entry
  have hlocked : ∀ i a, ScheduledRun (locals p) t i a → a.Attempting → a.locked = true := by
    intro i a ha hatt
    refine hlocks.held i a ha.1 ha.2.1 (hgeneration.chains i a ha) ⟨fun hfired => ?_, fun hover => ?_⟩
    · have hzero := hlocks.unstarted i a ha.1 hfired
      have hone := hatt.1
      omega
    · exact hatt.2 (.inr (.inr (.inr (.inl hover))))
  -- both runs belong to the one entry whose runs are not through, and share its lock
  obtain ⟨e, -, hentry⟩ := hgeneration.one
  have hsame : run.entry = run'.entry :=
    (hentry j run hrun hattempting.2).trans (hentry j' run' hrun' hattempting'.2).symm
  exact hlocks.unique j j' run run' hrun.1 hrun'.1 (hlocked j run hrun hattempting)
    (hlocked j' run' hrun' hattempting') hsame

end Guarantee

/-! ## Two generations -/

/-- A task with the strategy Skip. -/
def skipTask : Task := { oneTask with execStrategy := 1 }

theorem skipTaskPool_initial : Initial plainExternals (scheduledPool skipTask) := by
  refine ⟨⟨{ emptyDatabase with task := Table.empty.create skipTask 0 }, 0, ?_⟩, fun _ => rfl⟩
  exact runs_of_choices (List.replicate 5 {}) (fun _ _ _ _ => trivial) rfl

theorem skipTaskPool_exclusive : StoredExclusive 1 (scheduledPool skipTask).shared := by decide

/-- A run of an entry that stays the only one attempts alone. -/
theorem one_run_at_a_time_first :
    ∃ p, (∃ run, ScheduledRun (locals p) 1 0 run ∧ run.Attempting) ∧
      ∀ j j' run run', ScheduledRun (locals p) 1 j run → ScheduledRun (locals p) 1 j' run' →
        run.Attempting → run'.Attempting → j = j' := by
  have hrun : ∃ p, (server plainExternals).Reach (onOps (ExclusiveAfresh 1)) (scheduledPool skipTask) p ∧
      ∃ run, ScheduledRun (locals p) 1 0 run ∧ run.Attempting := by
    -- the gate passes, and the command is started
    refine ⟨_, .head ⟨.spawn 0 (.fire 1), trivial, rfl⟩ (.head ⟨.op 0 {}, ?_, rfl⟩
      (.head ⟨.op 0 {}, ?_, rfl⟩ (.head ⟨.op 0 {}, ?_, rfl⟩ (.head ⟨.op 0 {}, ?_, rfl⟩
      (.head ⟨.op 0 { pid := 7 }, ?_, rfl⟩ .refl))))), _, ⟨rfl, rfl, rfl⟩, by decide⟩
    all_goals
      rintro _ _ _ ⟨⟩
      exact ⟨by decide, trivial⟩
  obtain ⟨p, hreach, hattempting⟩ := hrun
  exact ⟨p, hattempting, one_run_at_a_time skipTaskPool_initial skipTaskPool_exclusive hreach⟩

/-- The job of the entry fires and starts its command; a `StopTask` and a `StartTask` request
    are served; then the job of the new entry fires and starts its command. -/
def restartInFlight : List (Label Choice Start) :=
  .spawn 0 (.fire 1) :: List.replicate 7 (.op 0 { pid := 7 }) ++
    .spawn 1 stopRequest :: List.replicate 9 (.op 1 {}) ++
    .spawn 2 startRequest :: List.replicate 7 (.op 2 {}) ++
    .spawn 3 (.fire 2) :: List.replicate 5 (.op 3 { pid := 8 })

/-- The runs of two entries attempt at the same time, though the strategy is Skip throughout. -/
theorem restart_overlaps_runs :
    ¬ ∀ t p₀ p, Initial plainExternals p₀ →
      (server plainExternals).Reach (fun _ q => StoredExclusive t q.shared) p₀ p →
      ∀ j j' run run', ScheduledRun (locals p) t j run → ScheduledRun (locals p) t j' run' →
        run.Attempting → run'.Attempting → j = j' := by
  intro hall
  have hrun : ∃ p, (server plainExternals).run restartInFlight (scheduledPool skipTask) = some p ∧
      (∃ run, ScheduledRun (locals p) 1 0 run ∧ run.Attempting) ∧
      ∃ run, ScheduledRun (locals p) 1 3 run ∧ run.Attempting := by
    refine ⟨_, rfl, ⟨_, ⟨rfl, rfl, rfl⟩, ?_⟩, _, ⟨rfl, rfl, rfl⟩, ?_⟩ <;> decide
  -- the stored row says Skip before every step
  have hstored : ∀ x ∈ (server plainExternals).steps restartInFlight (scheduledPool skipTask),
      StoredExclusive 1 x.1.shared := by decide
  obtain ⟨p, hp, ⟨run, hrun, hattempting⟩, run', hrun', hattempting'⟩ := hrun
  have hsame := hall 1 _ p skipTaskPool_initial (System.reach_of_steps hp hstored) 0 3 run run'
    hrun hrun' hattempting hattempting'
  exact absurd hsame (by decide)

end Gonitor.Concurrent
