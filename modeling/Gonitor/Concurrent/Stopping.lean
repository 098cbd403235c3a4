import Gonitor.Concurrent.Phases

/-!
# What Stopping Stops

`taskInstance.stop` removes the cron entry, kills the processes that are registered at that
moment and deletes the instance.  It tells the runs nothing: to the loop of
`ExecJobWrapper.Run`, the kill is an attempt that has failed like any other.

## Main Results

- `stop_is_final`: after a stop the earlier runs start no command any more, where each of them
  had no attempt left when the stop came to its end.
- `stopped_run_retries`: a run that has a retry left starts the command again.
-/

namespace Gonitor.Concurrent

open Gonitor.Model Gonitor.Server Gonitor.Requests Gonitor.Task AtomicProgram SoftDelete

variable {ext : Externals} {t : Int} {p p' q : ServerPool}

/-- The step from `p` to `p'` is the last one of `taskInstance.stop` for the task, in the thread
    of some request or of `Manager.Stop`. -/
def FinishesStop (ext : Externals) (t : Int) (p p' : ServerPool) : Prop :=
  ∃ tid c key ti, stages (locals p) tid = .stopping key ti ∧ ti.taskInfo.id = t ∧
    AtOp p tid (.sched (.taskListDelete t)) ∧ (server ext).step (.op tid c) p = some p'

/-- The thread carries out a scheduled run of the task that has begun in `p`. -/
def EarlierRun (p : ServerPool) (t : Int) (j : Nat) (run : Run) : Prop :=
  runOf p j = some run ∧ run.scheduled = true ∧ run.task.id = t ∧ run.phase ≠ .fired

/-- From `p` on, the thread starts no command. -/
def NeverStarts (ext : Externals) (p : ServerPool) (j : Nat) : Prop :=
  ∀ q, (server ext).Reach (fun _ _ => True) p q → ∀ task log command args,
    ¬ AtOp q j (.run (.startProcess task log command args))

/-- A run without an attempt left stays one, whatever happens. -/
theorem noAttemptLeft_of_reach {j : Nat} {run : Run} (hd : (server ext).Disciplined Allowed Final p)
    (hrun : runOf p j = some run) (hscheduled : run.scheduled = true) (hleft : run.NoAttemptLeft)
    (h : (server ext).Reach (fun _ _ => True) p q) :
    (server ext).Disciplined Allowed Final q ∧
      ∃ run', runOf q j = some run' ∧ run'.scheduled = true ∧ run'.NoAttemptLeft := by
  refine reach_invariant (I := fun _ L => ∃ run', runs L j = some run' ∧ run'.scheduled = true ∧
    run'.NoAttemptLeft) ?_ ?_ hd ⟨run, hrun, hscheduled, hleft⟩ (reach_anyOp h)
  -- a new thread is another one
  · rintro s L tid ℓ ⟨run', hrun', hrest⟩ hnone -
    have hne : j ≠ tid := by
      rintro rfl
      simp [runs, hnone] at hrun'
    exact ⟨run', by rwa [runs_update, Function.update_of_ne hne], hrest⟩
  -- its own steps give it no attempt, and the steps of other threads do not move it
  · rintro s L tid ℓ o c r s' ⟨run', hrun', hsch, hno⟩ hℓ hallowed - -
    obtain ⟨run'', hnext⟩ := runs_persist hℓ hrun' r
    rcases runs_step hℓ hallowed hnext with ⟨run₀, hrun₀, hsame, hstep⟩ | ⟨hnone, -⟩
    · obtain rfl : run' = run₀ := Option.some.inj (hrun'.symm.trans hrun₀)
      exact ⟨run'', hnext, hsame.scheduled.trans hsch, noAttemptLeft_step hno hsch hsame hstep⟩
    · rw [hrun'] at hnone
      cases hnone

/-- So it starts no command any more. -/
theorem neverStarts_of_noAttemptLeft {j : Nat} {run : Run}
    (hd : (server ext).Disciplined Allowed Final p) (hrun : runOf p j = some run)
    (hscheduled : run.scheduled = true) (hleft : run.NoAttemptLeft) : NeverStarts ext p j := by
  intro q hq task log command args hat
  obtain ⟨hd', run', hrun', hsch, hno⟩ := noAttemptLeft_of_reach hd hrun hscheduled hleft hq
  -- the discipline does not allow the start of a process there
  obtain ⟨ℓ, hℓ, hallowed⟩ := allowed_of_atOp hd' hat
  exact not_startProcess_of_noAttemptLeft ((runs_of_some hℓ).symm.trans hrun') hno hsch hallowed

/-- **Stopping is final** for the runs that have no attempt left when the stop ends: after it,
    none of them starts the command again. -/
theorem stop_is_final (hp : Reached ext p) (hstop : FinishesStop ext t p p')
    (hleft : ∀ j run, EarlierRun p t j run → run.NoAttemptLeft) :
    ∀ j run, EarlierRun p t j run → NeverStarts ext p' j := by
  rintro j run ⟨hrun, hscheduled, htask, hbegun⟩ q hq
  have hnone := hleft j run ⟨hrun, hscheduled, htask, hbegun⟩
  -- the run is as it was before the last step of the stop
  obtain ⟨tid, c, -, -, -, -, -, hstep⟩ := hstop
  exact neverStarts_of_noAttemptLeft hp.disciplined hrun hscheduled hnone q
    (.head ⟨.op tid c, trivial, hstep⟩ hq)

/-! ## Two stops -/

/-- The job of the entry fires and starts its command; then a `StopTask` request reads the row,
    looks the instance up, removes the entry, and signals the run. -/
def stopInsideAttempt : List (Label Choice Start) :=
  .spawn 0 (.fire 1) :: List.replicate 6 (.op 0 { pid := 7 }) ++
    .spawn 1 stopRequest :: List.replicate 5 (.op 1 {})

/-- A run without retries is stopped for good. -/
theorem stop_is_final_withoutRetry : ∃ p p', Reached plainExternals p ∧
    FinishesStop plainExternals 1 p p' ∧ (∃ run, EarlierRun p 1 0 run) ∧
    NeverStarts plainExternals p' 0 := by
  have hrun : ∃ p p', (server plainExternals).run stopInsideAttempt oneTaskPool = some p ∧
      FinishesStop plainExternals 1 p p' ∧ (∃ run, EarlierRun p 1 0 run) ∧
      ∀ j run, EarlierRun p 1 j run → run.NoAttemptLeft := by
    refine ⟨_, _, rfl, ⟨1, {}, 1, _, rfl, rfl, ⟨_, _, rfl⟩, rfl⟩,
      ⟨_, rfl, rfl, rfl, by decide⟩, ?_⟩
    rintro j run ⟨hrun, -, -, -⟩
    -- thread 0 is the only one with a run
    rcases eq_or_ne j 0 with rfl | hne
    · cases hrun
      exact .inl (by decide)
    · rcases eq_or_ne j 1 with rfl | hne'
      · cases hrun
      · simp [runOf, runs, locals, oneTaskPool, hne, hne'] at hrun
  obtain ⟨p, p', hp, hstop, ⟨run, hearlier⟩, hleft⟩ := hrun
  have hreached : Reached plainExternals p := ⟨_, oneTaskPool_initial, System.reach_of_run hp⟩
  exact ⟨p, p', hreached, hstop, ⟨run, hearlier⟩,
    stop_is_final hreached hstop hleft 0 run hearlier⟩

/-- A task with one retry, a second after a failed attempt. -/
def retryTask : Task := { oneTask with retryTimes := 1, retryInterval := 1 }

theorem retryTaskPool_initial : Initial plainExternals (scheduledPool retryTask) := by
  refine ⟨⟨{ emptyDatabase with task := Table.empty.create retryTask 0 }, 0, ?_⟩, fun _ => rfl⟩
  exact runs_of_choices (List.replicate 5 {}) (fun _ _ _ _ => trivial) rfl

/-- The killed attempt fails, the run sleeps, and is before its next attempt. -/
def killedAttempt : List (Label Choice Start) :=
  [.op 0 {}, .op 0 { wait := .failed "signal: killed" "" }, .op 0 {}]

/-- A run that has a retry left starts the command again after the stop. -/
theorem stopped_run_retries :
    ¬ ∀ t p p', Reached plainExternals p → FinishesStop plainExternals t p p' →
      ∀ j run, EarlierRun p t j run → NeverStarts plainExternals p' j := by
  intro hall
  have hrun : ∃ p p' q, (server plainExternals).run stopInsideAttempt (scheduledPool retryTask) = some p ∧
      FinishesStop plainExternals 1 p p' ∧ (∃ run, EarlierRun p 1 0 run) ∧
      (server plainExternals).run killedAttempt p' = some q ∧
      ∃ task log command args, AtOp q 0 (.run (.startProcess task log command args)) :=
    ⟨_, _, _, rfl, ⟨1, {}, 1, _, rfl, rfl, ⟨_, _, rfl⟩, rfl⟩, ⟨_, rfl, rfl, rfl, by decide⟩, rfl,
      _, _, _, _, _, _, rfl⟩
  obtain ⟨p, p', q, hp, hstop, ⟨run, hearlier⟩, hq, task, log, command, args, hat⟩ := hrun
  exact hall 1 p p' ⟨_, retryTaskPool_initial, System.reach_of_run hp⟩ hstop 0 run hearlier q
    (System.reach_of_run hq) task log command args hat

end Gonitor.Concurrent
