import Gonitor.Concurrent.Threads
import Gonitor.Requests.Footprints

/-!
# The Code Follows the Discipline

Every program of the server performs its operations only at the places where `Allowed` has
them, and ends at a place where `Final` lets it end.  One lemma for each function says how
it moves a thread; invariants of the pool then never look at program text again.

## Main Results

- `retryLoop_walks`: the loop of attempts ends with no attempt left.
- `spawn_follows`: every thread of the server follows the discipline.
-/

namespace Gonitor.Concurrent

open Gonitor.Model Gonitor.Server Gonitor.Controller Gonitor.Requests Gonitor.Task AtomicProgram

/-! ## Walking through a program -/

section Walks

variable {α β : Type}

/-- From the place `ℓ` the program keeps to the discipline, and ends as `Q` says. -/
def Walks (p : Program α) (Q : α → Local → Prop) (ℓ : Local) : Prop :=
  p.wp Allowed (fun o ℓ r ℓ' => ℓ' = next ℓ o r) Q ℓ

theorem Walks.pure {a : α} {Q : α → Local → Prop} {ℓ : Local} (h : Q a ℓ) :
    Walks (Pure.pure a) Q ℓ := h

theorem Walks.call {o : Op} {f : o.Res → Program β} {Q : β → Local → Prop} {ℓ : Local}
    (ho : Allowed ℓ o) (h : ∀ r, Walks (f r) Q (next ℓ o r)) :
    Walks (Prog.call o >>= f) Q ℓ := by
  refine ⟨ho, ?_⟩
  rintro r _ rfl
  exact h r

theorem Walks.bind {p : Program α} {f : α → Program β} {Q : α → Local → Prop}
    {Q' : β → Local → Prop} {ℓ : Local} (hp : Walks p Q ℓ)
    (hf : ∀ a ℓ', Q a ℓ' → Walks (f a) Q' ℓ') : Walks (p >>= f) Q' ℓ :=
  (Prog.wp_bind p f Q' ℓ).mpr (Prog.wp_mono hp hf)

theorem Walks.mono {p : Program α} {Q Q' : α → Local → Prop} {ℓ : Local} (hp : Walks p Q ℓ)
    (hQ : ∀ a ℓ', Q a ℓ' → Q' a ℓ') : Walks p Q' ℓ :=
  Prog.wp_mono hp hQ

/-- The two threads' places differ at most in the row that has been read. -/
def SamePlace (ℓ ℓ' : Local) : Prop := ℓ'.stage = ℓ.stage ∧ ℓ'.run = ℓ.run

/-- Plain operations and writes to nodes are allowed everywhere and keep the place. -/
theorem samePlace_of_nodeWork {o : Op} (ho : NodeWork o) (ℓ : Local) :
    Allowed ℓ o ∧ ∀ r, SamePlace ℓ (next ℓ o r) := by
  unfold NodeWork at ho
  split at ho
  case h_4 =>
    unfold Plain at ho
    split at ho
    -- `findTask`, which only changes the row
    case h_1 =>
      refine ⟨trivial, fun r => ?_⟩
      cases r <;> exact ⟨rfl, rfl⟩
    case h_15 => exact ho.elim
    all_goals exact ⟨trivial, fun _ => ⟨rfl, rfl⟩⟩
  all_goals exact ⟨trivial, fun _ => ⟨rfl, rfl⟩⟩

/-- So are the writes to the other tables that no task is in. -/
theorem samePlace_of_sideWork {o : Op} (ho : SideWork o) (ℓ : Local) :
    Allowed ℓ o ∧ ∀ r, SamePlace ℓ (next ℓ o r) := by
  unfold SideWork at ho
  split at ho
  case h_8 => exact samePlace_of_nodeWork ho ℓ
  all_goals exact ⟨trivial, fun _ => ⟨rfl, rfl⟩⟩

theorem Walks.of_sideWork {p : Program α} (hp : p.Uses SideWork) (ℓ : Local) :
    Walks p (fun _ ℓ' => SamePlace ℓ ℓ') ℓ := by
  refine hp.wp (I := fun ℓ' => SamePlace ℓ ℓ') (fun o ℓ₁ ho h => ?_) ⟨rfl, rfl⟩
  obtain ⟨hallowed, hplace⟩ := samePlace_of_sideWork ho ℓ₁
  refine ⟨hallowed, ?_⟩
  rintro r _ rfl
  exact ⟨(hplace r).1.trans h.1, (hplace r).2.trans h.2⟩

theorem Walks.of_plain {p : Program α} (hp : p.Uses Plain) (ℓ : Local) :
    Walks p (fun _ ℓ' => SamePlace ℓ ℓ') ℓ :=
  Walks.of_sideWork ((hp.mono nodeWork_of_plain).mono sideWork_of_nodeWork) ℓ

end Walks

/-! ## The schedule -/

section Schedule

variable {run : Option Run} {ℓ : Local}

/-- The thread is at rest with respect to the schedule, and carries out `run`. -/
def AtRest (run : Option Run) (ℓ : Local) : Prop := ℓ.stage.isSettled = true ∧ ℓ.run = run

theorem AtRest.samePlace {ℓ' : Local} (h : AtRest run ℓ) (hsame : SamePlace ℓ ℓ') :
    AtRest run ℓ' :=
  ⟨hsame.1 ▸ h.1, hsame.2.trans h.2⟩

/-- Saving, inserting and deleting task rows keep the place. -/
theorem Walks.write {β : Type} {o : DbOp} {f : o.Res → Program β} {Q : β → Local → Prop}
    (ho : AllowedDb ℓ o) (hnext : ∀ r, nextDb ℓ o r = ℓ) (h : ∀ r, Walks (f r) Q ℓ) :
    Walks (Prog.call (Op.db o) >>= f) Q ℓ := by
  refine Walks.call (show Allowed ℓ (.db o) from ho) fun r => ?_
  rw [show next ℓ (.db o) r = ℓ from hnext r]
  exact h r

theorem stopEach_walks {taskId : Int} {ti : TaskInstance} (h : ℓ.stage = .stopping taskId ti)
    (logs : List Int) : Walks (stopEach ti.entryId logs) (fun _ ℓ' => ℓ' = ℓ) ℓ := by
  induction logs with
  | nil => exact Walks.pure rfl
  | cons log logs ih =>
    exact Walks.call (show Allowed ℓ (.sched (.stopRunning ti.entryId log)) from
      ⟨taskId, ti, h, rfl⟩) fun _ => ih

theorem stopInstance_walks {taskId : Int} {ti : TaskInstance} (h : ℓ.stage = .found taskId ti) :
    Walks (stopInstance ti) (fun _ ℓ' => ℓ' = { ℓ with stage := .stopped taskId ti }) ℓ := by
  refine Walks.call (show Allowed ℓ (.sched (.cronRemove ti.entryId)) from
    ⟨taskId, ti, h, rfl⟩) fun _ => ?_
  have hnext : next ℓ (.sched (.cronRemove ti.entryId)) () =
      { ℓ with stage := .stopping taskId ti } := by
    simp only [next, Stage.next, h]
  rw [show next ℓ (.sched (.cronRemove ti.entryId)) _ = _ from hnext]
  -- the entry is gone; now the running instances are read and stopped one by one
  refine Walks.call (show Allowed _ (.sched (.runningInstances ti.entryId)) from
    ⟨taskId, ti, rfl, rfl⟩) fun logs => ?_
  refine (stopEach_walks (show Stage.stopping taskId ti = .stopping taskId ti from rfl) logs).bind ?_
  rintro _ _ rfl
  -- `delete(Manager.TaskList, ti.TaskInfo.ID)` at the end of `stop`
  refine ⟨.inl ⟨taskId, ti, rfl, rfl⟩, ?_⟩
  rintro _ _ rfl
  rfl

theorem deleteTask_walks (taskId : Int) (h : AtRest run ℓ) :
    Walks (Gonitor.Task.deleteTask taskId) (fun _ ℓ' => ℓ'.stage = .idle ∧ ℓ'.run = run) ℓ := by
  refine Walks.call (show Allowed ℓ (.sched (.taskListGet taskId)) from h.1) fun r => ?_
  cases r with
  | none => exact Walks.pure ⟨rfl, h.2⟩
  | some ti =>
    refine (stopInstance_walks (ℓ := { ℓ with stage := .found taskId ti }) rfl).bind ?_
    rintro _ _ rfl
    -- `DeleteTask` deletes the key once more
    refine ⟨.inr ⟨taskId, ti, rfl, rfl⟩, ?_⟩
    rintro _ _ rfl
    exact ⟨rfl, h.2⟩

theorem startInstance_walks (taskId : Int) (row : Task) (hstage : ℓ.stage = .idle)
    (hrow : ℓ.row = some row) (hrun : ℓ.run = run) :
    Walks (startInstance taskId row) (fun _ ℓ' => AtRest run ℓ') ℓ := by
  refine Walks.call (show Allowed ℓ (.sched (.cronAddJob row.schedule (wrappedJob row))) from
    ⟨hstage, hrow, rfl⟩) fun r => ?_
  cases r with
  -- cron refuses the schedule: nothing has been listed
  | error err => exact Walks.pure ⟨by rw [show (next ℓ _ _).stage = ℓ.stage from rfl, hstage]; rfl, hrun⟩
  | ok entryId =>
    refine Walks.call (show Allowed _ (.sched (.taskListPut row.id ⟨taskId, row, entryId⟩)) from
      ⟨row, entryId, rfl, rfl, rfl, rfl⟩) fun _ => ?_
    exact Walks.pure ⟨rfl, hrun⟩

theorem addTask_walks (taskId : Int) (h : AtRest run ℓ) :
    Walks (Gonitor.Task.addTask taskId) (fun _ ℓ' => AtRest run ℓ') ℓ := by
  refine Walks.call (show Allowed ℓ (.sched (.taskListGet taskId)) from h.1) fun r => ?_
  cases r with
  -- the task is listed already
  | some ti => exact Walks.pure ⟨rfl, h.2⟩
  | none =>
    refine Walks.call (show Allowed _ (.db (.findTask taskId)) from trivial) fun r => ?_
    cases r with
    | error err => exact Walks.pure ⟨rfl, h.2⟩
    | ok row =>
      dsimp only
      split
      · exact Walks.pure ⟨rfl, h.2⟩
      · -- asking for the node leaves the row that has been read where it is
        unfold Gonitor.Task.isLocalTask
        split
        · exact startInstance_walks taskId row rfl rfl h.2
        · refine Walks.call (show Allowed _ (.db (.findNode _ _)) from trivial) fun r => ?_
          cases r with
          | error err => exact startInstance_walks taskId row rfl rfl h.2
          | ok node =>
            show Walks (if node.isMaster = true then startInstance taskId row else pure (.ok ()))
              _ _
            split
            · exact startInstance_walks taskId row rfl rfl h.2
            · exact Walks.pure ⟨rfl, h.2⟩

theorem stopTasks_walks (taskIds : List Int) (h : AtRest run ℓ) :
    Walks (stopTasks taskIds) (fun _ ℓ' => AtRest run ℓ') ℓ := by
  induction taskIds generalizing ℓ with
  | nil => exact Walks.pure h
  | cons taskId taskIds ih =>
    refine Walks.call (show Allowed ℓ (.sched (.taskListGet taskId)) from h.1) fun r => ?_
    cases r with
    -- another thread has stopped this one in the meantime
    | none => exact ih ⟨rfl, h.2⟩
    | some ti =>
      refine (stopInstance_walks (ℓ := { ℓ with stage := .found taskId ti }) rfl).bind ?_
      rintro _ _ rfl
      exact ih ⟨rfl, h.2⟩

theorem stop_walks (h : AtRest run ℓ) : Walks Gonitor.Task.stop (fun _ ℓ' => AtRest run ℓ') ℓ :=
  Walks.call (show Allowed ℓ (.sched .taskListKeys) from trivial) fun taskIds =>
    stopTasks_walks taskIds h

end Schedule

/-! ## Runs -/

section Runs

variable {ext : Externals} {row : Option Task} {stage : Stage} (run : Run)

/-- The run after one more attempt. -/
def Run.attempted (run : Run) (recorded : Bool) (phase : Phase) : Run :=
  { run with attempts := run.attempts + 1, recorded := recorded, phase := phase }

/-- Where one attempt takes a run: it has passed when there is no error. -/
def AfterAttempt (row : Option Task) (stage : Stage) (run : Run) (ri : RunningInstance)
    (res : RunningInstance × Option String) (ℓ : Local) : Prop :=
  res.1.taskInfo = ri.taskInfo ∧ res.1.taskLogInfo.id = ri.taskLogInfo.id ∧ ∃ recorded,
    ℓ = ⟨row, stage, some (run.attempted recorded (if res.2 = none then .passed else .failed))⟩

theorem checkAssert_walks (ri : RunningInstance) (execStat : TaskExecStat) (recorded : Bool)
    (htask : run.task = ri.taskInfo) :
    Walks (checkAssert ri execStat) (AfterAttempt row stage run ri)
      ⟨row, stage, some (run.attempted recorded
        (if run.task.assert.utf8ByteSize > 0 then .asserting else .passed))⟩ := by
  unfold checkAssert
  split
  · rename_i hassert
    -- an assertion decides whether the attempt has succeeded
    rw [if_pos (htask ▸ hassert)]
    refine Walks.call (show Allowed _ (.run (.taskAssertResult _ _)) from ⟨_, rfl, rfl⟩) fun r => ?_
    cases r with
    | true => exact Walks.pure ⟨rfl, rfl, recorded, rfl⟩
    | false => exact Walks.pure ⟨rfl, rfl, recorded, rfl⟩
  · rename_i hassert
    rw [if_neg (htask ▸ hassert)]
    exact Walks.pure ⟨rfl, rfl, recorded, rfl⟩

/-- One attempt. -/
theorem run_walks (ri : RunningInstance) (hphase : run.phase = .ready)
    (hlog : run.log = some ri.taskLogInfo.id) (htask : run.task = ri.taskInfo)
    (hlimit : run.scheduled = true → run.attempts < run.limit) :
    Walks (ri.run ext) (AfterAttempt row stage run ri) ⟨row, stage, some run⟩ := by
  refine Walks.call (show Allowed _ (.run (.startProcess _ _ _ _)) from
    ⟨run, rfl, hphase, hlog, htask, hlimit⟩) fun r => ?_
  cases r with
  -- `cmd.Start` has failed: no child, and nothing is registered
  | error err => exact Walks.pure ⟨rfl, rfl, run.recorded, rfl⟩
  | ok pid =>
    refine Walks.call (show Allowed _ (.run (.setProcess _ _)) from ⟨_, rfl, rfl, hlog⟩)
      fun _ => ?_
    refine Walks.call (show Allowed _ (.run (.addTaskRunningIns _ _)) from
      ⟨_, rfl, ⟨pid, rfl⟩, hlog, (congrArg (fun t : Task => t.id) htask).symm⟩) fun _ => ?_
    refine Walks.call (show Allowed _ (.run (.reap _)) from ⟨_, rfl, ⟨pid, rfl⟩, hlog, rfl⟩)
      fun _ => ?_
    refine Walks.call (show Allowed _ (.run (.waitReturn _ _)) from ⟨_, rfl, rfl, hlog⟩)
      fun r => ?_
    cases r with
    -- a child that is killed at its timeout and one that fails both end the attempt
    | timedOut => exact Walks.pure ⟨rfl, rfl, true, rfl⟩
    | failed err stderr => exact Walks.pure ⟨rfl, rfl, true, rfl⟩
    | exited stdout =>
      exact checkAssert_walks run (ri.launched pid) _ true htask

/-- Where the loop of attempts takes a run: it has no attempt left. -/
def AfterLoop (row : Option Task) (stage : Stage) (run : Run) (ri ri' : RunningInstance)
    (ℓ : Local) : Prop :=
  ri'.taskInfo = ri.taskInfo ∧ ri'.taskLogInfo.id = ri.taskLogInfo.id ∧
    ∃ attempts recorded phase,
      ℓ = ⟨row, stage, some { run with
        attempts := attempts, recorded := recorded, phase := phase }⟩ ∧
      (phase = .passed ∨ (phase = .ready ∧ run.limit ≤ attempts))

/-- The loop of attempts, from the `i`-th attempt on. -/
theorem retryLoop_walks {taskInfo : Task} (fuel : Nat) (i : Int8) (ri : RunningInstance)
    (hfuel : (execTimes taskInfo).toInt ≤ i.toInt + fuel) (hi : i.toInt = run.attempts)
    (hphase : run.phase = .ready) (hscheduled : run.scheduled = true)
    (hlog : run.log = some ri.taskLogInfo.id) (htask : run.task = ri.taskInfo)
    (hinfo : run.task = taskInfo) :
    Walks (retryLoop ext taskInfo fuel ri i) (AfterLoop row stage run ri)
      ⟨row, stage, some run⟩ := by
  have hlimit : run.limit = (execTimes taskInfo).toInt := by rw [Run.limit, hinfo]
  have hstop : ¬ i < execTimes taskInfo → AfterLoop row stage run ri ri ⟨row, stage, some run⟩ := by
    intro hge
    rw [Int8.lt_iff_toInt_lt] at hge
    exact ⟨rfl, rfl, run.attempts, run.recorded, run.phase, rfl, .inr ⟨hphase, by omega⟩⟩
  -- the rounds left bound the attempts left, so the loop ends by its own condition
  induction fuel generalizing i ri run with
  | zero =>
    refine Walks.pure (hstop ?_)
    rw [Int8.lt_iff_toInt_lt]
    omega
  | succ fuel ih =>
    rw [retryLoop]
    split
    · rename_i hlt
      have hlt' : i.toInt < (execTimes taskInfo).toInt := Int8.lt_iff_toInt_lt.mp hlt
      have hsucc := toInt_succ_of_lt hlt
      refine (run_walks run ri hphase hlog htask fun _ => by omega).bind ?_
      rintro ⟨ri', err⟩ _ ⟨hinfo', hid', recorded, rfl⟩
      -- an attempt without an error is the last one; after an error the run sleeps
      cases err with
      | none => exact Walks.pure ⟨hinfo', hid', _, recorded, .passed, rfl, .inl rfl⟩
      | some err =>
        refine Walks.call (show Allowed _ (.run (.sleep _)) from ⟨_, rfl, rfl, hscheduled⟩)
          fun _ => ?_
        have hnext : Walks (retryLoop ext taskInfo fuel ri' (i + 1))
            (AfterLoop row stage (run.attempted recorded .ready) ri')
            ⟨row, stage, some (run.attempted recorded .ready)⟩ := by
          -- the counter of the loop is the number of attempts made
          refine ih (run.attempted recorded .ready) (i + 1) ri' ?_ ?_ rfl hscheduled ?_ ?_ hinfo
            hlimit ?_
          · push_cast at hfuel
            omega
          · rw [hsucc, hi]
            rfl
          · rw [hid']
            exact hlog
          · rw [hinfo']
            exact htask
          · intro hge
            rw [Int8.lt_iff_toInt_lt] at hge
            refine ⟨rfl, rfl, run.attempts + 1, recorded, .ready, rfl, .inr ⟨rfl, ?_⟩⟩
            have : (run.attempted recorded .ready).limit = run.limit := rfl
            push_cast
            omega
        refine hnext.mono ?_
        rintro ri'' _ ⟨hinfo'', hid'', attempts, recorded', phase, rfl, hend⟩
        exact ⟨hinfo''.trans hinfo', hid''.trans hid', attempts, recorded', phase, rfl, hend⟩
    · rename_i hge
      exact Walks.pure (hstop hge)

/-- The gate: a run that does not get through has ended. -/
theorem beforeRun_walks (taskInfo : Task) (hphase : run.phase = .begun) :
    Walks (beforeRun taskInfo) (fun res ℓ => match res with
      | .error _ => ∃ row', ℓ = ⟨row', stage, some { run with phase := .over }⟩
      | .ok ri => ri.taskInfo = taskInfo ∧ ∃ row', ℓ =
          ⟨row', stage, some { run with log := some ri.taskLogInfo.id, phase := .ready }⟩)
      ⟨row, stage, some run⟩ := by
  refine (Walks.of_plain (validateTaskDependency_uses taskInfo) _).bind ?_
  rintro r ⟨row', stage', run'⟩ ⟨hstage, hrun⟩
  cases hstage
  cases hrun
  cases r with
  | error err =>
    refine Walks.call (show Allowed _ (.world .now) from trivial) fun execTime => ?_
    -- the refusal is logged, and the run is over whether or not this succeeds
    refine Walks.call (show Allowed _ (.db (.createTaskLog _)) from ⟨run, rfl, hphase⟩) fun r => ?_
    cases r <;> exact Walks.pure ⟨row', rfl⟩
  | ok _ =>
    refine Walks.call (show Allowed _ (.world .now) from trivial) fun execTime => ?_
    refine Walks.call (show Allowed _ (.db (.createTaskLog _)) from ⟨run, rfl, hphase⟩) fun r => ?_
    cases r with
    | error err => exact Walks.pure ⟨row', rfl⟩
    | ok log => exact Walks.pure ⟨rfl, row', rfl⟩

/-- `afterRun` leaves a scheduled run at its last step, the removal from `RunningInstances`. -/
theorem afterRun_walks (ri : RunningInstance) (htask : run.task = ri.taskInfo)
    (hphase : run.phase = .passed ∨ run.phase = .ready ∨ run.phase = .failed)
    (hleft : run.scheduled = true → run.NoAttemptLeft) :
    Walks (afterRun ri) (fun res ℓ => ℓ = ⟨row, stage, some { run with
      phase := if res = .ok () ∧ run.scheduled = true then .completing else .over }⟩)
      ⟨row, stage, some run⟩ := by
  refine Walks.call (show Allowed _ (.world .now) from trivial) fun time => ?_
  refine Walks.call (show Allowed _ (.db (.saveTaskLog _)) from ⟨run, rfl, hphase, hleft⟩)
    fun saved => ?_
  split
  · rename_i hhandler
    have hcompleting : next (next ⟨row, stage, some run⟩ (.world .now) time)
        (.db (.saveTaskLog (finalLog ri time))) saved =
        ⟨row, stage, some { run with phase := .completing }⟩ := by
      have : run.scheduled = true ∨ run.task.resultHandler.utf8ByteSize > 0 :=
        .inr (htask ▸ hhandler)
      simp only [next, nextDb, Local.mapRun, Run.logged, Option.map_some, if_pos this]
    rw [hcompleting]
    refine Walks.call (show Allowed _ (.run (.resultHandler _)) from ⟨_, rfl, rfl⟩)
      fun finished => ?_
    cases finished with
    | true => exact Walks.pure (by simp [next, nextRun, Run.advance])
    | false => exact Walks.pure (by simp [next, nextRun, Run.advance])
  · rename_i hhandler
    refine Walks.pure ?_
    have : ¬ run.task.resultHandler.utf8ByteSize > 0 := htask ▸ hhandler
    simp only [next, nextDb, Local.mapRun, Run.logged, Option.map_some, this, or_false, true_and]

theorem removeRunning_walks (ri : RunningInstance) (htask : run.task = ri.taskInfo)
    (hlog : run.log = some ri.taskLogInfo.id) (hphase : run.phase = .completing)
    (hscheduled : run.scheduled = true) :
    Walks (removeRunning ri) (fun _ ℓ => ℓ = ⟨row, stage, some { run with phase := .over }⟩)
      ⟨row, stage, some run⟩ := by
  have hid : ri.taskInfo.id = run.task.id := (congrArg (fun t : Task => t.id) htask).symm
  refine Walks.call (show Allowed _ (.run (.isRegistered _ _)) from
    ⟨run, rfl, hphase, hscheduled, hlog, hid⟩) fun r => ?_
  match r with
  | none => exact Walks.pure rfl
  | some false => exact Walks.pure rfl
  | some true =>
    refine Walks.call (show Allowed _ (.run (.unregister _ _)) from
      ⟨_, rfl, rfl, hscheduled, hlog, hid⟩)
      fun r => ?_
    cases r <;> exact Walks.pure rfl

/-- A scheduled run that has come to its end. -/
def Ended (stage : Stage) (run : Run) (ℓ : Local) : Prop :=
  ∃ row run', ℓ = ⟨row, stage, some run'⟩ ∧ run'.phase = .over ∧ run'.locked = run.locked ∧
    run'.entry = run.entry

/-- `ExecJobWrapper.Run` -/
theorem runJob_walks (hphase : run.phase = .fired) (hscheduled : run.scheduled = true)
    (hattempts : run.attempts = 0) (hlocked : run.chain ≠ .recover → run.locked = true) :
    Walks (runJob ext run.task) (fun _ ℓ => Ended stage run ℓ) ⟨row, stage, some run⟩ := by
  refine Walks.call (show Allowed _ (.run (.newRunningInstance run.task true)) from
    ⟨run, rfl, hphase, rfl, hlocked⟩) fun _ => ?_
  refine (beforeRun_walks { run with phase := .begun } run.task rfl).bind ?_
  intro res ℓ hres
  cases res with
  | error err =>
    obtain ⟨row', rfl⟩ := hres
    exact Walks.pure ⟨row', _, rfl, rfl, rfl, rfl⟩
  | ok ri =>
    obtain ⟨hinfo, row', rfl⟩ := hres
    refine (retryLoop_walks { run with log := some ri.taskLogInfo.id, phase := .ready }
      maxRounds 0 ri ?_ ?_ rfl hscheduled rfl hinfo.symm rfl).bind ?_
    · have := Int8.toInt_lt (execTimes run.task)
      have hzero : (0 : Int8).toInt = 0 := by decide
      simp only [maxRounds]
      omega
    · show (0 : Int8).toInt = (run.attempts : Int)
      rw [hattempts]
      rfl
    · rintro ri' _ ⟨hinfo', hid', attempts, recorded, phase, rfl, hend⟩
      let ended : Run := { run with
        log := some ri.taskLogInfo.id, attempts := attempts, recorded := recorded, phase := phase }
      refine (afterRun_walks ended ri' (hinfo'.trans hinfo).symm ?_ ?_).bind ?_
      · rcases hend with h | ⟨h, -⟩
        · exact .inl h
        · exact .inr (.inl h)
      · intro _
        rcases hend with h | ⟨-, h⟩
        · exact .inr (.inl h)
        · exact .inl h
      · rintro res _ rfl
        cases res with
        | error panic => exact Walks.pure ⟨row', _, rfl, by simp, rfl, rfl⟩
        | ok _ =>
          rw [if_pos ⟨rfl, hscheduled⟩]
          refine (removeRunning_walks { ended with phase := .completing } ri'
            (hinfo'.trans hinfo).symm (congrArg some hid'.symm) rfl hscheduled).mono ?_
          rintro _ _ rfl
          exact ⟨row', _, rfl, rfl, rfl, rfl⟩

theorem releaseOrCrash_walks {ℓ : Local} (result : Except Panic Unit) (hℓ : Ended stage run ℓ)
    (hlocked : run.locked = true) :
    Walks (releaseOrCrash run.entry result) (fun _ ℓ' => ∃ row run', ℓ' = ⟨row, stage, some run'⟩ ∧
      run'.phase = .over) ℓ := by
  obtain ⟨row', run', rfl, hover, hlock, hentry⟩ := hℓ
  cases result with
  | ok _ =>
    refine ⟨⟨run', rfl, hover, hlock.trans hlocked, hentry.symm⟩, ?_⟩
    rintro _ _ rfl
    exact ⟨row', _, rfl, hover⟩
  | error panic =>
    refine ⟨⟨run', rfl, hover⟩, ?_⟩
    rintro _ _ rfl
    exact ⟨row', run', rfl, hover⟩

/-- The wrapped job of an entry. -/
theorem runWrapped_walks (x : Entry) :
    Walks (runWrapped ext x.id x.job) (fun _ ℓ => ∃ row run', ℓ = ⟨row, stage, some run'⟩ ∧
      run'.phase = .over) ⟨row, stage, some (Run.ofEntry x)⟩ := by
  unfold runWrapped
  split
  · rename_i hchain
    have hfree : (Run.ofEntry x).chain ≠ .recover → (Run.ofEntry x).locked = true :=
      fun h => absurd hchain h
    -- the chain with `Recover` has no lock
    refine (runJob_walks (Run.ofEntry x) rfl rfl rfl hfree).bind ?_
    rintro _ _ ⟨row', run', rfl, hover, -, -⟩
    exact Walks.pure ⟨row', run', rfl, hover⟩
  · refine Walks.call (show Allowed _ (.run (.tryAcquire x.id)) from ⟨_, rfl, rfl, rfl, rfl⟩)
      fun r => ?_
    cases r with
    -- the job is still running: this firing is skipped
    | false => exact Walks.pure ⟨row, _, rfl, rfl⟩
    | true =>
      refine (runJob_walks { Run.ofEntry x with locked := true } rfl rfl rfl
        fun _ => rfl).bind ?_
      intro result ℓ hℓ
      exact releaseOrCrash_walks _ result hℓ rfl
  -- this firing waits for the lock
  · refine Walks.call (show Allowed _ (.run (.acquire x.id)) from ⟨_, rfl, rfl, rfl, rfl⟩)
      fun _ => ?_
    refine (runJob_walks { Run.ofEntry x with locked := true } rfl rfl rfl
      fun _ => rfl).bind ?_
    intro result ℓ hℓ
    exact releaseOrCrash_walks _ result hℓ rfl

/-- `Manager.StartOnceTask` -/
theorem startOnceTask_walks (row : Option Task) (stage : Stage) (taskId : Int) :
    Walks (Gonitor.Task.startOnceTask ext taskId) (fun _ ℓ => ∃ row run?, ℓ = ⟨row, stage, run?⟩ ∧
      ∀ run, run? = some run → run.phase = .over) ⟨row, stage, none⟩ := by
  refine Walks.call (show Allowed _ (.db (.findTask taskId)) from trivial) fun r => ?_
  cases r with
  | error err => exact Walks.pure ⟨row, none, rfl, fun _ h => by cases h⟩
  | ok task =>
    refine Walks.call (show Allowed _ (.run (.newRunningInstance task false)) from rfl) fun _ => ?_
    refine (beforeRun_walks (Run.once task) task rfl).bind ?_
    intro res ℓ hres
    cases res with
    | error err =>
      obtain ⟨row', rfl⟩ := hres
      refine Walks.pure ⟨row', _, rfl, ?_⟩
      rintro _ ⟨⟩
      rfl
    | ok ri =>
      obtain ⟨hinfo, row', rfl⟩ := hres
      refine (run_walks { Run.once task with
        log := some ri.taskLogInfo.id, phase := .ready } ri rfl rfl hinfo.symm
        (fun h => by cases h)).bind ?_
      rintro ⟨ri', err⟩ _ ⟨hinfo', hid', recorded, rfl⟩
      -- its one attempt has passed or failed
      refine (afterRun_walks _ ri' (hinfo'.trans hinfo).symm ?_ (fun h => by cases h)).bind ?_
      · cases err with
        | none => exact .inl rfl
        | some err => exact .inr (.inr rfl)
      · rintro res _ rfl
        cases res with
        | error panic =>
          refine Walks.pure ⟨row', _, rfl, ?_⟩
          rintro _ ⟨⟩
          simp
        | ok _ =>
          refine Walks.pure ⟨row', _, rfl, ?_⟩
          rintro _ ⟨⟩
          simp [Run.attempted, Run.once]

end Runs

/-! ## Requests -/

section Requests

variable {ext : Externals} {run : Option Run} {ℓ : Local}

/-- A response after an audit entry. -/
theorem logged_walks (caller : Caller) (t : Task) (opType : String) (reply : Reply)
    (h : AtRest run ℓ) :
    Walks (do logTaskOperation caller t opType; pure reply) (fun _ ℓ' => AtRest run ℓ') ℓ :=
  (Walks.of_plain (logged_uses caller t opType reply) ℓ).mono fun _ _ hsame => h.samePlace hsame

theorem syncTaskToNode_walks (taskId : Int) (h : AtRest run ℓ) :
    Walks (syncTaskToNode taskId) (fun _ ℓ' => AtRest run ℓ') ℓ := by
  refine Walks.call (show Allowed ℓ (.db (.findTask taskId)) from trivial) fun r => ?_
  cases r with
  | error err => exact Walks.pure h
  | ok taskModel =>
    have h' : AtRest run (next ℓ (.db (.findTask taskId)) (.ok taskModel)) := h
    dsimp only
    split
    · exact addTask_walks taskId h'
    · refine Walks.call (show Allowed _ (.db (.findNode _ _)) from trivial) fun r => ?_
      cases r with
      | error err => exact Walks.pure h'
      | ok nodeModel =>
        dsimp only
        split
        · exact addTask_walks taskId h'
        · exact Walks.pure h'

theorem addTaskRequest_walks (caller : Caller) (body : Except String TaskMutationPayload)
    (h : AtRest run ℓ) :
    Walks (Controller.addTask ext caller body) (fun _ ℓ' => AtRest run ℓ') ℓ := by
  unfold Controller.addTask
  cases body with
  | error err => exact Walks.pure h
  | ok addInfo =>
    refine (Walks.of_plain (validateTaskMutationPayload_uses ext 0 addInfo) ℓ).bind ?_
    intro r ℓ₁ hsame
    have h₁ := h.samePlace hsame
    cases r with
    | some err => exact Walks.pure h₁
    | none =>
      refine Walks.write (show AllowedDb ℓ₁ (.createTask _) from trivial) (fun _ => rfl) fun r => ?_
      cases r with
      | error err => exact Walks.pure h₁
      | ok taskModel =>
        refine (syncTaskToNode_walks taskModel.id h₁).bind ?_
        intro r ℓ₂ h₂
        cases r with
        | error err => exact Walks.pure h₂
        | ok _ => exact logged_walks _ _ _ _ h₂

theorem editTaskRequest_walks (caller : Caller) (taskId : Int)
    (body : Except String TaskMutationPayload) (h : AtRest run ℓ) :
    Walks (Controller.editTask ext caller taskId body) (fun _ ℓ' => AtRest run ℓ') ℓ := by
  unfold Controller.editTask
  cases body with
  | error err => exact Walks.pure h
  | ok editInfo =>
    refine Walks.call (show Allowed ℓ (.db (.findTask taskId)) from trivial) fun r => ?_
    cases r with
    | error err => exact Walks.pure h
    | ok taskModel =>
      refine (Walks.of_plain (validateTaskMutationPayload_uses ext taskModel.id editInfo) _).bind ?_
      intro r ℓ₁ hsame
      have h₁ : AtRest run ℓ₁ :=
        (show AtRest run (next ℓ (.db (.findTask taskId)) (.ok taskModel)) from h).samePlace hsame
      cases r with
      | some err => exact Walks.pure h₁
      | none =>
        refine Walks.write (show AllowedDb ℓ₁ (.saveTask _) from trivial) (fun _ => rfl) fun r => ?_
        cases r with
        | error err => exact Walks.pure h₁
        | ok _ =>
          -- the old instance is stopped, and a local task that is enabled is listed again
          refine (deleteTask_walks taskModel.id h₁).bind ?_
          rintro _ ℓ₂ ⟨hidle, hrun⟩
          have h₂ : AtRest run ℓ₂ := ⟨by rw [hidle]; rfl, hrun⟩
          refine (Walks.of_plain (isLocalTask_uses _) ℓ₂).bind ?_
          intro isLocal ℓ₃ hsame
          have h₃ := h₂.samePlace hsame
          split
          · refine (addTask_walks taskModel.id h₃).bind ?_
            intro r ℓ₄ h₄
            cases r with
            | error err => exact Walks.pure h₄
            | ok _ => exact logged_walks _ _ _ _ h₄
          · exact logged_walks _ _ _ _ h₃

theorem deleteTaskRequest_walks (caller : Caller) (taskId : Int) (h : AtRest run ℓ) :
    Walks (Controller.deleteTask caller taskId) (fun _ ℓ' => AtRest run ℓ') ℓ := by
  refine Walks.call (show Allowed ℓ (.db (.findTask taskId)) from trivial) fun r => ?_
  cases r with
  | error err => exact Walks.pure h
  | ok taskModel =>
    refine Walks.write (show AllowedDb _ (.deleteTask _) from trivial) (fun _ => rfl) fun r => ?_
    cases r with
    | error err => exact Walks.pure h
    | ok _ => exact logged_walks _ _ _ _ h

theorem stopTaskRequest_walks (caller : Caller) (taskId : Int) (h : AtRest run ℓ) :
    Walks (Controller.stopTask caller taskId) (fun _ ℓ' => AtRest run ℓ') ℓ := by
  refine Walks.call (show Allowed ℓ (.db (.findTask taskId)) from trivial) fun r => ?_
  cases r with
  | error err => exact Walks.pure h
  | ok taskModel =>
    refine (deleteTask_walks taskId
      (show AtRest run (next ℓ (.db (.findTask taskId)) (.ok taskModel)) from h)).bind ?_
    rintro _ ℓ₁ ⟨hidle, hrun⟩
    have h₁ : AtRest run ℓ₁ := ⟨by rw [hidle]; rfl, hrun⟩
    refine Walks.write (show AllowedDb ℓ₁ (.saveTask _) from trivial) (fun _ => rfl) fun _ => ?_
    exact logged_walks _ _ _ _ h₁

theorem startTaskRequest_walks (caller : Caller) (taskId : Int) (h : AtRest run ℓ) :
    Walks (Controller.startTask caller taskId) (fun _ ℓ' => AtRest run ℓ') ℓ := by
  refine Walks.call (show Allowed ℓ (.db (.findTask taskId)) from trivial) fun r => ?_
  cases r with
  | error err => exact Walks.pure h
  | ok taskModel =>
    refine Walks.write (show AllowedDb _ (.saveTask _) from trivial) (fun _ => rfl) fun r => ?_
    cases r with
    | error err => exact Walks.pure h
    | ok _ =>
      refine (addTask_walks taskId
        (show AtRest run (next ℓ (.db (.findTask taskId)) (.ok taskModel)) from h)).bind ?_
      intro r ℓ₁ h₁
      cases r with
      | error err => exact Walks.pure h₁
      | ok _ => exact logged_walks _ _ _ _ h₁

theorem startOnceTaskRequest_walks (caller : Caller) (taskId : Int) :
    Walks (Controller.startOnceTask ext caller taskId) (fun _ ℓ' => Final ℓ') .init := by
  refine Walks.call (show Allowed Local.init (.db (.findTask taskId)) from trivial) fun r => ?_
  cases r with
  | error err => exact Walks.pure ⟨rfl, fun _ h => by cases h⟩
  | ok taskModel =>
    refine (startOnceTask_walks (some taskModel) .idle taskId).bind ?_
    rintro r _ ⟨row', run?, rfl, hover⟩
    have hfinal : ∀ row, Final ⟨row, .idle, run?⟩ := fun row => ⟨rfl, hover⟩
    match r with
    | .panicked => exact Walks.pure (hfinal row')
    | .returned output (some err) => exact Walks.pure (hfinal row')
    | .returned output none =>
      refine (Walks.of_plain (logged_uses caller taskModel "TestTask" _) _).mono ?_
      rintro _ ⟨row'', stage'', run''⟩ ⟨hstage, hrun⟩
      cases hstage
      cases hrun
      exact hfinal row''

theorem AtRest.final (h : AtRest none ℓ) : Final ℓ := by
  refine ⟨h.1, fun run hrun => ?_⟩
  rw [h.2] at hrun
  cases hrun

/-- Every handler but that of `ImportTasks`. -/
theorem handle_walks (caller : Caller) (req : Request) (hreq : ∀ body, req ≠ .importTasks body) :
    Walks (req.handle ext caller) (fun _ ℓ => Final ℓ) .init := by
  have h : AtRest none Local.init := ⟨rfl, rfl⟩
  have hside : ∀ p : Program Reply, p.Uses SideWork → Walks p (fun _ ℓ => Final ℓ) .init :=
    fun p hp => (Walks.of_sideWork hp .init).mono fun _ _ hsame => (h.samePlace hsame).final
  have hnode : ∀ p : Program Reply, p.Uses NodeWork → Walks p (fun _ ℓ => Final ℓ) .init :=
    fun p hp => hside p (hp.mono sideWork_of_nodeWork)
  have haccount : ∀ p : Program Reply, p.Uses AccountWork → Walks p (fun _ ℓ => Final ℓ) .init :=
    fun p hp => hside p (hp.mono sideWork_of_accountWork)
  cases req with
  | addTask body => exact (addTaskRequest_walks caller body h).mono fun _ _ h' => h'.final
  | editTask taskId body =>
    exact (editTaskRequest_walks caller taskId body h).mono fun _ _ h' => h'.final
  | deleteTask taskId =>
    exact (deleteTaskRequest_walks caller taskId h).mono fun _ _ h' => h'.final
  | startTask taskId => exact (startTaskRequest_walks caller taskId h).mono fun _ _ h' => h'.final
  | stopTask taskId => exact (stopTaskRequest_walks caller taskId h).mono fun _ _ h' => h'.final
  | startOnceTask taskId => exact startOnceTaskRequest_walks caller taskId
  | importTasks body => exact absurd rfl (hreq body)
  | addNode body => exact hnode _ (addNode_uses caller body)
  | editNode nodeId body => exact hnode _ (editNode_uses caller nodeId body)
  | deleteNode nodeId => exact hnode _ (deleteNode_uses caller nodeId)
  | regenerateNodeKey nodeId => exact hnode _ (regenerateNodeKey_uses nodeId)
  | deployNode body => exact hnode _ (deployNode_uses caller body)
  | deployNewNode body => exact hnode _ (deployNewNode_uses caller body)
  | agentHeartbeat secretKey info => exact hside _ (agentHeartbeat_uses secretKey info)
  | agentGetTasks secretKey since => exact hside _ (agentGetTasks_uses secretKey since)
  | agentReportTaskResult secretKey body =>
    exact hside _ (agentReportTaskResult_uses secretKey body)
  | agentCheckUpdate secretKey version => exact hside _ (agentCheckUpdate_uses ext secretKey version)
  | agentReportEvents secretKey body => exact hside _ (agentReportEvents_uses secretKey body)
  | userLogin loginAccount password =>
    exact haccount _ (userLogin_uses ext caller.clientIP loginAccount password)
  | addUser body => exact haccount _ (addUser_uses caller body)
  | editUser userId body => exact haccount _ (editUser_uses caller userId body)
  | deleteUser userId => exact haccount _ (deleteUser_uses caller userId)

end Requests

/-! ## The pool -/

section ServerPools

variable {ext : Externals}

/-- What can be spawned. -/
theorem spawn_cases {x : Start} {s : State} {th : Thread Op Op.Res Reply Local}
    (h : spawn ext x s = some th) :
    (∃ (caller : Caller) (req : Request), x = .request caller req ∧
      (∀ body, req ≠ .importTasks body) ∧ th = ⟨req.handle ext caller, .init⟩) ∨
    (x = .managerStop ∧ th = ⟨do Gonitor.Task.stop; pure .done, .init⟩) ∨
    ∃ e entry, x = .fire e ∧ entry ∈ s.sched.cron.entries ∧ entry.id = e ∧
      th = ⟨do runWrapped ext entry.id entry.job; pure .done,
        { Local.init with run := some (Run.ofEntry entry) }⟩ := by
  unfold spawn at h
  split at h
  · cases h
  · split at h
    · cases h
    · rename_i caller req hreq
      cases h
      exact .inl ⟨caller, req, rfl, hreq, rfl⟩
    · cases h
      exact .inr (.inl ⟨rfl, rfl⟩)
    · split at h
      · cases h
      · rename_i e _ entry hfind
        cases h
        refine .inr (.inr ⟨_, entry, rfl, List.mem_of_find?_eq_some hfind, ?_, rfl⟩)
        simpa using List.find?_some hfind

/-- **The code follows the discipline**: every thread of the server does. -/
theorem spawn_follows (x : Start) (s : State) (th : Thread Op Op.Res Reply Local)
    (h : spawn ext x s = some th) : (server ext).Follows Allowed Final th.prog th.loc := by
  rcases spawn_cases h with ⟨caller, req, -, hreq, rfl⟩ | ⟨-, rfl⟩ | ⟨e, entry, -, -, -, rfl⟩
  · exact handle_walks caller req hreq
  · have h : AtRest none Local.init := ⟨rfl, rfl⟩
    refine (stop_walks h).bind ?_
    intro _ ℓ hℓ
    exact Walks.pure hℓ.final
  · refine (runWrapped_walks entry).bind ?_
    rintro _ _ ⟨row, run, rfl, hover⟩
    refine Walks.pure ⟨rfl, ?_⟩
    rintro _ ⟨⟩
    exact hover

end ServerPools

end Gonitor.Concurrent
