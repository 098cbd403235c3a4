import Gonitor.Requests.Footprints
import Gonitor.Task.Calls

/-!
# The Parts of a Run

A run of a task has a gate (`beforeRun`), its calls of `run`, and a completion (`afterRun`, and on
the scheduled path the removal of the instance).  The traces of the gate and of the completion are
short; what they do is said here once.

## Main Results

- `beforeRun_ends`: a gate that passes ends with the insertion of the log row.
- `afterRun_ends`: the completion reads the clock, saves the row, and calls the result handler.
- `runJob_ends`, `startOnceTask_ends`: every run fails at the gate or is a `TaskRun`.
- `runJob_performed`: so does every run on the state of a server.
-/

namespace Gonitor.Task

open Gonitor.Model Gonitor.Server Gonitor.Requests AtomicProgram

/-! ## The gate -/

/-- The operations of the gate: reads, and the insertion of a log row. -/
def GateOp : Op → Prop
  | .db (.createTaskLog _) => True
  | o => Plain o

theorem gateOp_of_plain (o : Op) (h : Plain o) : GateOp o := by
  unfold GateOp
  split
  · trivial
  · exact h

section Gate

variable {taskInfo : Task} {ri : RunningInstance} {tr : Trace Op Op.Res}

theorem beforeRun_uses (taskInfo : Task) : (beforeRun taskInfo).Uses GateOp := by
  refine ((validateTaskDependency_uses taskInfo).mono gateOp_of_plain).bind fun r => ?_
  cases r with
  | error err =>
    refine Prog.Uses.bind ?_ fun _ => trivial
    refine Prog.Uses.call_bind trivial fun execTime => Prog.Uses.call_bind trivial fun r => ?_
    cases r <;> trivial
  | ok _ =>
    refine Prog.Uses.call_bind trivial fun execTime => Prog.Uses.call_bind trivial fun r => ?_
    cases r <;> trivial

/-- **A gate that passes** checks the dependency, reads the clock and inserts the log row. -/
theorem beforeRun_ends (h : (beforeRun taskInfo).Ends tr (.ok ri)) :
    ∃ check execTime row, tr = check ++ [⟨.world .now, execTime⟩,
        ⟨.db (.createTaskLog (newTaskLog taskInfo true execTime)), .ok row⟩] ∧
      (validateTaskDependency taskInfo).Ends check (.ok ()) ∧ ri = ⟨taskInfo, row, []⟩ := by
  obtain ⟨passed, check, rest, rfl, hcheck, h₁⟩ := Prog.Ends.bind h
  cases passed with
  | error err =>
    obtain ⟨err, _, _, rfl, -, h₂⟩ := Prog.Ends.bind h₁
    have hends := Prog.Ends.of_pure h₂
    cases hends.2
  | ok _ =>
    obtain ⟨execTime, rest₂, rfl, h₂⟩ := Prog.Ends.of_call_bind h₁
    obtain ⟨created, rest₃, rfl, h₃⟩ := h₂.of_call_bind
    cases created with
    | error err =>
      have hends := Prog.Ends.of_pure h₃
      cases hends.2
    | ok row =>
      obtain ⟨rfl, heq⟩ := Prog.Ends.of_pure h₃
      cases heq
      exact ⟨check, execTime, row, rfl, hcheck, rfl⟩

/-- The gate leaves an instance of its task without records. -/
theorem instance_of_beforeRun (h : (beforeRun taskInfo).Ends tr (.ok ri)) :
    ri.taskInfo = taskInfo ∧ ri.execResultList = [] := by
  obtain ⟨check, execTime, row, -, -, rfl⟩ := beforeRun_ends h
  exact ⟨rfl, rfl⟩

end Gate

/-! ## The completion -/

/-- The operations of the removal of an instance. -/
def RemovalOp : Op → Prop
  | .run (.isRegistered _ _) | .run (.unregister _ _) => True
  | _ => False

/-- The operations of the completion. -/
def CompletionOp : Op → Prop
  | .world .now | .db (.saveTaskLog _) | .run (.resultHandler _) => True
  | o => RemovalOp o

theorem completionOp_of_removalOp (o : Op) (h : RemovalOp o) : CompletionOp o := by
  unfold CompletionOp
  split
  case h_4 => exact h
  all_goals trivial

/-- The deferred function of `ExecJobWrapper.Run`. -/
def completion (ri : RunningInstance) : Program (Except Panic Unit) := do
  match ← afterRun ri with
  | .error panic => pure (.error panic)
  | .ok _ => removeRunning ri

section Completion

variable {ri : RunningInstance} {tr : Trace Op Op.Res} {r : Except Panic Unit}

/-- The call of the result handler, and whether it comes back. -/
def handled (ri : RunningInstance) (finished : Bool) : Trace Op Op.Res :=
  if 0 < ri.taskInfo.resultHandler.utf8ByteSize then
    [⟨.run (.resultHandler ri.taskInfo.resultHandler), finished⟩]
  else []

/-- **`afterRun`** reads the clock, saves the row, and calls the result handler; it panics where
    that does. -/
theorem afterRun_ends (h : (afterRun ri).Ends tr r) :
    ∃ time saved finished, tr = ⟨.world .now, time⟩ ::
        ⟨.db (.saveTaskLog (finalLog ri time)), saved⟩ :: handled ri finished ∧
      (r = if 0 < ri.taskInfo.resultHandler.utf8ByteSize ∧ finished = false then
        .error .resultHandler else .ok ()) := by
  obtain ⟨time, rest₁, rfl, h₁⟩ := Prog.Ends.of_call_bind h
  obtain ⟨saved, rest₂, rfl, h₂⟩ := h₁.of_call_bind
  unfold handled
  by_cases hhandler : 0 < ri.taskInfo.resultHandler.utf8ByteSize
  · rw [if_pos hhandler] at h₂
    obtain ⟨finished, rest₃, rfl, h₃⟩ := h₂.of_call_bind
    refine ⟨time, saved, finished, ?_⟩
    cases finished with
    | true =>
      obtain ⟨rfl, rfl⟩ := Prog.Ends.of_pure h₃
      simp [hhandler]
    | false =>
      obtain ⟨rfl, rfl⟩ := Prog.Ends.of_pure h₃
      simp [hhandler]
  · rw [if_neg hhandler] at h₂
    obtain ⟨rfl, rfl⟩ := Prog.Ends.of_pure h₂
    exact ⟨time, saved, true, by simp [hhandler]⟩

theorem afterRun_uses (ri : RunningInstance) : (afterRun ri).Uses CompletionOp := by
  refine Prog.Uses.call_bind trivial fun time => Prog.Uses.call_bind trivial fun _ => ?_
  split
  · refine Prog.Uses.call_bind trivial fun finished => ?_
    cases finished <;> trivial
  · trivial

theorem removeRunning_uses (ri : RunningInstance) : (removeRunning ri).Uses RemovalOp := by
  refine Prog.Uses.call_bind trivial fun registered => ?_
  cases registered with
  | none => trivial
  | some found =>
    cases found with
    | false => trivial
    | true =>
      refine Prog.Uses.call_bind trivial fun removed => ?_
      cases removed <;> trivial

theorem completion_uses (ri : RunningInstance) : (completion ri).Uses CompletionOp := by
  refine (afterRun_uses ri).bind fun r => ?_
  cases r with
  | error panic => trivial
  | ok _ => exact (removeRunning_uses ri).mono completionOp_of_removalOp

/-- The completion goes on to the removal of the instance, unless `afterRun` panics. -/
theorem completion_ends (h : (completion ri).Ends tr r) :
    ∃ after removal completed, tr = after ++ removal ∧ (afterRun ri).Ends after completed ∧
      ((completed = .ok () ∧ ∃ r, (removeRunning ri).Ends removal r) ∨
        (∃ panic, completed = .error panic) ∧ removal = []) := by
  obtain ⟨completed, after, removal, rfl, hafter, hrest⟩ := Prog.Ends.bind h
  refine ⟨after, removal, completed, rfl, hafter, ?_⟩
  cases completed with
  | error panic => exact .inr ⟨⟨panic, rfl⟩, (Prog.Ends.of_pure hrest).1⟩
  | ok _ => exact .inl ⟨rfl, _, hrest⟩

end Completion

/-! ## The job -/

section Job

variable {ext : Externals} {taskInfo : Task} {ri ri' : RunningInstance} {tr : Trace Op Op.Res}

/-- A run of the job whose gate passes: the gate, the loop of attempts, and the completion. -/
structure JobRun (ext : Externals) (taskInfo : Task) (tr : Trace Op Op.Res)
    (ri ri' : RunningInstance) : Prop where
  parts : ∃ gate loop rest result,
    tr = ⟨.run (.newRunningInstance taskInfo true), ()⟩ :: (gate ++ (loop ++ rest)) ∧
      (beforeRun taskInfo).Ends gate (.ok ri) ∧
      (retryLoop ext taskInfo maxRounds ri 0).Ends loop ri' ∧
      (completion ri').Ends rest result

/-- It is a run of `ExecJobWrapper.Run`. -/
theorem JobRun.ends (h : JobRun ext taskInfo tr ri ri') :
    ∃ result, (runJob ext taskInfo).Ends tr result := by
  obtain ⟨gate, loop, rest, result, rfl, hgate, hloop, hrest⟩ := h.parts
  exact ⟨result, .op (hgate.append (hloop.append hrest))⟩

/-- The loop has rounds enough. -/
theorem maxRounds_enough (taskInfo : Task) :
    (execTimes taskInfo).toInt ≤ (0 : Int8).toInt + (maxRounds : Nat) := by
  have hmax := Int8.toInt_lt (execTimes taskInfo)
  have hzero : (0 : Int8).toInt = 0 := by decide
  show (execTimes taskInfo).toInt ≤ (0 : Int8).toInt + ((128 : Nat) : Int)
  omega

/-- A run of the job with its calls of `run`. -/
structure ScheduledRun (ext : Externals) (taskInfo : Task) (tr : Trace Op Op.Res)
    (calls : List Call) (ri ri' : RunningInstance) : Prop where
  parts : ∃ gate loop rest result,
    tr = ⟨.run (.newRunningInstance taskInfo true), ()⟩ :: (gate ++ (loop ++ rest)) ∧
      (beforeRun taskInfo).Ends gate (.ok ri) ∧ Loop ext taskInfo 0 ri calls loop ri' ∧
      (completion ri').Ends rest result

/-- The loop of a run of the job can be cut into its calls of `run`. -/
theorem jobRun_iff : JobRun ext taskInfo tr ri ri' ↔
    ∃ calls, ScheduledRun ext taskInfo tr calls ri ri' := by
  constructor
  · rintro ⟨gate, loop, rest, result, htr, hgate, hloop, hrest⟩
    obtain ⟨calls, hcalls⟩ := (retryLoop_ends_iff (maxRounds_enough taskInfo)).mp hloop
    exact ⟨calls, gate, loop, rest, result, htr, hgate, hcalls, hrest⟩
  · rintro ⟨calls, gate, loop, rest, result, htr, hgate, hcalls, hrest⟩
    have hloop := (retryLoop_ends_iff (maxRounds_enough taskInfo)).mpr ⟨calls, hcalls⟩
    exact ⟨gate, loop, rest, result, htr, hgate, hloop, hrest⟩

/-- Every run of the job either fails at the gate or is such a run. -/
theorem runJob_ends {result : Except Panic Unit} (h : (runJob ext taskInfo).Ends tr result) :
    (∃ gate err, tr = ⟨.run (.newRunningInstance taskInfo true), ()⟩ :: gate ∧
      (beforeRun taskInfo).Ends gate (.error err)) ∨
    ∃ ri ri', JobRun ext taskInfo tr ri ri' := by
  obtain ⟨⟨⟩, rest₁, rfl, h₁⟩ := Prog.Ends.of_call_bind h
  obtain ⟨passed, gate, rest₂, rfl, hgate, h₂⟩ := Prog.Ends.bind h₁
  cases passed with
  | error err =>
    obtain ⟨rfl, rfl⟩ := Prog.Ends.of_pure h₂
    rw [List.append_nil]
    exact .inl ⟨gate, err, rfl, hgate⟩
  | ok ri =>
    obtain ⟨ri', loop, rest, rfl, hloop, h₃⟩ := Prog.Ends.bind h₂
    exact .inr ⟨ri, ri', gate, loop, rest, result, rfl, hgate, hloop, h₃⟩

end Job

/-! ## The two run paths -/

/-- A run whose gate passes, with its calls of `run`: on the scheduled path, or for a request. -/
inductive TaskRun (ext : Externals) (taskInfo : Task) :
    Trace Op Op.Res → List Call → RunningInstance → Prop
  | scheduled {tr : Trace Op Op.Res} {calls : List Call} {ri ri' : RunningInstance} :
      ScheduledRun ext taskInfo tr calls ri ri' → TaskRun ext taskInfo tr calls ri'
  | once {taskId : Int} {gate rest : Trace Op Op.Res} {a : Attempt} {err : Option String}
      {ri ri' : RunningInstance} {result : Except Panic Unit} :
      (beforeRun taskInfo).Ends gate (.ok ri) → a.Possible taskInfo →
      (ri.run ext).Ends (a.answers ext ri) (ri', err) → (afterRun ri').Ends rest result →
      TaskRun ext taskInfo
        (⟨.db (.findTask taskId), .ok taskInfo⟩ :: ⟨.run (.newRunningInstance taskInfo false), ()⟩ ::
          (gate ++ (a.answers ext ri ++ rest))) [⟨a, err⟩] ri'

section TaskRun

variable {ext : Externals} {taskInfo : Task} {ri ri' : RunningInstance} {tr : Trace Op Op.Res}

/-- A job that runs alone on a server performs such a run, unless it fails at the gate. -/
theorem runJob_performed {K : State → Op → Choice → Prop} {s s' : State}
    {result : Except Panic Unit}
    (h : Prog.Runs (execStep ext K) (runJob ext taskInfo) s result s') :
    ∃ tr, Prog.Performed (execStep ext K) tr s s' ∧
      ((∃ gate err, tr = ⟨.run (.newRunningInstance taskInfo true), ()⟩ :: gate ∧
          (beforeRun taskInfo).Ends gate (.error err)) ∨
        ∃ calls ri ri', ScheduledRun ext taskInfo tr calls ri ri') := by
  obtain ⟨tr, hends, hperformed⟩ := Prog.runs_iff.mp h
  refine ⟨tr, hperformed, ?_⟩
  obtain hfails | ⟨ri, ri', hrun⟩ := runJob_ends hends
  · exact .inl hfails
  · obtain ⟨calls, hcalls⟩ := jobRun_iff.mp hrun
    exact .inr ⟨calls, ri, ri', hcalls⟩

theorem JobRun.taskRun (h : JobRun ext taskInfo tr ri ri') :
    ∃ calls, TaskRun ext taskInfo tr calls ri' := by
  obtain ⟨calls, hrun⟩ := jobRun_iff.mp h
  exact ⟨calls, .scheduled hrun⟩

/-- Every run for a request fails to find its task, fails at the gate, or is such a run. -/
theorem startOnceTask_ends {taskId : Int} {result : OnceResult}
    (h : (startOnceTask ext taskId).Ends tr result) :
    (∃ err, tr = [⟨.db (.findTask taskId), .error err⟩]) ∨
    (∃ task gate err, tr = ⟨.db (.findTask taskId), .ok task⟩ ::
        ⟨.run (.newRunningInstance task false), ()⟩ :: gate ∧
      (beforeRun task).Ends gate (.error err)) ∨
    ∃ task calls ri', TaskRun ext task tr calls ri' := by
  obtain ⟨found, rest₁, rfl, h₁⟩ := Prog.Ends.of_call_bind h
  cases found with
  | error err =>
    obtain ⟨rfl, rfl⟩ := Prog.Ends.of_pure h₁
    exact .inl ⟨err, rfl⟩
  | ok task =>
    obtain ⟨⟨⟩, rest₂, rfl, h₂⟩ := Prog.Ends.of_call_bind h₁
    obtain ⟨passed, gate, rest₃, rfl, hgate, h₃⟩ := h₂.bind
    cases passed with
    | error err =>
      obtain ⟨rfl, rfl⟩ := Prog.Ends.of_pure h₃
      rw [List.append_nil]
      exact .inr (.inl ⟨task, gate, err, rfl, hgate⟩)
    | ok ri =>
      obtain ⟨⟨ri', err⟩, answers, rest₄, rfl, hrun, h₄⟩ := Prog.Ends.bind h₃
      obtain ⟨completed, rest, rest₅, rfl, hafter, h₅⟩ := h₄.bind
      obtain ⟨a, hpossible, rfl, -⟩ := run_ends_iff.mp hrun
      rw [(instance_of_beforeRun hgate).1] at hpossible
      have hend : rest₅ = [] := by
        cases completed with
        | error panic => exact (Prog.Ends.of_pure h₅).1
        | ok _ => exact (Prog.Ends.of_pure h₅).1
      rw [hend, List.append_nil]
      exact .inr (.inr ⟨task, _, ri', .once hgate hpossible hrun hafter⟩)

end TaskRun

end Gonitor.Task
