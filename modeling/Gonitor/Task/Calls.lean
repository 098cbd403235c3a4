import Gonitor.Framework.ProgramTrace
import Gonitor.Task.Running

/-!
# The Calls of `run`

How a call of `run` can go, by what the system answers: the command is not started, it does not
come back in time, it fails, or it ends well and the assertion has the last word.  Each of the
seven exits of `run` is one of these five ways.

## Main Results

- `run_ends_iff`: the traces of `run`, with the record that each leaves and the error it returns.
- `retryLoop_ends_iff`: the traces of the retry loop, cut into its calls of `run` and its pauses.
-/

namespace Gonitor.Task

open Gonitor.Model Gonitor.Server AtomicProgram

/-! ## One call -/

/-- How a call of `run` goes. -/
inductive Attempt
  | notStarted (err : String)
  | timedOut (pid : Nat)
  | failed (pid : Nat) (err stderr : String)
  | rejected (pid : Nat) (stdout : String)
  | passed (pid : Nat) (stdout : String)
  deriving DecidableEq

namespace Attempt

variable (ext : Externals) (taskInfo : Task) (ri : RunningInstance)

/-- The operations from the start of the command to the return of `cmd.Wait`. -/
def waited (pid : Nat) (result : WaitResult) : Trace Op Op.Res :=
  [⟨.run (.startProcess ri.taskInfo ri.taskLogInfo.id
      (parseTask ext ri.taskInfo.command ri.taskInfo.execType).1
      (parseTask ext ri.taskInfo.command ri.taskInfo.execType).2), .ok pid⟩,
    ⟨.run (.setProcess ri.taskLogInfo.id pid), ()⟩,
    ⟨.run (.addTaskRunningIns ri.taskInfo.id ri.taskLogInfo.id), ()⟩,
    ⟨.run (.reap ri.taskLogInfo.id), ()⟩,
    ⟨.run (.waitReturn ri.taskLogInfo.id ri.taskInfo.timeout), result⟩]

/-- The operation of the assertion, where the task has one. -/
def asserted (stdout : String) (holds : Bool) : Trace Op Op.Res :=
  if 0 < ri.taskInfo.assert.utf8ByteSize then
    [⟨.run (.taskAssertResult stdout ri.taskInfo.assert), holds⟩]
  else []

/-- The operations of the call, with their answers. -/
def answers : Attempt → Trace Op Op.Res
  | .notStarted err =>
    [⟨.run (.startProcess ri.taskInfo ri.taskLogInfo.id
        (parseTask ext ri.taskInfo.command ri.taskInfo.execType).1
        (parseTask ext ri.taskInfo.command ri.taskInfo.execType).2), .error err⟩]
  | .timedOut pid => waited ext ri pid .timedOut
  | .failed pid err stderr => waited ext ri pid (.failed err stderr)
  | .rejected pid stdout => waited ext ri pid (.exited stdout) ++ asserted ri stdout false
  | .passed pid stdout => waited ext ri pid (.exited stdout) ++ asserted ri stdout true

/-- Only an assertion can reject an output. -/
def Possible : Attempt → Prop
  | .rejected _ _ => 0 < taskInfo.assert.utf8ByteSize
  | _ => True

/-- The record once `cmd.Start` has returned nil. -/
def startedStat : TaskExecStat where
  command := ext.cmdString (parseTask ext taskInfo.command taskInfo.execType).1
    (parseTask ext taskInfo.command taskInfo.execType).2
  commandStartStatus := true

/-- The record once `cmd.Wait` has returned nil. -/
def exitedStat (stdout : String) : TaskExecStat :=
  { startedStat ext taskInfo with commandExecStatus := true, commandOutputContent := stdout }

/-- The record that the call leaves. -/
def stat : Attempt → TaskExecStat
  | .notStarted err => { startedStat ext taskInfo with commandStartError := some err }
  | .timedOut _ =>
    let err := timeoutText taskInfo.timeout
    { startedStat ext taskInfo with
      commandExecStatus := true, commandErrorContent := err, commandExecError := some err }
  | .failed _ err stderr =>
    { startedStat ext taskInfo with
      commandExecStatus := true, commandErrorContent := stderr, commandExecError := some err }
  | .rejected _ stdout => exitedStat ext taskInfo stdout
  | .passed _ stdout => { exitedStat ext taskInfo stdout with assertResult := true, taskResult := true }

/-- The error that the call returns. -/
def error : Attempt → Option String
  | .notStarted err => some err
  | .timedOut _ => some (timeoutText taskInfo.timeout)
  | .failed _ err _ => some err
  | .rejected _ _ => some "断言认为返回结果失败"
  | .passed _ _ => none

/-- The instance after the call. -/
def after (a : Attempt) : RunningInstance :=
  match a with
  | .notStarted _ => ri.attempted (a.stat ext ri.taskInfo)
  | .timedOut pid | .failed pid _ _ | .rejected pid _ | .passed pid _ =>
    (ri.launched pid).attempted (a.stat ext ri.taskInfo)

variable {ext taskInfo ri}

@[simp] theorem execResultList_after (a : Attempt) :
    (a.after ext ri).execResultList = ri.execResultList ++ [a.stat ext ri.taskInfo] := by
  cases a <;> rfl

/-- The record says whether the call returns nil. -/
theorem taskResult_stat (a : Attempt) :
    (a.stat ext taskInfo).taskResult = (a.error taskInfo).isNone := by
  cases a <;> rfl

end Attempt

section Run

variable {ext : Externals} {ri ri' : RunningInstance} {tr : Trace Op Op.Res}

theorem checkAssert_ends_iff {execStat : TaskExecStat} {r : RunningInstance × Option String} :
    (checkAssert ri execStat).Ends tr r ↔
      (0 < ri.taskInfo.assert.utf8ByteSize ∧
        tr = Attempt.asserted ri execStat.commandOutputContent false ∧
        r = (ri.attempted execStat, some "断言认为返回结果失败")) ∨
      (tr = Attempt.asserted ri execStat.commandOutputContent true ∧
        r = (ri.attempted { execStat with assertResult := true, taskResult := true }, none)) := by
  unfold checkAssert Attempt.asserted
  by_cases hassert : 0 < ri.taskInfo.assert.utf8ByteSize
  · simp only [gt_iff_lt, hassert, if_true, true_and]
    constructor
    · intro h
      obtain ⟨holds, rest, rfl, hrest⟩ := h.of_call_bind
      cases holds with
      | true =>
        obtain ⟨rfl, rfl⟩ := Prog.Ends.of_pure hrest
        exact .inr ⟨rfl, rfl⟩
      | false =>
        obtain ⟨rfl, rfl⟩ := Prog.Ends.of_pure hrest
        exact .inl ⟨rfl, rfl⟩
    · rintro (⟨rfl, rfl⟩ | ⟨rfl, rfl⟩)
      · exact .op (.pure _)
      · exact .op (.pure _)
  · -- without an assertion the output is as good as accepted
    simp only [gt_iff_lt, hassert, if_false, false_and, false_or]
    constructor
    · intro h
      exact h.of_pure
    · rintro ⟨rfl, rfl⟩
      exact .pure _

/-- **One call of `run`**: the operations it performs decide the record it leaves and what it
    returns. -/
theorem run_ends_iff {r : RunningInstance × Option String} :
    (ri.run ext).Ends tr r ↔
      ∃ a : Attempt, a.Possible ri.taskInfo ∧ tr = a.answers ext ri ∧
        r = (a.after ext ri, a.error ri.taskInfo) := by
  unfold RunningInstance.run
  constructor
  · intro h
    obtain ⟨started, rest₁, rfl, h₁⟩ := Prog.Ends.of_call_bind h
    cases started with
    | error err =>
      obtain ⟨rfl, rfl⟩ := Prog.Ends.of_pure h₁
      exact ⟨.notStarted err, trivial, rfl, rfl⟩
    | ok pid =>
      obtain ⟨_, rest₂, rfl, h₂⟩ := Prog.Ends.of_call_bind h₁
      obtain ⟨_, rest₃, rfl, h₃⟩ := h₂.of_call_bind
      obtain ⟨_, rest₄, rfl, h₄⟩ := h₃.of_call_bind
      obtain ⟨result, rest₅, rfl, h₅⟩ := h₄.of_call_bind
      cases result with
      | timedOut =>
        obtain ⟨rfl, rfl⟩ := Prog.Ends.of_pure h₅
        exact ⟨.timedOut pid, trivial, rfl, rfl⟩
      | failed err stderr =>
        obtain ⟨rfl, rfl⟩ := Prog.Ends.of_pure h₅
        exact ⟨.failed pid err stderr, trivial, rfl, rfl⟩
      | exited stdout =>
        -- the command has succeeded: the assertion decides
        obtain ⟨hassert, rfl, rfl⟩ | ⟨rfl, rfl⟩ := checkAssert_ends_iff.mp h₅
        · exact ⟨.rejected pid stdout, hassert, rfl, rfl⟩
        · exact ⟨.passed pid stdout, trivial, rfl, rfl⟩
  · rintro ⟨a, hpossible, rfl, rfl⟩
    cases a with
    | notStarted err => exact .op (.pure _)
    | timedOut pid => exact .op (.op (.op (.op (.op (.pure _)))))
    | failed pid err stderr => exact .op (.op (.op (.op (.op (.pure _)))))
    | rejected pid stdout =>
      have hend : (checkAssert (ri.launched pid)
          (Attempt.exitedStat ext ri.taskInfo stdout)).Ends _ _ :=
        checkAssert_ends_iff.mpr (.inl ⟨hpossible, rfl, rfl⟩)
      exact .op (.op (.op (.op (.op hend))))
    | passed pid stdout =>
      have hend : (checkAssert (ri.launched pid)
          (Attempt.exitedStat ext ri.taskInfo stdout)).Ends _ _ :=
        checkAssert_ends_iff.mpr (.inr ⟨rfl, rfl⟩)
      exact .op (.op (.op (.op (.op hend))))

end Run

/-! ## Several calls -/

/-- A call of `run`: how it went, and what it returned. -/
structure Call where
  attempt : Attempt
  returned : Option String

/-- The calls of `run` on one instance, one after the other. -/
inductive Calls (ext : Externals) : RunningInstance → List Call → RunningInstance → Prop
  | nil (ri : RunningInstance) : Calls ext ri [] ri
  | cons {ri ri₁ ri' : RunningInstance} {a : Attempt} {err : Option String} {calls : List Call} :
      a.Possible ri.taskInfo → (ri.run ext).Ends (a.answers ext ri) (ri₁, err) →
      Calls ext ri₁ calls ri' → Calls ext ri (⟨a, err⟩ :: calls) ri'

section Calls

variable {ext : Externals} {ri ri₁ ri' : RunningInstance} {calls : List Call}

theorem Attempt.ends {a : Attempt} (hpossible : a.Possible ri.taskInfo) :
    (ri.run ext).Ends (a.answers ext ri) (a.after ext ri, a.error ri.taskInfo) :=
  run_ends_iff.mpr ⟨a, hpossible, rfl, rfl⟩

/-- What the operations of a call make of the instance. -/
theorem run_answers {a : Attempt} {err : Option String} (hpossible : a.Possible ri.taskInfo)
    (h : (ri.run ext).Ends (a.answers ext ri) (ri₁, err)) :
    ri₁ = a.after ext ri ∧ err = a.error ri.taskInfo :=
  Prod.mk.injEq .. ▸ h.unique (Attempt.ends hpossible)

/-- What the calls leave of an instance: the task, and the id and the start of the log row. -/
structure SameRun (ri ri' : RunningInstance) : Prop where
  taskInfo : ri'.taskInfo = ri.taskInfo
  logId : ri'.taskLogInfo.id = ri.taskLogInfo.id
  execTime : ri'.taskLogInfo.execTime = ri.taskLogInfo.execTime

theorem SameRun.refl (ri : RunningInstance) : SameRun ri ri := ⟨rfl, rfl, rfl⟩

theorem SameRun.trans (h : SameRun ri ri₁) (h' : SameRun ri₁ ri') : SameRun ri ri' where
  taskInfo := h'.taskInfo.trans h.taskInfo
  logId := h'.logId.trans h.logId
  execTime := h'.execTime.trans h.execTime

theorem Attempt.sameRun (a : Attempt) : SameRun ri (a.after ext ri) := by
  cases a <;> exact ⟨rfl, rfl, rfl⟩

theorem Calls.sameRun (h : Calls ext ri calls ri') : SameRun ri ri' := by
  induction h with
  | nil ri => exact .refl ri
  | cons hpossible hrun _ ih =>
    obtain ⟨rfl, -⟩ := run_answers hpossible hrun
    exact (Attempt.sameRun _).trans ih

/-- The records are those of the calls, in their order. -/
theorem Calls.records (h : Calls ext ri calls ri') :
    ri'.execResultList =
      ri.execResultList ++ calls.map fun c => c.attempt.stat ext ri.taskInfo := by
  induction h with
  | nil ri => simp
  | cons hpossible hrun _ ih =>
    obtain ⟨rfl, -⟩ := run_answers hpossible hrun
    simp [ih, (Attempt.sameRun _).taskInfo]

/-- How a call went decides what it returns. -/
theorem Calls.returned (h : Calls ext ri calls ri') :
    ∀ c ∈ calls, c.attempt.Possible ri.taskInfo ∧ c.returned = c.attempt.error ri.taskInfo := by
  induction h with
  | nil ri => simp
  | cons hpossible hrun _ ih =>
    obtain ⟨rfl, herr⟩ := run_answers hpossible hrun
    rw [(Attempt.sameRun _).taskInfo] at ih
    exact List.forall_mem_cons.mpr ⟨⟨hpossible, herr⟩, ih⟩

end Calls

/-! ## The retry loop -/

/-- A run of the loop of `ExecJobWrapper.Run` from the attempt numbered `i` on: its calls of `run`,
    and its trace, which has a pause after each call that returns an error. -/
inductive Loop (ext : Externals) (taskInfo : Task) :
    Int8 → RunningInstance → List Call → Trace Op Op.Res → RunningInstance → Prop
  | spent {i : Int8} (ri : RunningInstance) :
      ¬ i < execTimes taskInfo → Loop ext taskInfo i ri [] [] ri
  | success {i : Int8} {ri ri' : RunningInstance} {a : Attempt} :
      i < execTimes taskInfo → a.Possible ri.taskInfo →
      (ri.run ext).Ends (a.answers ext ri) (ri', none) →
      Loop ext taskInfo i ri [⟨a, none⟩] (a.answers ext ri) ri'
  | failure {i : Int8} {ri ri₁ ri' : RunningInstance} {a : Attempt} {err : String}
      {calls : List Call} {rest : Trace Op Op.Res} :
      i < execTimes taskInfo → a.Possible ri.taskInfo →
      (ri.run ext).Ends (a.answers ext ri) (ri₁, some err) →
      Loop ext taskInfo (i + 1) ri₁ calls rest ri' →
      Loop ext taskInfo i ri (⟨a, some err⟩ :: calls)
        (a.answers ext ri ++ ⟨.run (.sleep (retryPause taskInfo (i + 1))), ()⟩ :: rest) ri'

section Loop

variable {ext : Externals} {taskInfo : Task} {ri ri' : RunningInstance} {tr : Trace Op Op.Res}

theorem fuel_succ {fuel : Nat} {i : Int8} (hfuel : (execTimes taskInfo).toInt ≤ i.toInt + fuel)
    (hlt : i < execTimes taskInfo) : ∃ n, fuel = n + 1 := by
  rw [Int8.lt_iff_toInt_lt] at hlt
  cases fuel with
  | zero => omega
  | succ n => exact ⟨n, rfl⟩

/-- **The retry loop**, with rounds enough, makes exactly these runs. -/
theorem retryLoop_ends_iff {fuel : Nat} {i : Int8}
    (hfuel : (execTimes taskInfo).toInt ≤ i.toInt + fuel) :
    (retryLoop ext taskInfo fuel ri i).Ends tr ri' ↔
      ∃ calls, Loop ext taskInfo i ri calls tr ri' := by
  constructor
  · intro h
    induction fuel generalizing ri i tr with
    | zero =>
      have hover : ¬ i < execTimes taskInfo := by
        rw [Int8.lt_iff_toInt_lt]
        omega
      obtain ⟨rfl, rfl⟩ := Prog.Ends.of_pure h
      exact ⟨[], .spent _ hover⟩
    | succ fuel ih =>
      rw [retryLoop] at h
      split at h
      · rename_i hlt
        have hstep := toInt_succ_of_lt hlt
        obtain ⟨⟨ri₁, err⟩, answers, rest, rfl, hrun, hrest⟩ := h.bind
        obtain ⟨a, hpossible, rfl, -⟩ := run_ends_iff.mp hrun
        cases err with
        | none =>
          obtain ⟨rfl, rfl⟩ := Prog.Ends.of_pure hrest
          rw [List.append_nil]
          exact ⟨_, .success hlt hpossible hrun⟩
        | some err =>
          -- the pause, and the attempts that are left
          obtain ⟨_, rest, rfl, hloop⟩ := Prog.Ends.of_call_bind hrest
          obtain ⟨calls, hcalls⟩ := ih (by push_cast at hfuel; omega) hloop
          exact ⟨_, .failure hlt hpossible hrun hcalls⟩
      · rename_i hover
        obtain ⟨rfl, rfl⟩ := h.of_pure
        exact ⟨[], .spent _ hover⟩
  · rintro ⟨calls, h⟩
    induction h generalizing fuel with
    | spent ri hover =>
      cases fuel with
      | zero => exact .pure ri
      | succ fuel =>
        rw [retryLoop, if_neg hover]
        exact .pure ri
    | success hlt hpossible hrun =>
      obtain ⟨fuel, rfl⟩ := fuel_succ hfuel hlt
      rw [retryLoop, if_pos hlt]
      rw [← List.append_nil (Attempt.answers _ _ _)]
      exact hrun.append (.pure _)
    | failure hlt hpossible hrun _ ih =>
      have hstep := toInt_succ_of_lt hlt
      obtain ⟨fuel, rfl⟩ := fuel_succ hfuel hlt
      rw [retryLoop, if_pos hlt]
      exact hrun.append (.op (ih (by push_cast at hfuel; omega)))

theorem Loop.calls {i : Int8} {calls : List Call} (h : Loop ext taskInfo i ri calls tr ri') :
    Calls ext ri calls ri' := by
  induction h with
  | spent ri _ => exact .nil ri
  | success _ hpossible hrun => exact .cons hpossible hrun (.nil _)
  | failure _ hpossible hrun _ ih => exact .cons hpossible hrun ih

end Loop

end Gonitor.Task
