import Gonitor.Server.Operations

/-!
# The Runs of a Task

A run (`taskRunning.go`, `handler.go`): its gate, its attempts, its completion.  There are
two run paths: `ExecJobWrapper.Run`, which the cron scheduler calls and which retries, and
`Manager.StartOnceTask`, which runs once for a request.

The log row of the run is written to the database; the execution log file is left out, and
with it the name of that file (`createTaskOutputFile`).
-/

namespace Gonitor.Task

open Gonitor.Model Gonitor.Server AtomicProgram

/-! ## The command of a task -/

/-- `path.Ext`, on the characters of the path from the last to the first. -/
def extOfReversed (suffix : List Char) : List Char → List Char
  | [] => []
  | '/' :: _ => []
  | '.' :: _ => '.' :: suffix
  | ch :: rest => extOfReversed (ch :: suffix) rest

/-- `path.Ext` -/
def pathExt (path : String) : List Char := extOfReversed [] path.toList.reverse

/-- `path.IsAbs` -/
def pathIsAbs (path : String) : Bool := path.toList.head? == some '/'

/-- `parseFileTask` -/
def parseFileTask (ext : Externals) (fileName : String) : String × List String :=
  let fileSuffix := pathExt fileName
  let fileName := if pathIsAbs fileName then fileName else ext.scriptFolder ++ "/" ++ fileName
  if fileSuffix = ['.', 'j', 's'] then ("node", [fileName])
  else if fileSuffix = ['.', 'p', 'y'] then ("python", [fileName])
  else if fileSuffix = ['.', 'p', 'h', 'p'] then ("php", [fileName])
  else ("echo", ["'不支持的文件类型'"])

/-- `parseTask` -/
def parseTask (ext : Externals) (command taskType : String) : String × List String :=
  if taskType = "cmd" then
    if ext.windows then ("cmd", ["/C", command]) else ("bash", ["-c", command])
  else if taskType = "http" then ("curl", ["-L", command])
  else if taskType = "file" then parseFileTask ext command
  else ("cmd", ["/C", "echo", "不支持的任务类型"])

/-! ## One attempt -/

/-- `taskExecStat` -/
structure TaskExecStat where
  command : String := ""
  commandStartStatus : Bool := false
  commandStartError : Option String := none
  commandExecStatus : Bool := false
  commandExecError : Option String := none
  commandOutputContent : String := ""
  commandErrorContent : String := ""
  assertResult : Bool := false
  taskResult : Bool := false
  deriving DecidableEq

/-- `RunningInstance`, once its log row exists (its process handle is in
    `Processes.handles`). -/
structure RunningInstance where
  taskInfo : Task
  taskLogInfo : TaskLog
  execResultList : List TaskExecStat
  deriving DecidableEq

/-- The instance after one more attempt. -/
def RunningInstance.attempted (ri : RunningInstance) (execStat : TaskExecStat) :
    RunningInstance :=
  { ri with execResultList := ri.execResultList ++ [execStat] }

/-- The log row in memory once the command has been started. -/
def RunningInstance.launched (ri : RunningInstance) (pid : Nat) : RunningInstance :=
  { ri with taskLogInfo := { ri.taskLogInfo with status := true, processId := pid } }

/-- The end of `RunningInstance.run`, after a successful `cmd.Wait`: the assertion. -/
def checkAssert (ri : RunningInstance) (execStat : TaskExecStat) :
    Program (RunningInstance × Option String) :=
  let passed := (ri.attempted { execStat with assertResult := true, taskResult := true }, none)
  if ri.taskInfo.assert.utf8ByteSize > 0 then do
    if ← taskAssertResult execStat.commandOutputContent ri.taskInfo.assert then pure passed
    -- the command has succeeded, and the attempt counts as failed
    else pure (ri.attempted execStat, some "断言认为返回结果失败")
  else pure passed

/-- The text of a timed-out attempt. -/
def timeoutText (timeout : Int64) : String :=
  "任务执行超时（超时限制: " ++ toString timeout.toInt ++ "秒）"

/-- `RunningInstance.run`: one attempt.  The second component is the error it returns. -/
def RunningInstance.run (ext : Externals) (ri : RunningInstance) :
    Program (RunningInstance × Option String) := do
  let (command, args) := parseTask ext ri.taskInfo.command ri.taskInfo.execType
  let execStat : TaskExecStat :=
    { command := ext.cmdString command args, commandStartStatus := true }
  match ← startProcess ri.taskInfo ri.taskLogInfo.id command args with
  | .error err => pure (ri.attempted { execStat with commandStartError := some err }, some err)
  | .ok pid => do
    -- the row in memory says "running" from here on; nothing is written to the database
    let ri := ri.launched pid
    setProcess ri.taskLogInfo.id pid
    addTaskRunningIns ri.taskInfo.id ri.taskLogInfo.id
    -- `cmd.Wait`: the process is gone before its result is looked at
    reap ri.taskLogInfo.id
    let execStat := { execStat with commandExecStatus := true }
    match ← waitReturn ri.taskLogInfo.id ri.taskInfo.timeout with
    | .timedOut =>
      let err := timeoutText ri.taskInfo.timeout
      pure (ri.attempted { execStat with commandErrorContent := err, commandExecError := some err },
        some err)
    | .failed err stderr =>
      pure (ri.attempted
        { execStat with commandErrorContent := stderr, commandExecError := some err }, some err)
    | .exited stdout => checkAssert ri { execStat with commandOutputContent := stdout }

/-! ## The gate -/

/-- `validateTaskDependency` -/
def validateTaskDependency (taskInfo : Task) : Program (Except String Unit) :=
  if taskInfo.dependsOnTaskID = 0 then pure (.ok ())
  else if taskInfo.dependsOnTaskID = taskInfo.id then pure (.error "任务依赖不能指向自身")
  else do
    match ← findTask taskInfo.dependsOnTaskID with
    | .error _ => pure (.error "依赖任务不存在")
    | .ok dependencyTask => do
      match ← findLastEndedLog dependencyTask.id with
      | .error .recordNotFound =>
        pure (.error ("依赖任务[" ++ dependencyTask.name ++ "]尚无成功记录"))
      | .error err => pure (.error err.text)
      -- only the last run that has ended counts, an earlier success does not
      | .ok lastTaskLog =>
        if lastTaskLog.execResult then pure (.ok ())
        else pure (.error ("依赖任务[" ++ dependencyTask.name ++ "]最近一次执行未成功"))

/-- The log row of a run of `taskInfo`, as it is inserted. -/
def newTaskLog (taskInfo : Task) (status : Bool) (execTime : Time) : TaskLog where
  toStamps := Base.zero
  taskId := taskInfo.id
  command := taskInfo.command
  status := status
  execType := taskInfo.execType
  execTime := execTime

/-- `RunningInstance.recordSkippedRun`: it always returns an error. -/
def recordSkippedRun (taskInfo : Task) (runErr : String) : Program String := do
  let execTime ← now
  match ← createTaskLog (newTaskLog taskInfo false execTime) with
  | .error err => pure err.text
  | .ok _ => pure runErr

/-- `RunningInstance.beforeRun` -/
def beforeRun (taskInfo : Task) : Program (Except String RunningInstance) := do
  match ← validateTaskDependency taskInfo with
  | .error err => do
    -- a run that is skipped leaves a row too, one that has ended without success
    let err ← recordSkippedRun taskInfo err
    pure (.error err)
  | .ok _ => do
    let execTime ← now
    match ← createTaskLog (newTaskLog taskInfo true execTime) with
    | .error err => pure (.error err.text)
    | .ok taskLogModel => pure (.ok ⟨taskInfo, taskLogModel, []⟩)

/-! ## The completion -/

/-- `t.Unix()`, up to a constant. -/
def unixSeconds (t : Time) : Int := t / 1000000000

/-- The log row that `afterRun` saves: the last attempt decides the result. -/
def finalLog (ri : RunningInstance) (now : Time) : TaskLog :=
  let log := { ri.taskLogInfo with
    status := false
    runningTime := unixSeconds now - unixSeconds ri.taskLogInfo.execTime }
  match ri.execResultList.getLast? with
  | none => log
  | some lastResult =>
    { log with
      execResult := lastResult.taskResult
      retryTimes := Int8.ofInt (ri.execResultList.length - 1) }

/-- How the goroutine of a run can panic: in the result handler's script, or by the read of
    a task that is no longer in `TaskList`. -/
inductive Panic
  | resultHandler
  | missingTask
  deriving DecidableEq, Repr

/-- `RunningInstance.afterRun`; a failing save is only logged. -/
def afterRun (ri : RunningInstance) : Program (Except Panic Unit) := do
  let time ← now
  let _ ← saveTaskLog (finalLog ri time)
  if ri.taskInfo.resultHandler.utf8ByteSize > 0 then do
    if ← resultHandler ri.taskInfo.resultHandler then pure (.ok ())
    else pure (.error .resultHandler)
  else pure (.ok ())

/-- The end of the deferred function of `ExecJobWrapper.Run`: the two reads of `TaskList`. -/
def removeRunning (ri : RunningInstance) : Program (Except Panic Unit) := do
  match ← isRegistered ri.taskInfo.id ri.taskLogInfo.id with
  | none => pure (.error .missingTask)
  | some false => pure (.ok ())
  | some true => do
    if ← unregister ri.taskInfo.id ri.taskLogInfo.id then pure (.ok ())
    else pure (.error .missingTask)

/-! ## The two run paths -/

/-- `execTimes`, in 8-bit arithmetic. -/
def execTimes (taskInfo : Task) : Int8 :=
  if taskInfo.retryTimes > 0 then 1 + taskInfo.retryTimes else 1

/-- The pause after the `i`-th failed attempt, in nanoseconds (64-bit arithmetic). -/
def retryPause (taskInfo : Task) (i : Int8) : Int64 :=
  if taskInfo.retryInterval > 0 then taskInfo.retryInterval * 1000000000
  else i.toInt64 * 60000000000

/-- The loop of `ExecJobWrapper.Run`, from the `i`-th attempt on.  The first argument bounds
    the number of rounds; `retryLoop_fuel` shows that it does not matter once it is large
    enough. -/
def retryLoop (ext : Externals) (taskInfo : Task) :
    Nat → RunningInstance → Int8 → Program RunningInstance
  | 0, ri, _ => pure ri
  | fuel + 1, ri, i =>
    if i < execTimes taskInfo then do
      let (ri, err) ← ri.run ext
      match err with
      | none => pure ri
      | some _ => do
        -- the source counts up first, and pauses after the last attempt too
        sleep (retryPause taskInfo (i + 1))
        retryLoop ext taskInfo fuel ri (i + 1)
    else pure ri

/-- More rounds than an 8-bit counter can make. -/
def maxRounds : Nat := 128

/-- `ExecJobWrapper.Run` -/
def runJob (ext : Externals) (taskInfo : Task) : Program (Except Panic Unit) := do
  newRunningInstance taskInfo true
  match ← beforeRun taskInfo with
  | .error _ => pure (.ok ())
  | .ok ri => do
    let ri ← retryLoop ext taskInfo maxRounds ri 0
    match ← afterRun ri with
    | .error panic => pure (.error panic)
    | .ok _ => removeRunning ri

/-- A run that panics where no `Recover` is installed ends the server. -/
def releaseOrCrash (e : EntryID) : Except Panic Unit → Program Unit
  | .ok _ => release e
  | .error _ => crash

/-- The wrapped job of entry `e`: what the wrappers of robfig/cron do around
    `ExecJobWrapper.Run`. -/
def runWrapped (ext : Externals) (e : EntryID) (job : WrappedJob) : Program Unit :=
  match job.chain with
  | .recover => do
    -- `Recover` takes the panic
    let _ ← runJob ext job.taskInfo
    pure ()
  | .skipIfStillRunning => do
    if ← tryAcquire e then do
      let result ← runJob ext job.taskInfo
      releaseOrCrash e result
    else pure ()
  | .delayIfStillRunning => do
    acquire e
    let result ← runJob ext job.taskInfo
    releaseOrCrash e result

/-- `getLastExecOutput` -/
def getLastExecOutput (ri : RunningInstance) : String :=
  match ri.execResultList.getLast? with
  | none => ""
  | some lastResult => lastResult.commandOutputContent

/-- What `Manager.StartOnceTask` comes to: its output and its error, or a panic of the
    deferred `afterRun`. -/
inductive OnceResult
  | returned (output : String) (err : Option String)
  | panicked

/-- `Manager.StartOnceTask` -/
def startOnceTask (ext : Externals) (taskId : Int) : Program OnceResult := do
  match ← findTask taskId with
  | .error err => pure (.returned "" (some err.text))
  | .ok task => do
    newRunningInstance task false
    match ← beforeRun task with
    | .error err => pure (.returned "" (some err))
    | .ok ri => do
      let (ri, err) ← ri.run ext
      match ← afterRun ri with
      | .error _ => pure .panicked
      | .ok _ => pure (.returned (getLastExecOutput ri) err)

/-! ## The loop ends -/

/-- Below a bound, an 8-bit counter counts. -/
theorem toInt_succ_of_lt {i n : Int8} (h : i < n) : (i + 1).toInt = i.toInt + 1 := by
  have hlt : i.toInt < n.toInt := Int8.lt_iff_toInt_lt.mp h
  have hmin := Int8.le_toInt i
  have hmax := Int8.toInt_lt n
  rw [Int8.toInt_add]
  have hone : (1 : Int8).toInt = 1 := by decide
  rw [hone]
  apply Int.bmod_eq_of_le <;> omega

/-- Once the rounds left cover the attempts left, more rounds change nothing. -/
theorem retryLoop_fuel (ext : Externals) (taskInfo : Task) {fuel : Nat} {i : Int8}
    (h : (execTimes taskInfo).toInt ≤ i.toInt + fuel) (ri : RunningInstance) :
    retryLoop ext taskInfo (fuel + 1) ri i = retryLoop ext taskInfo fuel ri i := by
  induction fuel generalizing i ri with
  | zero =>
    have hge : ¬ i < execTimes taskInfo := by
      rw [Int8.lt_iff_toInt_lt]
      omega
    simp only [retryLoop, hge, if_false]
  | succ fuel ih =>
    rw [retryLoop, retryLoop]
    split
    · rename_i hlt
      have hstep := toInt_succ_of_lt hlt
      congr 1
      funext result
      obtain ⟨ri', err⟩ := result
      cases err with
      | none => rfl
      | some err =>
        -- one attempt less is left, and one round less
        have hleft : (execTimes taskInfo).toInt ≤ (i + 1).toInt + fuel := by
          push_cast at h
          omega
        simp only [ih hleft]
    · rfl

/-- From the first attempt on, `maxRounds` rounds are enough. -/
theorem retryLoop_maxRounds (ext : Externals) (taskInfo : Task) (ri : RunningInstance) (n : Nat) :
    retryLoop ext taskInfo (maxRounds + n) ri 0 = retryLoop ext taskInfo maxRounds ri 0 := by
  induction n with
  | zero => rfl
  | succ n ih =>
    rw [← ih]
    apply retryLoop_fuel
    have hmax := Int8.toInt_lt (execTimes taskInfo)
    have hzero : (0 : Int8).toInt = 0 := by decide
    show (execTimes taskInfo).toInt ≤ (0 : Int8).toInt + ((128 + n : Nat) : Int)
    omega

end Gonitor.Task
