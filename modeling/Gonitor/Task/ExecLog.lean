import Gonitor.Task.RunRecord

/-!
# The Execution Log

The text that tells a user how the attempts of a run have gone (`GenerateExecLog`).  It is folded
from the records of the attempts, of which `run` fills in more the further an attempt gets; while a
command runs, its record is the last one.

## Main Results

- `execLog_explains_iff`: the log explains every attempt unless one ends with an error of
  `cmd.Wait`.
-/

namespace Gonitor.Task

open Gonitor.Model Gonitor.Server Gonitor.Requests AtomicProgram

/-! ## The text -/

/-- What `%s` makes of an error. -/
def errorText : Option String → String
  | some err => err
  | none => "%!s(<nil>)"

/-- One pass of the loop of `GenerateExecLog`: what it appends for the record at index `i`. -/
def execLogBlock (i : Nat) (resultItem : TaskExecStat) : String :=
  let execLog := "第" ++ toString (i + 1) ++ "次执行\n" ++
    ("准备执行\n命令:\n" ++ resultItem.command ++ "\n")
  if resultItem.commandStartStatus = false then execLog
  else if resultItem.commandStartError.isSome then
    execLog ++ ("启动失败\n错误:\n" ++ errorText resultItem.commandStartError ++ "\n")
  else
    let execLog := execLog ++ "启动成功, 等待任务执行完毕\n"
    if resultItem.commandExecStatus = false then execLog
    else if resultItem.commandExecError.isSome then
      -- the source prints the error of the start here
      execLog ++ ("任务执行失败, 错误:\n" ++ errorText resultItem.commandStartError ++ "\n")
    else
      let execLog := execLog ++ "任务执行成功\n" ++
        ("输出为:\n" ++ resultItem.commandOutputContent ++ "\n") ++ "开始断言\n"
      if resultItem.assertResult = false then execLog ++ "断言未通过\n"
      else execLog ++ "断言通过\n" ++ "任务成功结束\n" ++ "\n\n\n"

/-- The loop of `GenerateExecLog`, from the record at index `i` on. -/
def execLogLoop : Nat → List TaskExecStat → String → String
  | _, [], execLog => execLog
  | i, resultItem :: rest, execLog =>
    execLogLoop (i + 1) rest (execLog ++ execLogBlock i resultItem)

/-- The first line of the log. -/
def execLogHead (taskInfo : Task) : String :=
  "******************目标任务: " ++ taskInfo.name ++ "******************\n"

/-- `RunningInstance.GenerateExecLog` -/
def generateExecLog (ri : RunningInstance) : String :=
  execLogLoop 0 ri.execResultList (execLogHead ri.taskInfo)

/-- The blocks of the log. -/
def execLogBlocks (ri : RunningInstance) : List String := ri.execResultList.mapIdx execLogBlock

theorem execLogLoop_eq (i : Nat) (stats : List TaskExecStat) (execLog : String) :
    execLogLoop i stats execLog =
      execLog ++ String.join (stats.mapIdx fun j => execLogBlock (i + j)) := by
  -- the text that is there already only ever stands before the rest
  induction stats generalizing i execLog with
  | nil => simp [execLogLoop]
  | cons stat stats ih =>
    have hshift : (fun j => execLogBlock (i + 1 + j)) = fun j => execLogBlock (i + (j + 1)) := by
      funext j
      rw [Nat.add_assoc, Nat.add_comm 1 j]
    rw [execLogLoop, ih, hshift, List.mapIdx_cons, String.join_cons, String.append_assoc,
      Nat.add_zero]

/-- The log is its first line and its blocks, in the order of the records. -/
theorem generateExecLog_eq (ri : RunningInstance) :
    generateExecLog ri = execLogHead ri.taskInfo ++ String.join (execLogBlocks ri) := by
  rw [generateExecLog, execLogLoop_eq, execLogBlocks]
  simp

/-! ## What it is to tell -/

/-- What a record can stand for: an attempt that has ended, or the command that is running. -/
inductive Shown
  | ended (a : Attempt)
  | running

/-- Its record. -/
def Shown.stat (ext : Externals) (taskInfo : Task) : Shown → TaskExecStat
  | .ended a => a.stat ext taskInfo
  | .running => Attempt.startedStat ext taskInfo

/-- The records that `run` can produce, on an instance that had none. -/
inductive Shows (ext : Externals) : RunningInstance → List Shown → Prop
  | between {ri₀ ri : RunningInstance} {calls : List Call} :
      ri₀.execResultList = [] → Calls ext ri₀ calls ri →
      Shows ext ri (calls.map fun c => .ended c.attempt)
  | during {ri₀ ri : RunningInstance} {calls : List Call} (pid : Nat) :
      ri₀.execResultList = [] → Calls ext ri₀ calls ri →
      Shows ext ((ri.launched pid).attempted (Attempt.startedStat ext ri.taskInfo))
        (calls.map (fun c => .ended c.attempt) ++ [.running])

/-- The error with which `cmd.Wait` has ended, where it has: `CommandExecError`. -/
def Attempt.execError (taskInfo : Task) : Attempt → Option String
  | .timedOut _ => some (timeoutText taskInfo.timeout)
  | .failed _ err _ => some err
  | _ => none

/-- The head of a block: its number, and the command. -/
def blockHead (ext : Externals) (taskInfo : Task) (number : Nat) : String :=
  "第" ++ toString number ++ "次执行\n" ++
    ("准备执行\n命令:\n" ++ (Attempt.startedStat ext taskInfo).command ++ "\n")

/-- The report of an attempt: how far it has come, and with which error or output. -/
def Shown.report (taskInfo : Task) : Shown → String
  | .running => "启动成功, 等待任务执行完毕\n"
  | .ended (.notStarted err) => "启动失败\n错误:\n" ++ err ++ "\n"
  | .ended (.timedOut _) => "启动成功, 等待任务执行完毕\n" ++
      ("任务执行失败, 错误:\n" ++ timeoutText taskInfo.timeout ++ "\n")
  | .ended (.failed _ err _) => "启动成功, 等待任务执行完毕\n" ++
      ("任务执行失败, 错误:\n" ++ err ++ "\n")
  | .ended (.rejected _ stdout) => "启动成功, 等待任务执行完毕\n" ++
      ("任务执行成功\n" ++ ("输出为:\n" ++ stdout ++ "\n") ++ "开始断言\n" ++ "断言未通过\n")
  | .ended (.passed _ stdout) => "启动成功, 等待任务执行完毕\n" ++
      ("任务执行成功\n" ++ ("输出为:\n" ++ stdout ++ "\n") ++ "开始断言\n" ++
        ("断言通过\n" ++ "任务成功结束\n" ++ "\n\n\n"))

/-- The log explains every attempt: one block for each, in their order, numbered from 1. -/
structure Explains (ext : Externals) (ri : RunningInstance) (shown : List Shown) : Prop where
  text : generateExecLog ri = execLogHead ri.taskInfo ++ String.join (execLogBlocks ri)
  blocks : execLogBlocks ri =
    shown.mapIdx fun i s => blockHead ext ri.taskInfo (i + 1) ++ s.report ri.taskInfo

section Explains

variable {ext : Externals} {taskInfo : Task} {ri : RunningInstance} {shown : List Shown}

theorem Calls.records_of_new {ri₀ : RunningInstance} {calls : List Call}
    (h : Calls ext ri₀ calls ri) (hnone : ri₀.execResultList = []) :
    ri.execResultList = calls.map fun c => c.attempt.stat ext ri.taskInfo := by
  rw [h.records, hnone, h.sameRun.taskInfo, List.nil_append]

theorem Shows.records (h : Shows ext ri shown) :
    ri.execResultList = shown.map fun s => s.stat ext ri.taskInfo := by
  cases h with
  | between hnone hcalls =>
    simp [hcalls.records_of_new hnone, Function.comp_def, Shown.stat]
  | during pid hnone hcalls =>
    simp [RunningInstance.attempted, RunningInstance.launched, hcalls.records_of_new hnone,
      Function.comp_def, Shown.stat]

/-- What a block says after its head. -/
def blockRest (resultItem : TaskExecStat) : String :=
  if resultItem.commandStartStatus = false then ""
  else if resultItem.commandStartError.isSome then
    "启动失败\n错误:\n" ++ errorText resultItem.commandStartError ++ "\n"
  else if resultItem.commandExecStatus = false then "启动成功, 等待任务执行完毕\n"
  else "启动成功, 等待任务执行完毕\n" ++
    (if resultItem.commandExecError.isSome then
      "任务执行失败, 错误:\n" ++ errorText resultItem.commandStartError ++ "\n"
    else "任务执行成功\n" ++ ("输出为:\n" ++ resultItem.commandOutputContent ++ "\n") ++
      "开始断言\n" ++
      (if resultItem.assertResult = false then "断言未通过\n"
      else "断言通过\n" ++ "任务成功结束\n" ++ "\n\n\n"))

theorem execLogBlock_eq (i : Nat) (resultItem : TaskExecStat) :
    execLogBlock i resultItem = "第" ++ toString (i + 1) ++ "次执行\n" ++
      ("准备执行\n命令:\n" ++ resultItem.command ++ "\n") ++ blockRest resultItem := by
  unfold execLogBlock blockRest
  dsimp only
  -- one case for each place where the source goes on to the next record
  split
  · rw [String.append_empty]
  · split
    · rfl
    · split
      · rfl
      · split
        · simp only [String.append_assoc]
        · split
          · simp only [String.append_assoc]
          · simp only [String.append_assoc]

/-- After an error of `cmd.Wait` a block prints the error of the start, which is nil. -/
theorem failedBlock_eq_iff {err : String} :
    "启动成功, 等待任务执行完毕\n" ++ ("任务执行失败, 错误:\n" ++ errorText none ++ "\n") =
      "启动成功, 等待任务执行完毕\n" ++ ("任务执行失败, 错误:\n" ++ err ++ "\n") ↔
    ∀ err', some err = some err' → err' = errorText none := by
  rw [String.append_right_inj, String.append_left_inj, String.append_right_inj]
  simp only [Option.some_inj, forall_eq']
  exact eq_comm

/-- A block reports its attempt unless `cmd.Wait` has ended with an error. -/
theorem execLogBlock_eq_iff (i : Nat) (s : Shown) :
    execLogBlock i (s.stat ext taskInfo) = blockHead ext taskInfo (i + 1) ++ s.report taskInfo ↔
      ∀ a, s = .ended a → ∀ err, a.execError taskInfo = some err → err = errorText none := by
  -- the command is set before the start, and stays
  have hcommand : (s.stat ext taskInfo).command = (Attempt.startedStat ext taskInfo).command := by
    cases s with
    | running => rfl
    | ended a => cases a <;> rfl
  rw [execLogBlock_eq, hcommand, blockHead, String.append_right_inj]
  cases s with
  | running => exact iff_of_true rfl nofun
  | ended a =>
    simp only [Shown.ended.injEq, forall_eq']
    cases a with
    | notStarted err => exact iff_of_true rfl nofun
    | timedOut pid => exact failedBlock_eq_iff
    | failed pid err stderr => exact failedBlock_eq_iff
    | rejected pid stdout => exact iff_of_true rfl nofun
    | passed pid stdout => exact iff_of_true rfl nofun

/-- **The execution log explains every attempt** exactly where none has ended with an error of
    `cmd.Wait`, or only with the text that stands for none. -/
theorem execLog_explains_iff (h : Shows ext ri shown) :
    Explains ext ri shown ↔ ∀ a, .ended a ∈ shown →
      ∀ err, a.execError ri.taskInfo = some err → err = errorText none := by
  have hblocks : execLogBlocks ri =
      shown.mapIdx fun i s => execLogBlock i (s.stat ext ri.taskInfo) := by
    rw [execLogBlocks, h.records]
    apply List.ext_getElem?
    intro i
    simp only [List.getElem?_mapIdx, List.getElem?_map, Option.map_map, Function.comp_def]
  constructor
  · rintro ⟨-, hreports⟩ a ha
    -- the blocks agree one by one, so that of `a` reports it
    rw [hblocks, List.mapIdx_eq_mapIdx_iff] at hreports
    obtain ⟨i, hi, hget⟩ := List.getElem_of_mem ha
    have hblock := hreports i hi
    rw [hget] at hblock
    exact (execLogBlock_eq_iff i _).mp hblock a rfl
  · intro hall
    refine ⟨generateExecLog_eq ri, ?_⟩
    rw [hblocks, List.mapIdx_eq_mapIdx_iff]
    intro i hi
    exact (execLogBlock_eq_iff i _).mpr fun a ha => hall a (ha ▸ List.getElem_mem hi)

end Explains

/-! ## A command that fails -/

/-- The log of a run whose command cannot be started says so. -/
theorem execLog_explains_notStarted : ∃ ri,
    Shows plainExternals ri [.ended (.notStarted "no bash")] ∧
      Explains plainExternals ri [.ended (.notStarted "no bash")] := by
  have hpossible : (Attempt.notStarted "no bash").Possible (retriedInstance 0).taskInfo := trivial
  have hshows : Shows plainExternals _ [.ended (.notStarted "no bash")] :=
    .between rfl (.cons hpossible (Attempt.ends hpossible) (.nil _))
  refine ⟨_, hshows, (execLog_explains_iff hshows).mpr fun a ha => ?_⟩
  obtain rfl := Shown.ended.inj (List.mem_singleton.mp ha)
  exact nofun

/-- The log of a run whose command fails prints nil for its error. -/
theorem failed_attempt_unexplained : ∃ ri,
    Shows plainExternals ri [.ended (.failed 7 "exit status 1" "")] ∧
      ¬ Explains plainExternals ri [.ended (.failed 7 "exit status 1" "")] := by
  have hpossible : (Attempt.failed 7 "exit status 1" "").Possible (retriedInstance 0).taskInfo :=
    trivial
  refine ⟨_, .between rfl (.cons hpossible (Attempt.ends hpossible) (.nil _)),
    fun hexplains => ?_⟩
  have hblock := hexplains.blocks
  rw [execLogBlocks, Attempt.execResultList_after, retriedInstance, List.nil_append,
    List.mapIdx_singleton, List.mapIdx_singleton, List.cons.injEq] at hblock
  have htext := (execLogBlock_eq_iff 0 (.ended (.failed 7 "exit status 1" ""))).mp hblock.1
    _ rfl _ rfl
  exact absurd htext (by decide)

end Gonitor.Task
