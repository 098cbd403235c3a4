import Mathlib.Tactic.MkIffOfInductiveProp
import Gonitor.Framework.DateTimeText
import Gonitor.Task.RunRecord

/-!
# The Result Handler

The script that a task can give to be told about its runs (`tools.go`), and the message that it can
have sent through WeCom (`service/wecom`).  `afterRun` calls it after it has saved the log row, in
the deferred function of the run.

The JavaScript machine is outside of the source.  A script is what it leaves behind once it has been
run: the error it has ended with, and what `main` is.  Of an exported function value without an
error result it is known that it panics where the script throws or its result cannot be converted.
The WeCom service is what it answers.

## Main Results

- `handler_harmless_iff`: when the result handler leaves a run alone.
-/

namespace Gonitor.Task

open Gonitor.Model Gonitor.Server Gonitor.Controller Gonitor.Requests AtomicProgram

/-! ## Scripts -/

/-- A value that the script has put into its result. -/
inductive GoValue
  | bool (b : Bool)
  | string (s : String)
  | other
  deriving DecidableEq

/-- A Go map from names to values of any type. -/
abbrev GoMap := String → Option GoValue

/-- An element of `result_list`. -/
structure ResultItem where
  command : String
  commandStartStatus : Bool
  commandStartError : Option String
  commandExecStatus : Bool
  commandExecError : Option String
  assertResult : Bool
  taskResult : Bool
  deriving DecidableEq

/-- `task_info` -/
structure HandlerTaskInfo where
  id : Int
  name : String
  execType : String
  command : String
  execStrategy : Int8
  deriving DecidableEq

/-- What the result handler is told. -/
structure ResultHandlerData where
  id : Int
  execTime : String
  runningTime : Int
  retryTimes : Int8
  resultList : List ResultItem
  taskInfo : HandlerTaskInfo
  deriving DecidableEq

/-- `RunningInstance.GetResultHandlerData`, with the log row as `afterRun` has left it; `offset` is
    that of the server's zone. -/
def getResultHandlerData (offset : Int) (ri : RunningInstance) (taskLogInfo : TaskLog) :
    ResultHandlerData where
  id := taskLogInfo.id
  execTime := String.ofList (DateTimeText.format offset taskLogInfo.execTime)
  runningTime := taskLogInfo.runningTime
  retryTimes := taskLogInfo.retryTimes
  resultList := ri.execResultList.map fun resultItem =>
    { command := resultItem.command
      commandStartStatus := resultItem.commandStartStatus
      commandStartError := resultItem.commandStartError
      commandExecStatus := resultItem.commandExecStatus
      commandExecError := resultItem.commandExecError
      assertResult := resultItem.assertResult
      taskResult := resultItem.taskResult }
  taskInfo :=
    { id := ri.taskInfo.id
      name := ri.taskInfo.name
      execType := ri.taskInfo.execType
      command := ri.taskInfo.command
      execStrategy := ri.taskInfo.execStrategy }

/-- How a call of an exported `main` ends.  A result that is undefined or null is converted to the
    map without elements. -/
inductive MainResult
  | threw
  | unconvertible
  | converted (handlerRt : GoMap)

/-- `vm.Get("main")`: nil, undefined or null; a value that is not a function, with the error of its
    conversion; or a function. -/
inductive MainValue
  | absent
  | notCallable (err : String)
  | function (handlerFn : Bool → ResultHandlerData → MainResult)

/-- A script that has been run. -/
structure Script where
  runError : Option String := none
  main : MainValue

/-- `CheckTaskAssertJavascriptCode` -/
def checkTaskAssertJavascriptCode (vm : Script) : Option String :=
  match vm.runError with
  | some err => some err
  | none =>
    match vm.main with
    | .absent => some "main function is not defined"
    | .notCallable err => some err
    | .function _ => none

/-! ## Messages -/

/-- `JsonData` -/
structure JsonData where
  toUser : String
  agentId : String
  msgType : String
  duplicateCheckInterval : Int
  text : String
  image : String
  deriving DecidableEq

/-- `InitJsonData` -/
def initJsonData (agentId msgType : String) : JsonData where
  toUser := "@all"
  agentId := agentId
  msgType := msgType
  duplicateCheckInterval := 600
  text := ""
  image := ""

/-- What the WeCom service answers to a message. -/
inductive PostAnswer
  | noRequest
  | failed
  | answered
  deriving DecidableEq

/-- The WeCom service: the parsed body of its answer to the request for a token, if it answers, and its
    answers to messages.  The agent is what the package holds; as it copies the configuration when it is
    initialised, ahead of the configuration being read, that is the empty text. -/
structure WeCom where
  agentId : String
  tokenResponse : Option GoMap
  post : String → JsonData → PostAnswer

/-- `GetRemoteToken`; `none` is a panic, of the read through a missing response or of the conversion
    of a missing token. -/
def getRemoteToken (w : WeCom) : Option String :=
  match w.tokenResponse with
  | none => none
  | some tokenResponse =>
    match tokenResponse "access_token" with
    | some (.string accessToken) => some accessToken
    | _ => none

/-- What a call of the result handler comes to: it returns, with the message that has been sent, or
    it panics, or it ends the server (`log.Fatalln`). -/
inductive HandlerOutcome
  | returned (sent : Option String)
  | panicked
  | exited
  deriving DecidableEq

/-- The `postData` of `SendTextMessage`. -/
def postData (w : WeCom) (content : String) : JsonData :=
  { initJsonData w.agentId "text" with text := content, image := "" }

/-- `SendTextMessage`, with `PostMsg`. -/
def sendTextMessage (w : WeCom) (content : String) : HandlerOutcome :=
  match getRemoteToken w with
  | none => .panicked
  | some token =>
    match w.post token (postData w content) with
    | .noRequest => .panicked
    | .failed => .exited
    | .answered => .returned (some content)

/-! ## The call -/

/-- `ExecResultHandler`; an error of the script is only logged. -/
def execResultHandler (w : WeCom) (vm : Script) (execResult : Bool)
    (resultHandlerData : ResultHandlerData) : HandlerOutcome :=
  match vm.main with
  | .absent => .panicked
  | .notCallable _ => .returned none
  | .function handlerFn =>
    match handlerFn execResult resultHandlerData with
    | .threw | .unconvertible => .panicked
    | .converted handlerRt =>
      -- the two type assertions are unchecked
      match handlerRt "push" with
      | some (.bool true) =>
        match handlerRt "content" with
        | some (.string content) => sendTextMessage w content
        | _ => .panicked
      | some (.bool false) => .returned none
      | _ => .panicked

/-- The result of `main`, where it has one. -/
def mainResult (vm : Script) (execResult : Bool) (resultHandlerData : ResultHandlerData) :
    Option MainResult :=
  match vm.main with
  | .function handlerFn => some (handlerFn execResult resultHandlerData)
  | _ => none

/-- The service takes a message with this content. -/
structure Delivers (w : WeCom) (content : String) : Prop where
  taken : ∃ token, getRemoteToken w = some token ∧ w.post token (postData w content) = .answered

/-- What `main` may return without breaking the run: an object whose `push` is a boolean and, where
    that is true, whose `content` is a string that the service takes. -/
@[mk_iff] structure GoodResult (w : WeCom) (handlerRt : GoMap) : Prop where
  push : ∃ b, handlerRt "push" = some (.bool b)
  content : handlerRt "push" = some (.bool true) →
    ∃ content, handlerRt "content" = some (.string content) ∧ Delivers w content

/-- The script is harmless by itself: `main` is a value that is not a function, or a function that
    has such a result. -/
def Benign (w : WeCom) (vm : Script) (execResult : Bool) (resultHandlerData : ResultHandlerData) :
    Prop :=
  match vm.main with
  | .absent => False
  | .notCallable _ => True
  | .function handlerFn =>
    ∃ handlerRt, handlerFn execResult resultHandlerData = .converted handlerRt ∧
      GoodResult w handlerRt

/-- `main` asks for a message with this content. -/
def Pushes (vm : Script) (execResult : Bool) (resultHandlerData : ResultHandlerData)
    (content : String) : Prop :=
  ∃ handlerRt, mainResult vm execResult resultHandlerData = some (.converted handlerRt) ∧
    handlerRt "push" = some (.bool true) ∧ handlerRt "content" = some (.string content)

section Handler

variable {w : WeCom} {vm : Script} {execResult : Bool} {resultHandlerData : ResultHandlerData}

theorem sendTextMessage_eq_returned_iff {content : String} {sent : Option String} :
    sendTextMessage w content = .returned sent ↔ Delivers w content ∧ sent = some content := by
  unfold sendTextMessage
  constructor
  · -- only an answer to the message lets the sending return
    intro h
    cases htoken : getRemoteToken w with
    | none => simp [htoken] at h
    | some token =>
      cases hpost : w.post token (postData w content) with
      | noRequest | failed => simp [htoken, hpost] at h
      | answered =>
        simp only [htoken, hpost, HandlerOutcome.returned.injEq] at h
        exact ⟨⟨token, htoken, hpost⟩, h.symm⟩
  · rintro ⟨⟨token, htoken, hpost⟩, rfl⟩
    simp only [htoken, hpost]

/-- **The handler returns** where it is benign, with the message that `main` asks for. -/
theorem execResultHandler_eq_returned_iff {sent : Option String} :
    execResultHandler w vm execResult resultHandlerData = .returned sent ↔
      Benign w vm execResult resultHandlerData ∧
        ∀ content, sent = some content ↔ Pushes vm execResult resultHandlerData content := by
  unfold execResultHandler Benign Pushes mainResult
  -- the cases are the branches of the source: `main`, its call, `push`, `content`
  cases vm.main with
  | absent => simp
  | notCallable err => simp [Option.eq_none_iff_forall_ne_some, eq_comm]
  | function handlerFn =>
    cases hcall : handlerFn execResult resultHandlerData with
    | threw | unconvertible => simp [hcall]
    | converted handlerRt =>
      simp only [hcall, Option.some.injEq, MainResult.converted.injEq, exists_eq_left',
        goodResult_iff]
      cases hpush : handlerRt "push" with
      | none => simp
      | some push =>
        cases push with
        | string s => simp
        | other => simp
        | bool b =>
          cases b with
          | false => simp [Option.eq_none_iff_forall_ne_some, eq_comm]
          | true =>
            cases hcontent : handlerRt "content" with
            | none => simp
            | some value =>
              cases value with
              | bool b => simp
              | other => simp
              | string content =>
                -- the message is sent, unless its sending breaks the run
                have hsent : sent = some content ↔
                    ∀ other, sent = some other ↔ content = other := by
                  constructor
                  · rintro rfl other
                    exact Option.some_inj
                  · intro h
                    exact (h content).mpr rfl
                simpa [sendTextMessage_eq_returned_iff] using fun _ => hsent

end Handler

/-! ## The completion of a run with a handler -/

/-- The call of the result handler in this trace is answered as the handler behaves. -/
def Answers (outcome : HandlerOutcome) (tr : Trace Op Op.Res) : Prop :=
  ∀ code finished, ⟨.run (.resultHandler code), finished⟩ ∈ tr →
    (finished = true ↔ ∃ sent, outcome = .returned sent)

/-- What is promised about the result handler `vm` of a run that is completed at `time`: it
    returns, it sends the message that `main` asks for and no other, and the completion goes on to
    the removal of the instance. -/
structure Harmless (w : WeCom) (vm : Script) (offset : Int) (ri : RunningInstance) (time : Time)
    (outcome : HandlerOutcome) : Prop where
  returns : ∃ sent, outcome = .returned sent
  sends : ∀ content, outcome = .returned (some content) ↔
    Pushes vm (finalLog ri time).execResult
      (getResultHandlerData offset ri (finalLog ri time)) content
  completes : ∀ tr r, (completion ri).Ends (⟨.world .now, time⟩ :: tr) r → Answers outcome tr →
    ∃ registered, ⟨.run (.isRegistered ri.taskInfo.id ri.taskLogInfo.id), registered⟩ ∈ tr

/-- `main` asks for one message or for none. -/
theorem exists_sent (vm : Script) (execResult : Bool) (resultHandlerData : ResultHandlerData) :
    ∃ sent, ∀ content, sent = some content ↔ Pushes vm execResult resultHandlerData content := by
  by_cases hpushes : ∃ content, Pushes vm execResult resultHandlerData content
  · obtain ⟨content, handlerRt, hresult, hpush, hcontent⟩ := hpushes
    refine ⟨some content, fun other => ?_⟩
    constructor
    · rintro ⟨⟩
      exact ⟨handlerRt, hresult, hpush, hcontent⟩
    · rintro ⟨handlerRt', hresult', -, hcontent'⟩
      rw [hresult] at hresult'
      cases hresult'
      rw [hcontent] at hcontent'
      cases hcontent'
      rfl
  · refine ⟨none, fun content => ⟨nofun, fun h => absurd ⟨content, h⟩ hpushes⟩⟩

theorem isRegistered_of_removeRunning {ri : RunningInstance} {tr : Trace Op Op.Res}
    {r : Except Panic Unit} (h : (removeRunning ri).Ends tr r) : ∃ registered,
      ⟨.run (.isRegistered ri.taskInfo.id ri.taskLogInfo.id), registered⟩ ∈ tr := by
  obtain ⟨registered, rest, rfl, -⟩ := Prog.Ends.of_call_bind h
  exact ⟨registered, List.mem_cons_self⟩

/-- Where the handler returns, the completion goes on. -/
theorem completion_goes_on {ri : RunningInstance} {time : Time} {tr : Trace Op Op.Res}
    {r : Except Panic Unit} {outcome : HandlerOutcome} (hreturns : ∃ sent, outcome = .returned sent)
    (h : (completion ri).Ends (⟨.world .now, time⟩ :: tr) r) (hanswers : Answers outcome tr) :
    ∃ registered, ⟨.run (.isRegistered ri.taskInfo.id ri.taskLogInfo.id), registered⟩ ∈ tr := by
  obtain ⟨after, removal, completed, htr, hafter, hremoval⟩ := completion_ends h
  obtain ⟨time', saved, finished, rfl, hcompleted⟩ := afterRun_ends hafter
  cases htr
  -- the removal has been made, or `afterRun` has panicked
  obtain ⟨-, r, hremove⟩ | ⟨⟨panic, hpanic⟩, -⟩ := hremoval
  · obtain ⟨registered, hmem⟩ := isRegistered_of_removeRunning hremove
    exact ⟨registered, by simp [hmem]⟩
  · -- then the handler has been called, and has not returned
    rw [hpanic] at hcompleted
    split at hcompleted
    · rename_i hhandler
      have hfinished := hanswers ri.taskInfo.resultHandler finished (by
        simp [handled, hhandler.1])
      rw [hhandler.2] at hfinished
      exact absurd (hfinished.mpr hreturns) Bool.false_ne_true
    · cases hcompleted

/-- **The result handler leaves a run alone** exactly where it is benign. -/
theorem handler_harmless_iff (w : WeCom) (vm : Script) (offset : Int) (ri : RunningInstance)
    (time : Time) :
    Harmless w vm offset ri time (execResultHandler w vm (finalLog ri time).execResult
        (getResultHandlerData offset ri (finalLog ri time))) ↔
      Benign w vm (finalLog ri time).execResult
        (getResultHandlerData offset ri (finalLog ri time)) := by
  constructor
  · rintro ⟨⟨sent, hreturns⟩, -, -⟩
    exact (execResultHandler_eq_returned_iff.mp hreturns).1
  · intro hbenign
    obtain ⟨sent, hsent⟩ := exists_sent vm (finalLog ri time).execResult
      (getResultHandlerData offset ri (finalLog ri time))
    have hreturned := execResultHandler_eq_returned_iff.mpr ⟨hbenign, hsent⟩
    rw [hreturned]
    refine ⟨⟨sent, rfl⟩, fun content => ?_, fun tr r => completion_goes_on ⟨sent, rfl⟩⟩
    rw [HandlerOutcome.returned.injEq]
    exact hsent content

/-! ## A handler that has nothing to say -/

/-- Its text. -/
def silentCode : String := "function main(result, info) \x7b return \x7b\x7d \x7d"

/-- What the JavaScript machine makes of a text: the result of this `main` has no elements. -/
def silentScripts (code : String) : Script :=
  if code = silentCode then { main := .function fun _ _ => .converted fun _ => none }
  else { runError := some "SyntaxError", main := .absent }

/-- The checks, with that machine. -/
def silentExternals : Externals :=
  { plainExternals with
    acceptsScript := fun code => (checkTaskAssertJavascriptCode (silentScripts code)).isNone }

/-- A service that takes every message. -/
def openService : WeCom where
  agentId := ""
  tokenResponse := some fun _ => some (.string "token")
  post _ _ := .answered

/-- A task that is to be told about its runs. -/
def handledPayload : TaskMutationPayload := { retryPayload 0 with resultHandler := silentCode }

/-- Its run, ahead of its only attempt. -/
def handledStart : RunningInstance :=
  ⟨handledPayload.apply { toStamps := ⟨1, 0, 0, none⟩ }, retriedLog 0, []⟩

/-- The run, when it is completed: the attempt has succeeded. -/
def handledRun : RunningInstance := (Attempt.passed 7 "done").after silentExternals handledStart

/-- A handler that returns an empty object is accepted; it breaks the run, which is never removed. -/
theorem silent_handler_breaks_run : ∃ check attempt tr,
    (validateTaskMutationPayload silentExternals 0 handledPayload).Ends check none ∧
    (handledStart.run silentExternals).Ends attempt (handledRun, none) ∧
    (completion handledRun).Ends (⟨.world .now, (0 : Int)⟩ :: tr) (.error .resultHandler) ∧
    Answers .panicked tr ∧
    execResultHandler openService (silentScripts silentCode) (finalLog handledRun 0).execResult
      (getResultHandlerData 0 handledRun (finalLog handledRun 0)) = .panicked ∧
    ¬ Harmless openService (silentScripts silentCode) 0 handledRun 0
      (execResultHandler openService (silentScripts silentCode) (finalLog handledRun 0).execResult
        (getResultHandlerData 0 handledRun (finalLog handledRun 0))) := by
  have hattempt : (handledStart.run silentExternals).Ends _ (handledRun, none) :=
    Attempt.ends (a := .passed 7 "done") trivial
  refine ⟨[], _, [⟨.db (.saveTaskLog (finalLog handledRun 0)), .ok ()⟩,
    ⟨.run (.resultHandler silentCode), false⟩], .pure _, hattempt, .op (.op (.op (.pure _))), ?_, rfl, ?_⟩
  · intro code finished hmem
    simp at hmem
    simp [hmem]
  · rintro ⟨⟨sent, hreturns⟩, -, -⟩
    cases hreturns

end Gonitor.Task
