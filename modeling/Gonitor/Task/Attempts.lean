import Gonitor.Requests.Guarantees
import Gonitor.Task.Jobs

/-!
# The Number of Attempts

How often a scheduled run of a task calls `run`.  `ExecJobWrapper.Run` counts its attempts in
8-bit arithmetic, up to `1 + RetryTimes`, and the validation admits every `RetryTimes` from 0 on.

Runs are traces here: the operations may be answered in any way, so that every sequence of outcomes
is covered.  Each call of `run` starts one command and leaves one record in `execResultList`, which
says whether the call returned nil.

## Main Results

- `Loop.upToSuccess`: what the loop does, from any attempt on.
- `attempt_count_iff`: the number of attempts is right except for the largest `RetryTimes`.
-/

namespace Gonitor.Task

open Gonitor.Model Gonitor.Server Gonitor.Controller Gonitor.Requests AtomicProgram SoftDelete

/-! ## Calls of `run` -/

/-- The operation that starts a command. -/
def isStart : Op → Bool
  | .run (.startProcess _ _ _ _) => true
  | _ => false

/-- How many commands are started. -/
def starts (tr : Trace Op Op.Res) : Nat := tr.countP (fun x => isStart x.1)

@[simp] theorem starts_append (tr tr' : Trace Op Op.Res) :
    starts (tr ++ tr') = starts tr + starts tr' := List.countP_append ..

theorem starts_cons (x : Σ o : Op, Op.Res o) (tr : Trace Op Op.Res) :
    starts (x :: tr) = starts tr + if isStart x.1 then 1 else 0 := List.countP_cons ..

/-- A program without such operations starts none. -/
theorem starts_of_uses {α : Type} {p : Program α} (hp : p.Uses (fun o => isStart o = false))
    {tr : Trace Op Op.Res} {a : α} (h : p.Ends tr a) : starts tr = 0 := by
  apply List.countP_eq_zero.mpr
  intro x hx
  rw [hp.of_ends h x hx]
  decide

/-- One call of `run` starts one command. -/
theorem starts_answers {ext : Externals} {ri : RunningInstance} (a : Attempt) :
    starts (a.answers ext ri) = 1 := by
  -- an assertion starts none
  have hasserted : ∀ stdout holds, starts (Attempt.asserted ri stdout holds) = 0 := by
    intro stdout holds
    unfold Attempt.asserted
    split <;> rfl
  cases a with
  | rejected pid stdout =>
    rw [Attempt.answers, starts_append, hasserted]
    rfl
  | passed pid stdout =>
    rw [Attempt.answers, starts_append, hasserted]
    rfl
  | notStarted | timedOut | failed => rfl

/-! ## The loop -/

/-- What the attempts of a loop look like that may make `n` of them: each but the last has failed,
    and where all have failed there are `n`. -/
structure UpToSuccess (n : Nat) (stats : List TaskExecStat) : Prop where
  atMost : stats.length ≤ n
  atLeast : 0 < n → 0 < stats.length
  stops : ∀ front stat back, stats = front ++ stat :: back → stat.taskResult = true → back = []
  exhausts : (∀ stat ∈ stats, stat.taskResult = false) → stats.length = n

theorem UpToSuccess.nil : UpToSuccess 0 [] where
  atMost := Nat.le_refl 0
  atLeast h := h
  stops := by simp
  exhausts _ := rfl

/-- The attempt that succeeds is the last. -/
theorem UpToSuccess.success (n : Nat) {stat : TaskExecStat} (h : stat.taskResult = true) :
    UpToSuccess (n + 1) [stat] where
  atMost := by simp
  atLeast _ := by simp
  stops front stat' back heq _ := by
    cases front with
    | nil =>
      cases heq
      rfl
    | cons x front => simp at heq
  exhausts hall := by
    have hfalse := hall stat List.mem_cons_self
    rw [h] at hfalse
    cases hfalse

/-- After one that fails the loop goes on. -/
theorem UpToSuccess.failure {n : Nat} {stat : TaskExecStat} {stats : List TaskExecStat}
    (h : stat.taskResult = false) (hrest : UpToSuccess n stats) :
    UpToSuccess (n + 1) (stat :: stats) where
  atMost := Nat.succ_le_succ hrest.atMost
  atLeast _ := Nat.succ_pos _
  stops front stat' back heq hsuccess := by
    cases front with
    | nil =>
      cases heq
      rw [h] at hsuccess
      cases hsuccess
    | cons x front =>
      cases heq
      exact hrest.stops front stat' back rfl hsuccess
  exhausts hall := by
    rw [List.length_cons, hrest.exhausts fun x hx => hall x (List.mem_cons_of_mem _ hx)]

/-- **The loop**, from the attempt numbered `i` on. -/
theorem Loop.upToSuccess {ext : Externals} {taskInfo : Task} {ri ri' : RunningInstance} {i : Int8}
    {calls : List Call} {tr : Trace Op Op.Res} (h : Loop ext taskInfo i ri calls tr ri') :
    starts tr = calls.length ∧
      UpToSuccess ((execTimes taskInfo).toInt - i.toInt).toNat
        (calls.map fun c => c.attempt.stat ext ri.taskInfo) := by
  induction h with
  | @spent i ri hover =>
    rw [Int8.lt_iff_toInt_lt] at hover
    have hnone : ((execTimes taskInfo).toInt - i.toInt).toNat = 0 := by omega
    exact ⟨rfl, hnone ▸ .nil⟩
  | @success i ri ri' a hlt hpossible hrun =>
    have hlt' := Int8.lt_iff_toInt_lt.mp hlt
    have hleft : ((execTimes taskInfo).toInt - i.toInt).toNat =
        ((execTimes taskInfo).toInt - i.toInt).toNat - 1 + 1 := by omega
    obtain ⟨-, herr⟩ := run_answers hpossible hrun
    rw [hleft]
    exact ⟨starts_answers a, .success _ (by rw [a.taskResult_stat, ← herr]; rfl)⟩
  | @failure i ri ri₁ ri' a err calls rest hlt hpossible hrun _ ih =>
    have hstep := toInt_succ_of_lt hlt
    have hlt' := Int8.lt_iff_toInt_lt.mp hlt
    have hleft : ((execTimes taskInfo).toInt - i.toInt).toNat =
        ((execTimes taskInfo).toInt - (i + 1).toInt).toNat + 1 := by omega
    obtain ⟨rfl, herr⟩ := run_answers hpossible hrun
    rw [a.sameRun.taskInfo] at ih
    rw [hleft]
    refine ⟨?_, .failure (by rw [a.taskResult_stat, ← herr]; rfl) ih.2⟩
    simp only [starts_append, starts_cons, starts_answers, ih.1, List.length_cons]
    simp [isStart, Nat.add_comm]

/-! ## The job -/

section Job

variable {ext : Externals} {taskInfo : Task} {ri ri' : RunningInstance} {tr : Trace Op Op.Res}

theorem isStart_of_gateOp (o : Op) (h : GateOp o) : isStart o = false := by
  unfold isStart
  split
  · cases h
  · rfl

theorem isStart_of_completionOp (o : Op) (h : CompletionOp o) : isStart o = false := by
  unfold isStart
  split
  · cases h
  · rfl

/-- What a run of the job does, in terms of `execTimes`. -/
theorem JobRun.records (h : JobRun ext taskInfo tr ri ri') :
    starts tr = ri'.execResultList.length ∧
      UpToSuccess (execTimes taskInfo).toInt.toNat ri'.execResultList := by
  obtain ⟨calls, gate, loop, rest, result, rfl, hgate, hloop, hrest⟩ := jobRun_iff.mp h
  obtain ⟨hcount, hlaw⟩ := hloop.upToSuccess
  have hstats := hloop.calls.records
  rw [(instance_of_beforeRun hgate).2, List.nil_append] at hstats
  have hzero : (0 : Int8).toInt = 0 := by decide
  rw [hzero, Int.sub_zero, ← hstats] at hlaw
  have hbefore := starts_of_uses ((beforeRun_uses taskInfo).mono isStart_of_gateOp) hgate
  have hafter := starts_of_uses ((completion_uses ri').mono isStart_of_completionOp) hrest
  refine ⟨?_, hlaw⟩
  simp only [starts_cons, starts_append, hbefore, hcount, hafter, hstats, List.length_map]
  simp [isStart]

end Job

/-! ## The number of attempts -/

/-- What the validation says about the number of retries. -/
theorem retryTimes_of_valid {ext : Externals} {taskID : Int} {payload : TaskMutationPayload}
    {check : Trace Op Op.Res}
    (h : (validateTaskMutationPayload ext taskID payload).Ends check none) :
    0 ≤ payload.retryTimes.toInt := by
  unfold validateTaskMutationPayload at h
  split at h
  · have hends := Prog.Ends.of_pure h
    cases hends.2
  · rename_i hfields
    have hretry : ¬ payload.retryTimes < 0 := by
      intro hneg
      unfold payloadFieldError at hfields
      simp only [hneg, if_true] at hfields
      repeat' split at hfields
      all_goals cases hfields
    rw [Int8.lt_iff_toInt_lt] at hretry
    simpa using hretry

/-- `execTimes` wraps for the largest number of retries, and only there. -/
theorem execTimes_toInt {taskInfo : Task} (h : 0 ≤ taskInfo.retryTimes.toInt) :
    (execTimes taskInfo).toInt =
      if taskInfo.retryTimes = 127 then -128 else taskInfo.retryTimes.toInt + 1 := by
  split
  · rename_i hmax
    rw [execTimes, hmax]
    decide
  · rename_i hne
    have hlt := Int8.toInt_lt taskInfo.retryTimes
    have hne' : taskInfo.retryTimes.toInt ≠ 127 := fun heq => hne (Int8.toInt_inj.mp heq)
    unfold execTimes
    split
    · rw [Int8.add_comm]
      exact toInt_succ_of_lt (n := 127) (Int8.lt_iff_toInt_lt.mpr (by
        show taskInfo.retryTimes.toInt < 127
        omega))
    · rename_i hzero
      rw [GT.gt, Int8.lt_iff_toInt_lt] at hzero
      have h0 : (0 : Int8).toInt = 0 := by decide
      have h1 : (1 : Int8).toInt = 1 := by decide
      omega

/-- The promise about a run of the job: between one and `RetryTimes + 1` calls of `run`, no call
    after the first that returns nil, all of them if none does, and an end of the loop. -/
structure MakesItsAttempts (ext : Externals) (taskInfo : Task) (tr : Trace Op Op.Res)
    (ri ri' : RunningInstance) : Prop where
  counted : starts tr = ri'.execResultList.length
  atLeastOne : 1 ≤ starts tr
  atMost : (starts tr : Int) ≤ taskInfo.retryTimes.toInt + 1
  stops : ∀ front stat back, ri'.execResultList = front ++ stat :: back →
    stat.taskResult = true → back = []
  exhausts : (∀ stat ∈ ri'.execResultList, stat.taskResult = false) →
    (starts tr : Int) = taskInfo.retryTimes.toInt + 1
  ends : ∀ n, retryLoop ext taskInfo (maxRounds + n) ri 0 = retryLoop ext taskInfo maxRounds ri 0

/-- **The number of attempts** of a scheduled run whose gate passes is as promised if and only if
    the task does not have the largest number of retries; with that, `run` is never called. -/
theorem attempt_count_iff {ext : Externals} {taskID : Int} {payload : TaskMutationPayload}
    {check : Trace Op Op.Res}
    (hvalid : (validateTaskMutationPayload ext taskID payload).Ends check none) {taskInfo : Task}
    (hretry : taskInfo.retryTimes = payload.retryTimes) {tr : Trace Op Op.Res}
    {ri ri' : RunningInstance} (hrun : JobRun ext taskInfo tr ri ri') :
    MakesItsAttempts ext taskInfo tr ri ri' ↔ taskInfo.retryTimes ≠ 127 := by
  have hnonneg := hretry ▸ retryTimes_of_valid hvalid
  have htimes := execTimes_toInt hnonneg
  obtain ⟨hcount, hlaw⟩ := hrun.records
  constructor
  · rintro hmakes hmax
    -- the bound has wrapped: no attempt is made
    rw [if_pos hmax] at htimes
    have hatMost := hlaw.atMost
    have hone := hmakes.atLeastOne
    rw [hcount] at hone
    omega
  · intro hne
    rw [if_neg hne] at htimes
    have hatMost := hlaw.atMost
    have hatLeast := hlaw.atLeast (by omega)
    refine ⟨hcount, by omega, by omega, hlaw.stops, fun hall => ?_, retryLoop_maxRounds ext taskInfo ri⟩
    have hexact := hlaw.exhausts hall
    omega

/-! ## The smallest and the largest number of retries -/

/-- A task that is to be retried so often. -/
def retryPayload (retryTimes : Int8) : TaskMutationPayload :=
  { name := "job", command := "true", execType := "cmd", schedule := "@daily",
    retryTimes := retryTimes }

/-- The task, as it is stored under id 1. -/
def retriedTask (retryTimes : Int8) : Task :=
  (retryPayload retryTimes).apply { toStamps := ⟨1, 0, 0, none⟩ }

/-- Its log row. -/
def retriedLog (retryTimes : Int8) : TaskLog :=
  Table.empty.inserted (newTaskLog (retriedTask retryTimes) true 0) 0

/-- The gate of its runs, which do not depend on another task. -/
def passedGate (retryTimes : Int8) : Trace Op Op.Res :=
  [⟨.world .now, (0 : Int)⟩,
    ⟨.db (.createTaskLog (newTaskLog (retriedTask retryTimes) true 0)), .ok (retriedLog retryTimes)⟩]

/-- Its instance after the gate. -/
def retriedInstance (retryTimes : Int8) : RunningInstance :=
  ⟨retriedTask retryTimes, retriedLog retryTimes, []⟩

theorem passedGate_ends (retryTimes : Int8) : (beforeRun (retriedTask retryTimes)).Ends
    (passedGate retryTimes) (.ok (retriedInstance retryTimes)) := .op (.op (.pure _))

/-- An attempt whose command cannot be started, and the pause after it. -/
def failedStart : Trace Op Op.Res :=
  [⟨.run (.startProcess (retriedTask 0) 1 "bash" ["-c", "true"]), .error "no bash"⟩,
    ⟨.run (.sleep (retryPause (retriedTask 0) 1)), ()⟩]

/-- The completion of a run that is not registered. -/
def unregisteredEnd (ri : RunningInstance) : Trace Op Op.Res :=
  [⟨.world .now, (0 : Int)⟩, ⟨.db (.saveTaskLog (finalLog ri 0)), .ok ()⟩,
    ⟨.run (.isRegistered 1 1), some false⟩]

/-- Without retries, a run whose command cannot be started makes its one attempt. -/
theorem attempt_count_iff_noRetry : ∃ tr ri ri',
    JobRun plainExternals (retriedTask 0) tr ri ri' ∧ starts tr = 1 ∧
      MakesItsAttempts plainExternals (retriedTask 0) tr ri ri' := by
  have hvalid : (validateTaskMutationPayload plainExternals 0 (retryPayload 0)).Ends [] none :=
    .pure _
  have hloop : (retryLoop plainExternals (retriedTask 0) maxRounds (retriedInstance 0) 0).Ends
      failedStart ((Attempt.notStarted "no bash").after plainExternals (retriedInstance 0)) :=
    .op (.op (.pure _))
  have hrun : JobRun plainExternals (retriedTask 0) _ _ _ :=
    ⟨_, _, unregisteredEnd _, _, rfl, passedGate_ends 0, hloop, .op (.op (.op (.pure _)))⟩
  exact ⟨_, _, _, hrun, rfl, (attempt_count_iff hvalid rfl hrun).mpr (by decide)⟩

/-- With the largest number of retries the command of the task is never started. -/
theorem largest_retry_never_runs : ∃ check tr ri ri',
    (validateTaskMutationPayload plainExternals 0 (retryPayload 127)).Ends check none ∧
      JobRun plainExternals (retriedTask 127) tr ri ri' ∧ starts tr = 0 ∧
      ¬ MakesItsAttempts plainExternals (retriedTask 127) tr ri ri' := by
  have hloop : (retryLoop plainExternals (retriedTask 127) maxRounds (retriedInstance 127) 0).Ends
      [] (retriedInstance 127) :=
    .pure _
  have hrun : JobRun plainExternals (retriedTask 127) _ _ _ :=
    ⟨_, _, unregisteredEnd _, _, rfl, passedGate_ends 127, hloop, .op (.op (.op (.pure _)))⟩
  refine ⟨[], _, _, _, .pure _, hrun, rfl, fun hmakes => ?_⟩
  exact absurd hmakes.atLeastOne (by decide)

end Gonitor.Task
