import Gonitor.Task.RunRecord

/-!
# Pauses and Deadlines

The seconds of a task: the pause between two attempts, and the time that a command is given.  Both
are products in nanoseconds of 64 bits, and both wrap above 9223372036 seconds.  The retry loop
pauses after every attempt that fails, the last one included.

The pauses of a run are read off its trace.  How long the run takes is measured on a clock that
runs during the attempts and the pauses only.

## Main Results

- `waits_between_iff`: a scheduled run waits between its attempts only if one of them succeeds.
- `exact_seconds_iff`: which seconds reach the command and the pauses as they are.
-/

namespace Gonitor.Task

open Gonitor.Model Gonitor.Server Gonitor.Controller Gonitor.Requests AtomicProgram SoftDelete

/-! ## Seconds in 64 bits -/

/-- The most seconds whose nanoseconds fit. -/
def maxSeconds : Int := 9223372036

/-- The test that the source makes of its seconds, `n > 0`. -/
theorem gt_zero_iff {n : Int64} : n > 0 ↔ 0 < n.toInt := by
  rw [GT.gt, Int64.lt_iff_toInt_lt]
  rfl

/-- `time.Duration(n) * time.Second` is exact up to there, and nowhere above. -/
theorem toInt_seconds_iff {n : Int64} (h : 0 < n.toInt) :
    (n * 1000000000).toInt = n.toInt * 1000000000 ↔ n.toInt ≤ maxSeconds := by
  have hsecond : (1000000000 : Int64).toInt = 1000000000 := by decide
  rw [Int64.toInt_mul, hsecond]
  unfold maxSeconds
  constructor
  · intro hexact
    -- the product that is computed is below 2^63, and it is the exact one
    have hlt : (n.toInt * 1000000000).bmod (2 ^ 64) < (2 ^ 64 + 1) / 2 := Int.bmod_lt (by decide)
    omega
  · intro hle
    apply Int.bmod_eq_of_le <;> omega

/-- The deadline that `run` gives to its context: a duration from the start of the command. -/
def contextTimeout (timeout : Int64) : Option Int64 :=
  if timeout > 0 then some (timeout * 1000000000) else none

/-- The wait after the attempt numbered `j`, in nanoseconds. -/
def wait (taskInfo : Task) (j : Nat) : Int :=
  if 0 < taskInfo.retryInterval.toInt then taskInfo.retryInterval.toInt * 1000000000
  else j * 60000000000

/-- The pause that the loop makes after the attempt numbered `j`. -/
def pauseAfter (taskInfo : Task) (j : Nat) : Int := (retryPause taskInfo (Int8.ofNat j)).toInt

theorem retryPause_of_pos {taskInfo : Task} (h : 0 < taskInfo.retryInterval.toInt) (i : Int8) :
    retryPause taskInfo i = taskInfo.retryInterval * 1000000000 := by
  rw [retryPause, if_pos (gt_zero_iff.mpr h)]

/-- The minutes of an attempt always fit. -/
theorem pauseAfter_of_nonpos {taskInfo : Task} (h : ¬ 0 < taskInfo.retryInterval.toInt) {j : Nat}
    (hj : j ≤ 127) : pauseAfter taskInfo j = j * 60000000000 := by
  have hnonpos : ¬ taskInfo.retryInterval > 0 := fun hpos => h (gt_zero_iff.mp hpos)
  -- `i` counts in eight bits, and is at most 127 where the loop pauses
  have hcount : (Int8.ofNat j).toInt = j := by
    rw [Int8.toInt_ofNat_of_lt]
    omega
  have hminute : (60000000000 : Int64).toInt = 60000000000 := by decide
  rw [pauseAfter, retryPause, if_neg hnonpos, Int64.toInt_mul, Int8.toInt_toInt64, hcount, hminute]
  apply Int.bmod_eq_of_le <;> omega

/-- A pause is the wait that is due unless the seconds wrap. -/
theorem pauseAfter_eq_wait_iff {taskInfo : Task} {j : Nat} (hj : j ≤ 127) :
    pauseAfter taskInfo j = wait taskInfo j ↔ taskInfo.retryInterval.toInt ≤ maxSeconds := by
  by_cases hpos : 0 < taskInfo.retryInterval.toInt
  · rw [pauseAfter, retryPause_of_pos hpos, wait, if_pos hpos]
    exact toInt_seconds_iff hpos
  · have hle : taskInfo.retryInterval.toInt ≤ maxSeconds := by
      unfold maxSeconds
      omega
    rw [pauseAfter_of_nonpos hpos hj, wait, if_neg hpos]
    exact iff_of_true rfl hle

/-- Durations together. -/
def total : List Int → Int
  | [] => 0
  | d :: ds => d + total ds

/-! ## The pauses of a trace -/

/-- The pauses of a trace: how many commands have been started before, and for how long. -/
def pauses : Nat → Trace Op Op.Res → List (Nat × Int)
  | _, [] => []
  | n, ⟨o, _⟩ :: tr =>
    match o with
    | .run (.sleep d) => (n, d.toInt) :: pauses n tr
    | o => pauses (if isStart o then n + 1 else n) tr

/-- The operation of a pause. -/
def isSleep : Op → Bool
  | .run (.sleep _) => true
  | _ => false

theorem pauses_append (n : Nat) (tr tr' : Trace Op Op.Res) :
    pauses n (tr ++ tr') = pauses n tr ++ pauses (n + starts tr) tr' := by
  induction tr generalizing n with
  | nil => rfl
  | cons x tr ih =>
    obtain ⟨o, r⟩ := x
    simp only [List.cons_append, pauses, starts_cons]
    split
    · simp [ih, isStart]
    · rw [ih]
      congr 2
      split <;> omega

theorem pauses_eq_nil {tr : Trace Op Op.Res} (h : ∀ x ∈ tr, isSleep x.1 = false) (n : Nat) :
    pauses n tr = [] := by
  induction tr generalizing n with
  | nil => rfl
  | cons x tr ih =>
    obtain ⟨hx, htr⟩ := List.forall_mem_cons.mp h
    obtain ⟨o, r⟩ := x
    simp only [pauses]
    split
    · cases hx
    · exact ih htr _

section Loop

variable {ext : Externals} {taskInfo : Task} {ri ri' : RunningInstance} {calls : List Call}
  {tr : Trace Op Op.Res}

theorem isSleep_answers (a : Attempt) : ∀ x ∈ a.answers ext ri, isSleep x.1 = false := by
  cases a <;> simp [Attempt.answers, Attempt.waited, Attempt.asserted, isSleep]

/-- The calls that return an error. -/
def failures (calls : List Call) : Nat := calls.countP fun c => c.returned.isSome

/-- The loop pauses after each call that returns an error. -/
theorem Loop.pauses {i : Int8} (h : Loop ext taskInfo i ri calls tr ri') {n : Nat}
    (hi : i.toInt = n) :
    pauses n tr =
      (List.range' (n + 1) (failures calls)).map fun j => (j, pauseAfter taskInfo j) := by
  -- `n` is what `i` counts: the attempts that have been made before this round
  induction h generalizing n with
  | spent ri _ => rfl
  | success _ _ _ => exact pauses_eq_nil (isSleep_answers _) n
  | @failure i ri ri₁ ri' a err calls rest hlt _ _ _ ih =>
    have hstep : (i + 1).toInt = (n + 1 : Nat) := by
      have hsucc := toInt_succ_of_lt hlt
      omega
    have hcount : i + 1 = Int8.ofNat (n + 1) := by
      rw [← Int8.toInt_inj, hstep, Int8.toInt_ofNat_of_lt]
      have hmax := Int8.toInt_lt (i + 1)
      omega
    have hfailures : failures (⟨a, some err⟩ :: calls) = failures calls + 1 := by
      simp [failures]
    -- the attempt itself has no pause, and adds one to the attempts before the next
    rw [pauses_append, pauses_eq_nil (isSleep_answers a), starts_answers, hfailures,
      List.range'_succ, List.map_cons]
    simp only [Task.pauses, List.nil_append, ih hstep]
    rw [pauseAfter, hcount]

/-- In a run of the loop one call has succeeded, and is the last, or all have failed. -/
theorem Loop.failures {i : Int8} (h : Loop ext taskInfo i ri calls tr ri') :
    ((∃ c ∈ calls, c.returned = none) ∧ failures calls + 1 = calls.length) ∨
      (∀ c ∈ calls, c.returned ≠ none) ∧ failures calls = calls.length := by
  induction h with
  | spent ri _ => simp [Task.failures]
  | success _ _ _ => simp [Task.failures]
  | failure _ _ _ _ ih =>
    simp only [Task.failures, List.countP_cons, List.length_cons, List.exists_mem_cons_iff,
      List.forall_mem_cons] at ih ⊢
    simpa using ih

/-- A call that succeeds is the last. -/
theorem Loop.stops {i : Int8} {c : Call} (h : Loop ext taskInfo i ri (c :: calls) tr ri')
    (hsuccess : c.returned = none) : calls = [] := by
  cases h with
  | success _ _ _ => rfl
  | failure _ _ _ _ => cases hsuccess

end Loop

/-! ## The clock of a run -/

/-- The time, and how much of it the attempts have taken. -/
structure Clock where
  now : Int
  attempts : Int

/-- The operations of a call of `run`. -/
def isAttemptOp : Op → Bool
  | .run (.startProcess _ _ _ _) | .run (.setProcess _ _) | .run (.addTaskRunningIns _ _) => true
  | .run (.reap _) | .run (.waitReturn _ _) | .run (.taskAssertResult _ _) => true
  | _ => false

/-- Time passes during the attempts, as much as they take, and in the pauses; everything else takes
    no time.  A pause that is not positive returns at once. -/
def timeStep (o : Op) (c : Clock) (r : o.Res) (c' : Clock) : Prop :=
  match o, r with
  | .run (.sleep d), _ => c' = { c with now := c.now + max 0 d.toInt }
  | .world .now, t => t = c.now ∧ c' = c
  | .db (.createTaskLog row), r => c' = c ∧ ∀ row', r = .ok row' → row'.execTime = row.execTime
  | o, _ => if isAttemptOp o then ∃ d : Nat, c' = ⟨c.now + d, c.attempts + d⟩ else c' = c

/-- What is neither a pause nor a part of an attempt. -/
structure Idle (o : Op) : Prop where
  awake : isSleep o = false
  noAttempt : isAttemptOp o = false

theorem idle_of_gateOp (o : Op) (h : GateOp o) : Idle o := by
  constructor
  · unfold isSleep
    split
    · cases h
    · rfl
  · unfold isAttemptOp
    split
    case h_7 => rfl
    all_goals cases h

theorem idle_of_completionOp (o : Op) (h : CompletionOp o) : Idle o := by
  constructor
  · unfold isSleep
    split
    · cases h
    · rfl
  · unfold isAttemptOp
    split
    case h_7 => rfl
    all_goals cases h

section Clock

open Prog

variable {tr : Trace Op Op.Res} {c c' : Clock}

theorem timeStep_idle {o : Op} {r : o.Res} (hidle : Idle o) (h : timeStep o c r c') : c' = c := by
  obtain ⟨hsleep, hattempt⟩ := hidle
  unfold timeStep at h
  split at h
  · cases hsleep
  · exact h.2
  · exact h.1
  · simpa [hattempt] using h

theorem performed_idle (hidle : ∀ x ∈ tr, Idle x.1) (h : Performed timeStep tr c c') :
    c' = c := by
  refine h.invariant (I := fun d => d = c) (fun x hx d d' hstep hd => ?_) rfl
  exact (timeStep_idle (hidle x hx) hstep).trans hd

/-- Without a pause, only attempts take time. -/
theorem timeStep_awake {o : Op} {r : o.Res} (hsleep : isSleep o = false)
    (h : timeStep o c r c') : c'.now - c'.attempts = c.now - c.attempts := by
  by_cases hattempt : isAttemptOp o = true
  · -- both go on by the same time
    unfold timeStep at h
    split at h
    · cases hsleep
    · cases hattempt
    · cases hattempt
    · rw [if_pos hattempt] at h
      obtain ⟨d, rfl⟩ := h
      exact Int.add_sub_add_right ..
  · rw [timeStep_idle ⟨hsleep, by simpa using hattempt⟩ h]

/-- The clock runs on by the attempts and the pauses. -/
theorem performed_now (h : Performed timeStep tr c c') (n : Nat) :
    c'.now - c'.attempts =
      c.now - c.attempts + total ((pauses n tr).map fun p => max 0 p.2) := by
  induction h generalizing n with
  | nil c => simp [pauses, total]
  | @cons o r tr c c₁ c' hstep hrest ih =>
    simp only [pauses]
    split
    · change c₁ = _ at hstep
      subst hstep
      simp only [ih n, List.map_cons, total]
      omega
    · rename_i hnot
      have hsleep : isSleep o = false := by
        unfold isSleep
        split
        · exact (hnot _ _ rfl .rfl).elim
        · rfl
      rw [ih, timeStep_awake hsleep hstep]

end Clock

section Job

open Prog

variable {ext : Externals} {taskInfo : Task} {ri ri' : RunningInstance} {tr : Trace Op Op.Res}
  {c c' : Clock}

/-- The gate takes no time, and stamps the row. -/
theorem performed_gate (hends : (beforeRun taskInfo).Ends tr (.ok ri))
    (h : Performed timeStep tr c c') : c' = c ∧ ri.taskLogInfo.execTime = c.now := by
  have hidle := ((beforeRun_uses taskInfo).mono idle_of_gateOp).of_ends hends
  refine ⟨performed_idle hidle h, ?_⟩
  obtain ⟨check, execTime, row, rfl, hcheck, rfl⟩ := beforeRun_ends hends
  -- the gate looks at the clock and then inserts the row, which keeps the time it has
  obtain ⟨c₁, hfirst, hrest⟩ := h.of_append
  obtain ⟨c₂, ⟨htime, rfl⟩, hinsert⟩ := hrest.of_cons
  obtain ⟨c₃, ⟨-, hrow⟩, -⟩ := hinsert.of_cons
  have hbefore := performed_idle (fun x hx => hidle x (List.mem_append_left _ hx)) hfirst
  rw [hrow row rfl, ← hbefore, ← htime]
  rfl

/-- The completion takes no time, and its row has the time of the clock. -/
theorem performed_completion {result : Except Panic Unit} (hends : (completion ri).Ends tr result)
    (h : Performed timeStep tr c c') : c' = c ∧ savedRows tr = [finalLog ri c.now] := by
  have hidle := ((completion_uses ri).mono idle_of_completionOp).of_ends hends
  refine ⟨performed_idle hidle h, ?_⟩
  obtain ⟨time, rest, rfl, hrow⟩ := savedRows_of_completion hends
  obtain ⟨c₁, ⟨rfl, -⟩, -⟩ := h.of_cons
  exact hrow

/-- The pauses of a run of the job are those of its loop. -/
theorem ScheduledRun.pauses {calls : List Call} (h : ScheduledRun ext taskInfo tr calls ri ri') :
    pauses 0 tr = (List.range' 1 (failures calls)).map fun j => (j, pauseAfter taskInfo j) := by
  obtain ⟨gate, loop, rest, result, rfl, hgate, hloop, hrest⟩ := h
  -- neither the gate nor the completion pauses, and the gate starts nothing
  have hbefore := ((beforeRun_uses taskInfo).mono idle_of_gateOp).of_ends hgate
  have hafter := ((completion_uses ri').mono idle_of_completionOp).of_ends hrest
  have hstarts := starts_of_uses ((beforeRun_uses taskInfo).mono isStart_of_gateOp) hgate
  have hzero : (0 : Int8).toInt = (0 : Nat) := by decide
  change Task.pauses 0 (gate ++ (loop ++ rest)) = _
  rw [pauses_append, pauses_append, pauses_eq_nil (fun x hx => (hbefore x hx).awake),
    pauses_eq_nil (fun x hx => (hafter x hx).awake), hstarts, hloop.pauses hzero,
    List.nil_append, List.append_nil]

end Job

/-! ## Waits between the attempts -/

/-- What is promised about the waits of a scheduled run: a run of `k` attempts waits after the first
    `k - 1` of them, and the completion follows the last one. -/
structure WaitsBetween (ext : Externals) (taskInfo : Task) (tr : Trace Op Op.Res)
    (calls : List Call) (ri ri' : RunningInstance) : Prop where
  pauses : pauses 0 tr = (List.range' 1 (calls.length - 1)).map fun j => (j, wait taskInfo j)
  direct : ∃ before last rest result, calls.getLast? = some last ∧
    tr = before ++ (last.attempt.answers ext ri ++ rest) ∧ (completion ri').Ends rest result
  completes : ∀ c c' : Clock, Prog.Performed timeStep tr c c' → ∃ row, savedRows tr = [row] ∧
    row.execTime = c.now ∧
    c'.now = row.execTime + (c'.attempts - c.attempts) +
      total ((List.range' 1 (calls.length - 1)).map (wait taskInfo)) ∧
    row.runningTime = unixSeconds c'.now - unixSeconds row.execTime

section WaitsBetween

variable {ext : Externals} {taskInfo : Task} {tr : Trace Op Op.Res} {calls : List Call}
  {ri ri' : RunningInstance}

@[simp] theorem finalLog_execTime (ri : RunningInstance) (now : Time) :
    (finalLog ri now).execTime = ri.taskLogInfo.execTime := by
  unfold finalLog
  split <;> rfl

@[simp] theorem finalLog_runningTime (ri : RunningInstance) (now : Time) :
    (finalLog ri now).runningTime = unixSeconds now - unixSeconds ri.taskLogInfo.execTime := by
  unfold finalLog
  split <;> rfl

theorem wait_nonneg (taskInfo : Task) (j : Nat) : 0 ≤ wait taskInfo j := by
  unfold wait
  split <;> omega

/-- The answers of a call depend on the task and the row only. -/
theorem SameRun.answers (h : SameRun ri ri') (a : Attempt) :
    a.answers ext ri' = a.answers ext ri := by
  cases a <;>
    (simp only [Attempt.answers, Attempt.waited, Attempt.asserted]; rw [h.taskInfo, h.logId])

/-- Where a call has succeeded, the loop ends with it. -/
theorem Loop.direct {i : Int8} (h : Loop ext taskInfo i ri calls tr ri')
    (hsuccess : ∃ c ∈ calls, c.returned = none) :
    ∃ before last, calls.getLast? = some last ∧ tr = before ++ last.attempt.answers ext ri := by
  induction h with
  | spent ri _ => simp at hsuccess
  | success _ _ _ => exact ⟨[], _, rfl, rfl⟩
  | @failure i ri ri₁ ri' a err calls rest _ hpossible hrun hrest ih =>
    obtain ⟨rfl, -⟩ := run_answers hpossible hrun
    obtain ⟨before, last, hlast, rfl⟩ := ih (by simpa using hsuccess)
    refine ⟨a.answers ext ri ++ ⟨.run (.sleep (retryPause taskInfo (i + 1))), ()⟩ :: before,
      last, ?_, ?_⟩
    · rw [List.getLast?_cons, hlast]
      rfl
    · rw [a.sameRun.answers, List.append_assoc, List.cons_append]

/-- Given the right pauses after all attempts but the last, the rest follows. -/
theorem ScheduledRun.waitsBetween (h : ScheduledRun ext taskInfo tr calls ri ri')
    (hsuccess : ∃ c ∈ calls, c.returned = none)
    (hpauses : Task.pauses 0 tr =
      (List.range' 1 (calls.length - 1)).map fun j => (j, wait taskInfo j)) :
    WaitsBetween ext taskInfo tr calls ri ri' := by
  obtain ⟨gate, loop, rest, result, rfl, hgate, hloop, hrest⟩ := h
  refine ⟨hpauses, ?_, fun c c' hperformed => ?_⟩
  · obtain ⟨before, last, hlast, rfl⟩ := hloop.direct hsuccess
    refine ⟨⟨.run (.newRunningInstance taskInfo true), ()⟩ :: (gate ++ before), last, rest,
      result, hlast, ?_, hrest⟩
    simp only [List.append_assoc, List.cons_append]
  · have hnow := performed_now hperformed 0
    -- no wait is negative, so that each takes as long as it says
    have hwaits : (List.range' 1 (calls.length - 1)).map
        ((fun p : Nat × Int => max 0 p.2) ∘ fun j => (j, wait taskInfo j)) =
        (List.range' 1 (calls.length - 1)).map (wait taskInfo) :=
      List.map_congr_left fun j _ => Int.max_eq_right (wait_nonneg taskInfo j)
    rw [hpauses, List.map_map, hwaits] at hnow
    -- the row is stamped when the clock starts, and saved when it stops
    obtain ⟨c₁, hnew, hgated⟩ := hperformed.of_cons
    have hstart := timeStep_idle ⟨rfl, rfl⟩ hnew
    obtain ⟨c₂, hfirst, hlooped⟩ := hgated.of_append
    obtain ⟨hgateTime, hstamp⟩ := performed_gate hgate hfirst
    obtain ⟨c₃, -, hlast⟩ := hlooped.of_append
    obtain ⟨hend, hrow⟩ := performed_completion hrest hlast
    have hexec : ri'.taskLogInfo.execTime = c.now := by
      rw [hloop.calls.sameRun.execTime, hstamp, hstart]
    have hrows : savedRows (gate ++ (loop ++ rest)) = [finalLog ri' c'.now] := by
      simp [savedRows_of_beforeRun hgate, hloop.savedRows, hrow, hend]
    refine ⟨finalLog ri' c'.now, hrows, ?_, ?_, ?_⟩
    · rw [finalLog_execTime, hexec]
    · rw [finalLog_execTime, hexec]
      omega
    · rw [finalLog_execTime, finalLog_runningTime]

/-- What a call returns says whether it has succeeded. -/
theorem ScheduledRun.succeeded (h : ScheduledRun ext taskInfo tr calls ri ri') :
    ∀ c ∈ calls, Succeeded taskInfo (c.attempt.answers ext ri) ↔ c.returned = none := by
  obtain ⟨gate, loop, rest, result, rfl, hgate, hloop, hrest⟩ := h
  obtain ⟨rfl, -⟩ := instance_of_beforeRun hgate
  intro c hc
  obtain ⟨hpossible, hreturned⟩ := hloop.calls.returned c hc
  rw [succeeded_iff hpossible, hreturned]

/-- Up to 126 retries, a run makes between one and 127 attempts. -/
theorem ScheduledRun.length (h : ScheduledRun ext taskInfo tr calls ri ri')
    (hmin : 0 ≤ taskInfo.retryTimes.toInt) (hmax : taskInfo.retryTimes.toInt ≤ 126) :
    1 ≤ calls.length ∧ calls.length ≤ 127 := by
  obtain ⟨gate, loop, rest, result, rfl, hgate, hloop, hrest⟩ := h
  have htimes := execTimes_toInt hmin
  have hne : taskInfo.retryTimes ≠ 127 := by
    rintro heq
    rw [heq] at hmax
    exact absurd hmax (by decide)
  rw [if_neg hne] at htimes
  obtain ⟨-, hlaw⟩ := hloop.upToSuccess
  have hzero : (0 : Int8).toInt = 0 := by decide
  have hatLeast := hlaw.atLeast (by omega)
  have hatMost := hlaw.atMost
  rw [List.length_map] at hatLeast hatMost
  omega

/-- **Waits happen only between attempts** exactly where one of the attempts succeeds, and either it
    is the first or the seconds of the interval fit in 64 bits. -/
theorem waits_between_iff (hmin : 0 ≤ taskInfo.retryTimes.toInt)
    (hmax : taskInfo.retryTimes.toInt ≤ 126)
    (h : ScheduledRun ext taskInfo tr calls ri ri') :
    WaitsBetween ext taskInfo tr calls ri ri' ↔
      (∃ c ∈ calls, Succeeded taskInfo (c.attempt.answers ext ri)) ∧
        ((∃ c ∈ calls.head?, Succeeded taskInfo (c.attempt.answers ext ri)) ∨
          taskInfo.retryInterval.toInt ≤ maxSeconds) := by
  obtain ⟨hone, hcount⟩ := h.length hmin hmax
  have hsucceeded := h.succeeded
  have hpauses := h.pauses
  obtain ⟨gate, loop, rest, result, -, -, hloop, -⟩ := h.parts
  constructor
  · intro hwaits
    have hsame := hwaits.pauses.symm.trans hpauses
    obtain ⟨⟨c, hc, hnil⟩, hfailures⟩ | ⟨-, hfailures⟩ := hloop.failures
    · refine ⟨⟨c, hc, (hsucceeded c hc).mpr hnil⟩, ?_⟩
      -- with two attempts there is a pause, which must be right
      by_cases htwo : 2 ≤ calls.length
      · have hn : failures calls = calls.length - 1 := by omega
        rw [hn, List.map_inj_left] at hsame
        have hfirst := hsame 1 (by simp only [List.mem_range'_1]; omega)
        rw [Prod.mk.injEq] at hfirst
        exact .inr ((pauseAfter_eq_wait_iff (by decide)).mp hfirst.2.symm)
      · obtain ⟨d, rfl⟩ := List.length_eq_one_iff.mp (show calls.length = 1 by omega)
        obtain rfl := List.mem_singleton.mp hc
        exact .inl ⟨c, rfl, (hsucceeded c hc).mpr hnil⟩
    · -- all attempts have failed: there is one pause too many
      have hlength := congrArg List.length hsame
      simp only [List.length_map, List.length_range', hfailures] at hlength
      omega
  · rintro ⟨⟨c, hc, hsuccess⟩, hfits⟩
    have hnil := (hsucceeded c hc).mp hsuccess
    refine h.waitsBetween ⟨c, hc, hnil⟩ ?_
    obtain ⟨-, hfailures⟩ | ⟨hall, -⟩ := hloop.failures
    · have hn : failures calls = calls.length - 1 := by omega
      rw [hpauses, hn, List.map_inj_left]
      intro j hj
      rw [List.mem_range'_1] at hj
      obtain ⟨d, hd, hfirst⟩ | hle := hfits
      · -- the first attempt is the only one
        obtain ⟨rest, rfl⟩ := List.head?_eq_some_iff.mp hd
        obtain rfl := hloop.stops ((hsucceeded d List.mem_cons_self).mp hfirst)
        simp only [List.length_cons, List.length_nil] at hj
        omega
      · rw [(pauseAfter_eq_wait_iff (by omega)).mpr hle]
    · exact absurd hnil (hall c hc)

/-- A run whose second attempt succeeds waits for a minute between the two. -/
theorem waits_between_iff_passed : ∃ tr calls ri ri',
    ScheduledRun plainExternals (retriedTask 1) tr calls ri ri' ∧
      WaitsBetween plainExternals (retriedTask 1) tr calls ri ri' ∧
      pauses 0 tr = [(1, 60000000000)] := by
  obtain ⟨tr, hrun⟩ := passedRun
  have hsecond := List.mem_cons_of_mem (⟨.notStarted "no bash", some "no bash"⟩ : Call)
    (List.mem_singleton_self ⟨.passed 7 "done", none⟩)
  have hsuccess := (hrun.succeeded _ hsecond).mpr rfl
  have hwaits := (waits_between_iff (by decide) (by decide) hrun).mpr
    ⟨⟨_, hsecond, hsuccess⟩, .inr (by decide)⟩
  exact ⟨_, _, _, _, hrun, hwaits, hwaits.pauses⟩

/-- The completion of such a run, a minute after its start. -/
def lateEnd (ri : RunningInstance) : Trace Op Op.Res :=
  [⟨.world .now, (60000000000 : Int)⟩, ⟨.db (.saveTaskLog (finalLog ri 60000000000)), .ok ()⟩,
    ⟨.run (.isRegistered 1 1), some false⟩]

/-- Without retries, a run whose command cannot be started waits a minute after its only attempt,
    and records that it has been running for a minute. -/
theorem waits_after_last_attempt : ∃ tr calls ri ri' row,
    ScheduledRun plainExternals (retriedTask 0) tr calls ri ri' ∧
      Prog.Performed timeStep tr ⟨0, 0⟩ ⟨60000000000, 0⟩ ∧ savedRows tr = [row] ∧
      row.runningTime = 60 ∧ ¬ WaitsBetween plainExternals (retriedTask 0) tr calls ri ri' := by
  have hpossible : (Attempt.notStarted "no bash").Possible (retriedInstance 0).taskInfo := trivial
  have hrun : ((retriedInstance 0).run plainExternals).Ends _ (_, some "no bash") :=
    Attempt.ends hpossible
  have hrest : (completion ((Attempt.notStarted "no bash").after plainExternals
      (retriedInstance 0))).Ends (lateEnd _) (.ok ()) := .op (.op (.op (.pure _)))
  have hjob : ScheduledRun plainExternals (retriedTask 0) _ _ _ _ :=
    ⟨_, _, _, _, rfl, passedGate_ends 0,
      .failure (by decide) hpossible hrun (.spent _ (by decide)), hrest⟩
  refine ⟨_, _, _, _, _, hjob, ?_, rfl, rfl, fun hwaits => ?_⟩
  · have hinserted : ∀ row, .ok (retriedLog 0) = (.ok row : Except DbError TaskLog) →
        row.execTime = (newTaskLog (retriedTask 0) true 0).execTime := by
      rintro row ⟨⟩
      rfl
    exact .cons rfl (.cons ⟨rfl, rfl⟩ (.cons ⟨rfl, hinserted⟩ (.cons ⟨0, rfl⟩ (.cons rfl
      (.cons ⟨rfl, rfl⟩ (.cons rfl (.cons rfl (.nil _))))))))
  · have hnone := hwaits.pauses
    cases hnone

end WaitsBetween

/-! ## Exact seconds -/

/-- The seconds of a task reach its commands and its pauses as they are. -/
structure ExactSeconds (ext : Externals) (taskInfo : Task) : Prop where
  deadline : ∀ (ri : RunningInstance) tr r, ri.taskInfo = taskInfo → (ri.run ext).Ends tr r →
    ∀ log timeout result, ⟨.run (.waitReturn log timeout), result⟩ ∈ tr →
      (contextTimeout timeout).map Int64.toInt =
        if 0 < taskInfo.timeout.toInt then some (taskInfo.timeout.toInt * 1000000000) else none
  pause : 0 < taskInfo.retryInterval.toInt →
    ∀ i, (retryPause taskInfo i).toInt = taskInfo.retryInterval.toInt * 1000000000

theorem contextTimeout_toInt {n : Int64} (h : 0 < n.toInt) :
    (contextTimeout n).map Int64.toInt = some (n * 1000000000).toInt := by
  rw [contextTimeout, if_pos (gt_zero_iff.mpr h)]
  rfl

theorem contextTimeout_of_nonpos {n : Int64} (h : ¬ 0 < n.toInt) : contextTimeout n = none := by
  rw [contextTimeout, if_neg fun hpos => h (gt_zero_iff.mp hpos)]

/-- The context of an attempt has the timeout of its task. -/
theorem timeout_of_waitReturn {ext : Externals} {ri : RunningInstance} {tr : Trace Op Op.Res}
    {r : RunningInstance × Option String} (h : (ri.run ext).Ends tr r) {log : Int}
    {timeout : Int64} {result : WaitResult}
    (hwait : ⟨.run (.waitReturn log timeout), result⟩ ∈ tr) : timeout = ri.taskInfo.timeout := by
  obtain ⟨a, -, rfl, -⟩ := run_ends_iff.mp h
  cases a with
  | notStarted err =>
    -- nothing is waited for
    simp [Attempt.answers] at hwait
  | timedOut | failed | rejected | passed =>
    simp [Attempt.answers, Attempt.waited, Attempt.asserted] at hwait
    exact hwait.1.2

/-- **Configured seconds are exact** up to 9223372036, and not above. -/
theorem exact_seconds_iff (ext : Externals) (taskInfo : Task) :
    ExactSeconds ext taskInfo ↔
      taskInfo.timeout.toInt ≤ maxSeconds ∧ taskInfo.retryInterval.toInt ≤ maxSeconds := by
  constructor
  · rintro ⟨hdeadline, hpause⟩
    constructor
    · by_cases hpos : 0 < taskInfo.timeout.toInt
      · -- an attempt that is waited for shows its deadline
        let ri : RunningInstance := ⟨taskInfo, newTaskLog taskInfo true 0, []⟩
        have hexact := hdeadline ri _ _ rfl (run_ends_iff.mpr ⟨.timedOut 0, trivial, rfl, rfl⟩)
          ri.taskLogInfo.id taskInfo.timeout .timedOut
          (by simp [Attempt.answers, Attempt.waited, ri])
        rw [contextTimeout_toInt hpos, if_pos hpos, Option.some_inj] at hexact
        exact (toInt_seconds_iff hpos).mp hexact
      · unfold maxSeconds
        omega
    · by_cases hpos : 0 < taskInfo.retryInterval.toInt
      · have hexact := hpause hpos 0
        rw [retryPause_of_pos hpos] at hexact
        exact (toInt_seconds_iff hpos).mp hexact
      · unfold maxSeconds
        omega
  · rintro ⟨htimeout, hinterval⟩
    constructor
    · rintro ri tr r rfl hends log timeout result hwait
      rw [timeout_of_waitReturn hends hwait]
      split
      · rename_i hpos
        rw [contextTimeout_toInt hpos, (toInt_seconds_iff hpos).mpr htimeout]
      · rename_i hnonpos
        rw [contextTimeout_of_nonpos hnonpos]
        rfl
    · intro hpos i
      rw [retryPause_of_pos hpos]
      exact (toInt_seconds_iff hpos).mpr hinterval

/-- A task that is given 9223372037 seconds. -/
def patientPayload : TaskMutationPayload :=
  { name := "job", command := "true", execType := "cmd", schedule := "@daily",
    timeout := 9223372037 }

/-- It is accepted, and its command is given a deadline that lies before its start. -/
theorem deadline_before_start : ∃ check,
    (validateTaskMutationPayload plainExternals 0 patientPayload).Ends check none ∧
      (contextTimeout patientPayload.timeout).map Int64.toInt = some (-9223372036709551616) ∧
      ¬ ExactSeconds plainExternals (patientPayload.apply { toStamps := ⟨1, 0, 0, none⟩ }) := by
  refine ⟨[], .pure _, by decide, fun hexact => ?_⟩
  let ri : RunningInstance := ⟨patientPayload.apply { toStamps := ⟨1, 0, 0, none⟩ },
    newTaskLog (patientPayload.apply { toStamps := ⟨1, 0, 0, none⟩ }) true 0, []⟩
  have hdeadline := hexact.deadline ri _ _ rfl (run_ends_iff.mpr ⟨.timedOut 0, trivial, rfl, rfl⟩)
    ri.taskLogInfo.id patientPayload.timeout .timedOut
    (by simp [Attempt.answers, Attempt.waited, ri, TaskMutationPayload.apply])
  exact absurd hdeadline (by decide)

end Gonitor.Task
