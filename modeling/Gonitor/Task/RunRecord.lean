import Gonitor.Task.Attempts

/-!
# The Record of a Run

What the log row of a run says about its attempts.  Each call of `run` sets the flags of one record
on its way to one of its exits, and `afterRun` folds the list of the records into the row that it
saves.

## Main Results

- `run_record_truthful`: on both run paths, and however the attempts go, the records and the saved
  row say what has happened.
-/

namespace Gonitor.Task

open Gonitor.Model Gonitor.Server Gonitor.Requests AtomicProgram SoftDelete

/-! ## What the answers of the system say about an attempt -/

/-- A command has been started. -/
def startsCommand : (Σ o : Op, Op.Res o) → Bool
  | ⟨.run (.startProcess _ _ _ _), .ok _⟩ => true
  | _ => false

/-- `cmd.Wait` has returned nil. -/
def waitsWell : (Σ o : Op, Op.Res o) → Bool
  | ⟨.run (.waitReturn _ _), .exited _⟩ => true
  | _ => false

/-- The assertion has been evaluated to true. -/
def assertsTrue : (Σ o : Op, Op.Res o) → Bool
  | ⟨.run (.taskAssertResult _ _), holds⟩ => holds
  | _ => false

/-- An attempt succeeds where its command starts and ends well, and its output passes the assertion
    if there is one. -/
structure Succeeded (taskInfo : Task) (answers : Trace Op Op.Res) : Prop where
  started : answers.any startsCommand = true
  exited : answers.any waitsWell = true
  asserted : 0 < taskInfo.assert.utf8ByteSize → answers.any assertsTrue = true

/-- The attempts that succeed are those after which `run` returns nil. -/
theorem succeeded_iff {ext : Externals} {ri : RunningInstance} {a : Attempt}
    (hpossible : a.Possible ri.taskInfo) :
    Succeeded ri.taskInfo (a.answers ext ri) ↔ a.error ri.taskInfo = none := by
  constructor
  · rintro ⟨hstarted, hexited, hasserted⟩
    cases a with
    | notStarted err => cases hstarted
    | timedOut pid => cases hexited
    | failed pid err stderr => cases hexited
    | rejected pid stdout =>
      -- there is an assertion, and it has been evaluated to false
      have hassert : 0 < ri.taskInfo.assert.utf8ByteSize := hpossible
      have htrue := hasserted hassert
      simp only [Attempt.answers, Attempt.asserted, hassert, if_true] at htrue
      cases htrue
    | passed pid stdout => rfl
  · intro hnil
    cases a with
    | passed pid stdout =>
      refine ⟨rfl, rfl, fun hassert => ?_⟩
      simp only [Attempt.answers, Attempt.asserted, hassert, if_true]
      rfl
    | notStarted | timedOut | failed | rejected => cases hnil

/-! ## The saved rows -/

/-- The row that an operation saves. -/
def savedRow : Op → Option TaskLog
  | .db (.saveTaskLog row) => some row
  | _ => none

/-- The log rows that a trace saves. -/
def savedRows (tr : Trace Op Op.Res) : List TaskLog := tr.filterMap (fun x => savedRow x.1)

@[simp] theorem savedRows_append (tr tr' : Trace Op Op.Res) :
    savedRows (tr ++ tr') = savedRows tr ++ savedRows tr' := List.filterMap_append ..

theorem savedRows_eq_nil {tr : Trace Op Op.Res} (h : ∀ x ∈ tr, savedRow x.1 = none) :
    savedRows tr = [] := List.filterMap_eq_nil_iff.mpr h

theorem savedRow_of_gateOp (o : Op) (h : GateOp o) : savedRow o = none := by
  unfold savedRow
  split
  · cases h
  · rfl

theorem savedRow_of_removalOp (o : Op) (h : RemovalOp o) : savedRow o = none := by
  unfold savedRow
  split
  · cases h
  · rfl

section TaskRun

variable {ext : Externals} {taskInfo : Task} {ri ri' : RunningInstance} {tr : Trace Op Op.Res}
  {calls : List Call}

theorem savedRows_answers (a : Attempt) : savedRows (a.answers ext ri) = [] := by
  apply savedRows_eq_nil
  cases a <;> simp [Attempt.answers, Attempt.waited, Attempt.asserted, savedRow]

theorem Loop.savedRows {i : Int8} (h : Loop ext taskInfo i ri calls tr ri') :
    savedRows tr = [] := by
  induction h with
  | spent ri _ => rfl
  | success _ _ _ => exact savedRows_answers _
  | failure _ _ _ _ ih =>
    rw [savedRows_append, savedRows_answers]
    exact ih

/-- `afterRun` reads the clock and saves one row. -/
theorem savedRows_of_afterRun {r : Except Panic Unit} (h : (afterRun ri).Ends tr r) :
    ∃ time rest, tr = ⟨.world .now, time⟩ :: rest ∧ savedRows tr = [finalLog ri time] := by
  obtain ⟨time, saved, finished, rfl, -⟩ := afterRun_ends h
  refine ⟨time, _, rfl, ?_⟩
  unfold handled
  split <;> rfl

/-- The removal of the instance saves nothing more. -/
theorem savedRows_of_completion {r : Except Panic Unit} (h : (completion ri).Ends tr r) :
    ∃ time rest, tr = ⟨.world .now, time⟩ :: rest ∧ savedRows tr = [finalLog ri time] := by
  obtain ⟨after, removal, completed, rfl, hafter, hremoval⟩ := completion_ends h
  obtain ⟨time, rest, rfl, hrow⟩ := savedRows_of_afterRun hafter
  have hnone : Task.savedRows removal = [] := by
    obtain ⟨-, r, hremove⟩ | ⟨-, rfl⟩ := hremoval
    · exact savedRows_eq_nil (((removeRunning_uses ri).mono savedRow_of_removalOp).of_ends hremove)
    · rfl
  refine ⟨time, rest ++ removal, rfl, ?_⟩
  rw [savedRows_append, hrow, hnone, List.append_nil]

theorem savedRows_of_beforeRun {passed : Except String RunningInstance}
    (h : (beforeRun taskInfo).Ends tr passed) : Task.savedRows tr = [] :=
  savedRows_eq_nil (((beforeRun_uses taskInfo).mono savedRow_of_gateOp).of_ends h)

/-- **A run saves one row**, the one that `afterRun` makes of the records. -/
theorem TaskRun.savedRows (h : TaskRun ext taskInfo tr calls ri') :
    ∃ time, savedRows tr = [finalLog ri' time] := by
  cases h with
  | @scheduled tr calls ri ri' hrun =>
    obtain ⟨gate, loop, rest, result, rfl, hgate, hloop, hrest⟩ := hrun
    obtain ⟨time, -, -, hrow⟩ := savedRows_of_completion hrest
    refine ⟨time, ?_⟩
    change Task.savedRows (gate ++ (loop ++ rest)) = _
    simp [savedRows_of_beforeRun hgate, hloop.savedRows, hrow]
  | @once taskId gate rest a err ri ri' result hgate hpossible hrun hafter =>
    obtain ⟨time, -, -, hrow⟩ := savedRows_of_afterRun hafter
    refine ⟨time, ?_⟩
    change Task.savedRows (gate ++ (a.answers ext ri ++ rest)) = _
    simp [savedRows_of_beforeRun hgate, savedRows_answers, hrow]

/-- The calls of a run are made on an instance of its task without records. -/
theorem TaskRun.onNew (h : TaskRun ext taskInfo tr calls ri') : ∃ ri, ri.taskInfo = taskInfo ∧
    ri.execResultList = [] ∧ Calls ext ri calls ri' := by
  cases h with
  | scheduled hrun =>
    obtain ⟨gate, loop, rest, result, rfl, hgate, hloop, -⟩ := hrun
    obtain ⟨htask, hnone⟩ := instance_of_beforeRun hgate
    exact ⟨_, htask, hnone, hloop.calls⟩
  | once hgate hpossible hrun _ =>
    obtain ⟨htask, hnone⟩ := instance_of_beforeRun hgate
    exact ⟨_, htask, hnone, .cons (htask ▸ hpossible) hrun (.nil _)⟩

/-- A run makes no attempt after one that succeeds, and no more than an 8-bit counter can count. -/
theorem TaskRun.upToSuccess (h : TaskRun ext taskInfo tr calls ri') :
    ∃ n ≤ 127, UpToSuccess n ri'.execResultList := by
  cases h with
  | scheduled hrun =>
    obtain ⟨gate, loop, rest, result, rfl, hgate, hloop, -⟩ := hrun
    obtain ⟨-, hnone⟩ := instance_of_beforeRun hgate
    have hrecords := hloop.calls.records
    rw [hnone, List.nil_append] at hrecords
    have hmax := Int8.toInt_lt (execTimes taskInfo)
    have hzero : (0 : Int8).toInt = 0 := by decide
    exact ⟨_, by omega, hrecords ▸ hloop.upToSuccess.2⟩
  | @once taskId gate rest a err ri ri' result hgate hpossible hrun _ =>
    obtain ⟨rfl, hnone⟩ := instance_of_beforeRun hgate
    obtain ⟨rfl, -⟩ := run_answers hpossible hrun
    rw [a.execResultList_after, hnone, List.nil_append]
    refine ⟨1, by omega, ?_⟩
    cases hresult : (a.stat ext ri.taskInfo).taskResult with
    | true => exact .success 0 hresult
    | false => exact .failure hresult .nil

end TaskRun

/-- Each attempt but the last has failed. -/
theorem UpToSuccess.earlier {n : Nat} {stats : List TaskExecStat} (h : UpToSuccess n stats) :
    ∀ stat ∈ stats.dropLast, stat.taskResult = false := by
  intro stat hstat
  obtain ⟨front, back, hsplit⟩ := List.append_of_mem hstat
  have hne : stats ≠ [] := by
    rintro rfl
    cases hstat
  have hstats : stats = front ++ stat :: (back ++ [stats.getLast hne]) := calc
    stats = stats.dropLast ++ [stats.getLast hne] := (List.dropLast_append_getLast hne).symm
    _ = front ++ stat :: (back ++ [stats.getLast hne]) := by
      rw [hsplit]
      simp
  cases hresult : stat.taskResult with
  | false => rfl
  | true =>
    have hlast := h.stops _ _ _ hstats hresult
    simp at hlast

/-! ## The truth about a run -/

/-- What the records and the saved row of a run with these calls say. -/
structure TruthfulRecord (ext : Externals) (taskInfo : Task) (tr : Trace Op Op.Res)
    (calls : List Call) (ri' : RunningInstance) : Prop where
  returned : List.Forall₂ (fun c stat => c.returned = none ↔ stat.taskResult = true) calls
    ri'.execResultList
  earlier : ∀ stat ∈ ri'.execResultList.dropLast, stat.taskResult = false
  saved : ∃ row last, savedRows tr = [row] ∧ calls.getLast? = some last ∧ row.status = false ∧
    (row.execResult = true ↔ Succeeded taskInfo (last.attempt.answers ext ri')) ∧
    row.retryTimes.toInt = calls.length - 1

/-- **The record of a run tells the truth**, whenever the run has made an attempt. -/
theorem run_record_truthful {ext : Externals} {taskInfo : Task} {tr : Trace Op Op.Res}
    {calls : List Call} {ri' : RunningInstance} (h : TaskRun ext taskInfo tr calls ri')
    (hmade : calls ≠ []) : TruthfulRecord ext taskInfo tr calls ri' := by
  obtain ⟨ri, rfl, hnone, hcalls⟩ := h.onNew
  obtain ⟨n, hn, hlaw⟩ := h.upToSuccess
  obtain ⟨time, hrow⟩ := h.savedRows
  have hrecords := hcalls.records
  rw [hnone, List.nil_append] at hrecords
  have hreturned := hcalls.returned
  have htask := hcalls.sameRun.taskInfo
  have hlastCall := List.getLast?_eq_some_getLast hmade
  obtain ⟨hpossible, -⟩ := hreturned _ (List.getLast_mem hmade)
  generalize calls.getLast hmade = last at hlastCall hpossible
  -- the last record is that of the last call
  have hlast : ri'.execResultList.getLast? = some (last.attempt.stat ext ri.taskInfo) := by
    rw [hrecords, List.getLast?_map, hlastCall]
    rfl
  refine ⟨?_, hlaw.earlier, finalLog ri' time, last, hrow, hlastCall, ?_, ?_, ?_⟩
  · rw [hrecords, List.forall₂_map_right_iff, List.forall₂_same]
    intro c hc
    rw [(hreturned c hc).2, Attempt.taskResult_stat, Option.isNone_iff_eq_none]
  · simp only [finalLog, hlast]
  · rw [← htask] at hpossible ⊢
    rw [succeeded_iff hpossible, htask]
    simp only [finalLog, hlast, Attempt.taskResult_stat, Option.isNone_iff_eq_none]
  · -- so many attempts can be counted in 8 bits
    have hlength : ri'.execResultList.length = calls.length := by
      rw [hrecords, List.length_map]
    have hpos := List.length_pos_iff.mpr hmade
    have hatMost := hlaw.atMost
    simp only [finalLog, hlast]
    rw [hlength] at hatMost ⊢
    apply Int8.toInt_ofInt_of_le <;> omega

/-- The instance of a run whose first command cannot be started, and whose second one succeeds. -/
def passedInstance : RunningInstance :=
  (Attempt.passed 7 "done").after plainExternals
    ((Attempt.notStarted "no bash").after plainExternals (retriedInstance 1))

theorem passedRun : ∃ tr, ScheduledRun plainExternals (retriedTask 1) tr
    [⟨.notStarted "no bash", some "no bash"⟩, ⟨.passed 7 "done", none⟩] (retriedInstance 1)
    passedInstance := by
  have hfails : ((retriedInstance 1).run plainExternals).Ends _ (_, some "no bash") :=
    Attempt.ends (a := .notStarted "no bash") trivial
  have hpasses : (((Attempt.notStarted "no bash").after plainExternals (retriedInstance 1)).run
      plainExternals).Ends _ (passedInstance, none) := Attempt.ends (a := .passed 7 "done") trivial
  have hrest : (completion passedInstance).Ends (unregisteredEnd passedInstance) (.ok ()) :=
    .op (.op (.op (.pure _)))
  exact ⟨_, _, _, _, _, rfl, passedGate_ends 1,
    .failure (by decide) trivial hfails (.success (by decide) trivial hpasses), hrest⟩

/-- The record of such a run has both attempts. -/
theorem run_record_truthful_passed : ∃ tr calls ri',
    TaskRun plainExternals (retriedTask 1) tr calls ri' ∧ calls.length = 2 ∧
      TruthfulRecord plainExternals (retriedTask 1) tr calls ri' := by
  obtain ⟨tr, hrun⟩ := passedRun
  have hjob := TaskRun.scheduled hrun
  exact ⟨_, _, _, hjob, rfl, run_record_truthful hjob (by simp)⟩

end Gonitor.Task
