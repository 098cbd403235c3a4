import Gonitor.Concurrent.Invariants
import Gonitor.Concurrent.Processes
import Gonitor.Framework.GhostData
import Gonitor.Requests.Neutral

/-!
# The History of Runs

`task_log` has a row for each run.  The gate inserts it, `afterRun` saves it when the run has ended,
and the agents report runs that have ended.  The gate reads this history too: a task that depends on
another one is started only after a run of that one has succeeded.

A thread of the server reads and writes the history while others do.  Its `Page` is what it has read
last, and the row that it has opened.

## Main Results

- `ended_rows_final`: what is recorded of a run that has ended never changes.
- `dependent_start_justified`: when a command of a task that depends on another one is started, a success
  of the other one is recorded, and has been since before the run was.
- `open_rows_have_threads`: a row of a run that is going on belongs to a thread that has not ended.
-/

namespace Gonitor.Concurrent.RunHistory

open Gonitor.Model Gonitor.Server Gonitor.Controller Gonitor.Requests Gonitor.Task AtomicProgram SoftDelete

/-! ## Pages -/

/-- What a thread knows of the history. -/
structure Page where
  /-- The last task that has been looked up, and what it has been looked up under. -/
  asked : Option (Int × Task) := none
  /-- The last run that has ended, of the task it has been looked up for. -/
  seen : Option (Int × TaskLog) := none
  /-- The row that has been inserted for a run and not been saved yet. -/
  opened : Option Int := none

/-- The page with another row open. -/
def Page.withOpened (page : Page) (opened : Option Int) : Page := { page with opened := opened }

@[simp] theorem Page.withOpened_opened (page : Page) (opened : Option Int) :
    (page.withOpened opened).opened = opened := rfl

/-- The page after an operation. -/
def next (page : Page) : (o : Op) → o.Res → Page
  | .db (.findTask id), .ok row => { page with asked := some (id, row) }
  | .db (.lastEndedLog taskId), .ok row => { page with seen := some (taskId, row) }
  | .db (.createTaskLog row), .ok log => page.withOpened (if row.status then some log.id else none)
  | .db (.saveTaskLog _), _ => page.withOpened none
  | _, _ => page

/-- What has been read lets the task run. -/
def Page.Admits (page : Page) (task : Task) : Prop :=
  task.dependsOnTaskID ≠ 0 → ∃ dependencyTask lastTaskLog,
    page.asked = some (task.dependsOnTaskID, dependencyTask) ∧
      page.seen = some (dependencyTask.id, lastTaskLog) ∧ lastTaskLog.execResult = true

/-- Rows are opened one at a time, and saved as rows of a run that has ended; the history is not
    read while a row is open; commands are started for an open row, if the task may run. -/
def Allowed (page : Page) : Op → Prop
  | .db (.createTaskLog _) | .db (.lastEndedLog _) => page.opened = none
  | .db (.saveTaskLog row) => row.status = false ∧ page.opened = some row.id
  | .db (.createReportLog row) => row.status = false
  | .run (.startProcess task log _ _) => page.opened = some log ∧ page.Admits task
  | _ => True

/-- A thread ends with no row open. -/
def Final (page : Page) : Prop := page.opened = none

/-- The threads of the server, with pages. -/
def spawn (ext : Externals) (x : Start) (s : State) : Option (Thread Op Op.Res Reply Page) :=
  (Concurrent.spawn ext x s).map fun th => ⟨th.prog, {}⟩

/-- The server, with pages. -/
def history (ext : Externals) : System Op Op.Res Reply State Page Choice Start where
  exec := exec ext
  next := next
  spawn := spawn ext

abbrev HistoryPool := Pool Op Op.Res Reply State Page

theorem history_same (ext : Externals) : SameSystem (server ext) (history ext) where
  exec := rfl
  spawn x s := by
    simp only [history, server, spawn]
    cases Concurrent.spawn ext x s <;> rfl

/-! ## The code keeps its pages -/

section Pages

variable {ext : Externals} {page : Page} {α : Type}

/-- From this page on the program keeps to `Allowed`, and ends as `Q` says. -/
abbrev Keeps (p : Program α) (Q : α → Page → Prop) (page : Page) : Prop := Walk Allowed next p Q page

/-- A request that runs nothing opens no row. -/
theorem Keeps.of_neutral {p : Program α} (hp : p.Uses Neutral) (hpage : page.opened = none) :
    Keeps p (fun _ page' => page'.opened = none) page := by
  refine Walk.of_uses (I := fun page' : Page => page'.opened = none) hp ?_ hpage
  intro o page ho hpage
  have hsame : (∀ row, o ≠ .db (.createTaskLog row)) → ∀ r, (next page o r).opened = none := by
    intro hnot r
    unfold next
    split
    · exact hpage
    · exact hpage
    · exact absurd rfl (hnot _)
    · rfl
    · exact hpage
  have hnot : ∀ row, o ≠ .db (.createTaskLog row) := by
    rintro row rfl
    exact ho
  refine ⟨?_, hsame hnot⟩
  unfold Allowed
  split
  · exact ho.elim
  · exact hpage
  · exact ho.elim
  · exact ho
  · exact ho.elim
  · trivial

/-- The dependency, if there is one, is looked up, and so is its last run that has ended. -/
theorem validateTaskDependency_keeps (taskInfo : Task) (hpage : page.opened = none) :
    Keeps (validateTaskDependency taskInfo)
      (fun r page' => page'.opened = none ∧ (r = .ok () → page'.Admits taskInfo)) page := by
  unfold validateTaskDependency
  split
  · rename_i hzero
    exact Walk.pure ⟨hpage, fun _ hne => absurd hzero hne⟩
  · split
    · exact Walk.pure ⟨hpage, nofun⟩
    · refine Walk.call trivial fun r => ?_
      cases r with
      | error err => exact Walk.pure ⟨hpage, nofun⟩
      | ok dependencyTask =>
        refine Walk.call hpage fun r => ?_
        cases r with
        | error err => cases err <;> exact Walk.pure ⟨hpage, nofun⟩
        | ok lastTaskLog =>
          dsimp only
          split
          · rename_i hresult
            exact Walk.pure ⟨hpage, fun _ _ => ⟨dependencyTask, lastTaskLog, rfl, rfl, hresult⟩⟩
          · exact Walk.pure ⟨hpage, nofun⟩

/-- A gate that passes has opened the row of the run, which may go on. -/
theorem beforeRun_keeps (taskInfo : Task) (hpage : page.opened = none) :
    Keeps (beforeRun taskInfo) (fun r page' => match r with
      | .error _ => page'.opened = none
      | .ok ri => ri.taskInfo = taskInfo ∧ page'.opened = some ri.taskLogInfo.id ∧
          page'.Admits taskInfo) page := by
  refine (validateTaskDependency_keeps taskInfo hpage).bind ?_
  rintro r page' ⟨hnone, hadmits⟩
  cases r with
  | error err =>
    -- the row of a run that is skipped is inserted as one that has ended
    refine Walk.call trivial fun execTime => Walk.call hnone fun r => ?_
    cases r with
    | error err => exact Walk.pure hnone
    | ok log => exact Walk.pure rfl
  | ok _ =>
    refine Walk.call trivial fun execTime => Walk.call hnone fun r => ?_
    cases r with
    | error err => exact Walk.pure hnone
    | ok log => exact Walk.pure ⟨rfl, rfl, hadmits rfl⟩

/-- The run may start commands under its row. -/
def MayRun (ri : RunningInstance) (page : Page) : Prop :=
  page.opened = some ri.taskLogInfo.id ∧ page.Admits ri.taskInfo

/-- Both are of the same run. -/
structure SameInstance (ri ri' : RunningInstance) : Prop where
  taskInfo : ri'.taskInfo = ri.taskInfo
  log : ri'.taskLogInfo.id = ri.taskLogInfo.id

theorem MayRun.same {ri ri' : RunningInstance} (h : MayRun ri page) (hsame : SameInstance ri ri') :
    MayRun ri' page := by
  unfold MayRun
  rw [hsame.taskInfo, hsame.log]
  exact h

theorem checkAssert_keeps (ri : RunningInstance) (execStat : TaskExecStat) :
    Keeps (checkAssert ri execStat)
      (fun r page' => page' = page ∧ SameInstance ri r.1) page := by
  unfold checkAssert
  split
  · refine Walk.call trivial fun passed => ?_
    cases passed <;> exact Walk.pure ⟨rfl, rfl, rfl⟩
  · exact Walk.pure ⟨rfl, rfl, rfl⟩

/-- One attempt. -/
theorem run_keeps (ri : RunningInstance) (hmay : MayRun ri page) :
    Keeps (ri.run ext) (fun r page' => page' = page ∧ SameInstance ri r.1) page := by
  refine Walk.call hmay fun r => ?_
  cases r with
  | error err => exact Walk.pure ⟨rfl, rfl, rfl⟩
  | ok pid =>
    refine Walk.call trivial fun _ => Walk.call trivial fun _ => Walk.call trivial fun _ => ?_
    refine Walk.call trivial fun ended => ?_
    cases ended with
    | timedOut => exact Walk.pure ⟨rfl, rfl, rfl⟩
    | failed err stderr => exact Walk.pure ⟨rfl, rfl, rfl⟩
    | exited stdout =>
      refine (checkAssert_keeps (ri.launched pid) _).mono ?_
      rintro r page' ⟨rfl, hsame⟩
      exact ⟨rfl, hsame.taskInfo, hsame.log⟩

theorem retryLoop_keeps (taskInfo : Task) (fuel : Nat) (ri : RunningInstance) (i : Int8)
    (hmay : MayRun ri page) :
    Keeps (retryLoop ext taskInfo fuel ri i)
      (fun ri' page' => page' = page ∧ SameInstance ri ri') page := by
  induction fuel generalizing ri i with
  | zero => exact Walk.pure ⟨rfl, rfl, rfl⟩
  | succ fuel ih =>
    rw [retryLoop]
    split
    · refine (run_keeps ri hmay).bind ?_
      rintro ⟨ri', err⟩ _ ⟨rfl, hsame⟩
      cases err with
      | none => exact Walk.pure ⟨rfl, hsame⟩
      | some err =>
        refine Walk.call trivial fun _ => ?_
        refine (ih ri' (i + 1) (hmay.same hsame)).mono ?_
        rintro ri'' _ ⟨rfl, hsame'⟩
        exact ⟨rfl, hsame'.taskInfo.trans hsame.taskInfo, hsame'.log.trans hsame.log⟩
    · exact Walk.pure ⟨rfl, rfl, rfl⟩

/-- The row is saved as one of a run that has ended. -/
theorem finalLog_ended (ri : RunningInstance) (time : Time) :
    (finalLog ri time).status = false ∧ (finalLog ri time).id = ri.taskLogInfo.id := by
  unfold finalLog
  split <;> exact ⟨rfl, rfl⟩

theorem afterRun_keeps (ri : RunningInstance) (hpage : page.opened = some ri.taskLogInfo.id) :
    Keeps (afterRun ri) (fun _ page' => page'.opened = none) page := by
  refine Walk.call trivial fun time => ?_
  obtain ⟨hstatus, hid⟩ := finalLog_ended ri time
  refine Walk.call ⟨hstatus, hid ▸ hpage⟩ fun saved => ?_
  split
  · refine Walk.call trivial fun finished => ?_
    cases finished <;> exact Walk.pure rfl
  · exact Walk.pure rfl

theorem removeRunning_keeps (ri : RunningInstance) (hpage : page.opened = none) :
    Keeps (removeRunning ri) (fun _ page' => page'.opened = none) page := by
  refine Walk.call trivial fun registered => ?_
  match registered with
  | none | some false => exact Walk.pure hpage
  | some true =>
    refine Walk.call trivial fun removed => ?_
    cases removed <;> exact Walk.pure hpage

/-- `ExecJobWrapper.Run` -/
theorem runJob_keeps (taskInfo : Task) (hpage : page.opened = none) :
    Keeps (runJob ext taskInfo) (fun _ page' => page'.opened = none) page := by
  refine Walk.call trivial fun _ => ?_
  refine (beforeRun_keeps taskInfo hpage).bind ?_
  intro r page₁ h₁
  cases r with
  | error err => exact Walk.pure h₁
  | ok ri =>
    obtain ⟨rfl, hopened, hadmits⟩ := h₁
    refine (retryLoop_keeps ri.taskInfo _ ri 0 ⟨hopened, hadmits⟩).bind ?_
    rintro ri' _ ⟨rfl, hsame⟩
    refine (afterRun_keeps ri' (hsame.log ▸ hopened)).bind ?_
    intro r page₂ h₂
    cases r with
    | error panic => exact Walk.pure h₂
    | ok _ => exact removeRunning_keeps ri' h₂

theorem runWrapped_keeps (e : EntryID) (job : WrappedJob) (hpage : page.opened = none) :
    Keeps (runWrapped ext e job) (fun _ page' => page'.opened = none) page := by
  have hrelease : ∀ result page', page'.opened = none →
      Keeps (releaseOrCrash e result) (fun _ page' => page'.opened = none) page' := by
    intro result page' h
    cases result <;> exact Walk.call (f := fun _ => pure ()) trivial fun _ => Walk.pure h
  unfold runWrapped
  split
  · exact (runJob_keeps job.taskInfo hpage).bind fun _ page' h => Walk.pure h
  · refine Walk.call trivial fun acquired => ?_
    cases acquired with
    | false => exact Walk.pure hpage
    | true => exact (runJob_keeps job.taskInfo hpage).bind hrelease
  · refine Walk.call trivial fun _ => ?_
    exact (runJob_keeps job.taskInfo hpage).bind hrelease

/-- `Manager.StartOnceTask` -/
theorem managerStartOnceTask_keeps (taskId : Int) (hpage : page.opened = none) :
    Keeps (Gonitor.Task.startOnceTask ext taskId) (fun _ page' => page'.opened = none) page := by
  refine Walk.call trivial fun r => ?_
  cases r with
  | error err => exact Walk.pure hpage
  | ok task =>
    have hasked : (next page (.db (.findTask taskId)) (.ok task)).opened = none := hpage
    refine Walk.call trivial fun _ => (beforeRun_keeps task hasked).bind ?_
    intro r page₁ h₁
    cases r with
    | error err => exact Walk.pure h₁
    | ok ri =>
      obtain ⟨rfl, hopened, hadmits⟩ := h₁
      refine (run_keeps ri ⟨hopened, hadmits⟩).bind ?_
      rintro ⟨ri', err⟩ _ ⟨rfl, hsame⟩
      refine (afterRun_keeps ri' (hsame.log ▸ hopened)).bind ?_
      intro r page₂ h₂
      cases r <;> exact Walk.pure h₂

theorem startOnceTask_keeps (caller : Caller) (taskId : Int) (hpage : page.opened = none) :
    Keeps (Controller.startOnceTask ext caller taskId) (fun _ page' => page'.opened = none) page := by
  refine Walk.call trivial fun r => ?_
  cases r with
  | error err => exact Walk.pure hpage
  | ok taskModel =>
    have hasked : (next page (.db (.findTask taskId)) (.ok taskModel)).opened = none := hpage
    refine (managerStartOnceTask_keeps taskId hasked).bind ?_
    intro r page₁ h₁
    match r with
    | .panicked => exact Walk.pure h₁
    | .returned output (some err) => exact Walk.pure h₁
    | .returned output none => exact Keeps.of_neutral (neutral_of_usesBystander (logged_bystander _ _ _ _)) h₁

/-- Every thread of the server keeps its page. -/
theorem spawn_keeps (x : Start) (s : State) (th : Thread Op Op.Res Reply Page)
    (h : spawn ext x s = some th) : (history ext).Follows Allowed Final th.prog th.loc := by
  obtain ⟨th₀, hspawn, rfl⟩ := Option.map_eq_some_iff.mp h
  rcases spawn_cases hspawn with ⟨caller, req, -, himport, rfl⟩ | ⟨-, rfl⟩ | ⟨e, entry, -, -, -, rfl⟩
  · by_cases hrun : ∃ taskId, req = .startOnceTask taskId
    · obtain ⟨taskId, rfl⟩ := hrun
      exact startOnceTask_keeps caller taskId rfl
    · have hne : ∀ taskId, req ≠ .startOnceTask taskId := fun taskId heq => hrun ⟨taskId, heq⟩
      exact Keeps.of_neutral (handle_neutral caller req hne himport) rfl
  · exact Keeps.of_neutral (neutral_of_usesBystander stopThread_bystander) rfl
  · refine (runWrapped_keeps entry.id entry.job rfl).bind ?_
    intro _ page h
    exact Walk.pure h

end Pages

/-! ## The pages are true -/

section Soundness

variable {ext : Externals} {page : Page} {t t' : Table TaskLog} {now : Time} {row : TaskLog}

/-- What the page says of the history is true. -/
structure Page.Sound (page : Page) (t : Table TaskLog) : Prop where
  opened : ∀ l, page.opened = some l → ∃ row ∈ t.rows, row.id = l ∧ row.status = true ∧ live row = true
  asked : ∀ id task, page.asked = some (id, task) → task.id = id
  seen : ∀ taskId row, page.seen = some (taskId, row) →
    row ∈ t.rows ∧ row.taskId = taskId ∧ row.status = false
  earlier : ∀ taskId row l, page.seen = some (taskId, row) → page.opened = some l → row.id < l

/-- An empty page says nothing. -/
theorem Page.Sound.empty : Page.Sound {} t where
  opened _ hl := by cases hl
  asked _ _ hasked := by cases hasked
  seen _ _ hseen := by cases hseen
  earlier _ _ _ hseen := by cases hseen

/-- A table that keeps the rows of ended runs and the open row keeps the page true. -/
theorem Page.Sound.mono (h : page.Sound t)
    (hkept : ∀ row ∈ t.rows, row.status = false ∨ page.opened = some row.id → row ∈ t'.rows) :
    page.Sound t' where
  opened _ hl := by
    obtain ⟨row, hrow, rfl, hrest⟩ := h.opened _ hl
    exact ⟨row, hkept row hrow (.inr hl), rfl, hrest⟩
  asked := h.asked
  seen taskId row hseen := by
    obtain ⟨hrow, htask, hended⟩ := h.seen taskId row hseen
    exact ⟨hkept row hrow (.inl hended), htask, hended⟩
  earlier := h.earlier

/-- Nothing is said of an open row any more. -/
theorem Page.Sound.close (h : page.Sound t) : (page.withOpened none).Sound t where
  opened _ hl := by cases hl
  asked := h.asked
  seen := h.seen
  earlier _ _ _ _ hl := by cases hl

/-- The row of a new run comes after all that has been read. -/
theorem Page.Sound.create (h : page.Sound t) (hstatus : row.status = true) :
    (page.withOpened (some t.nextId)).Sound (t.create row now) where
  opened _ hl := by
    cases hl
    exact ⟨_, Table.mem_create.mpr (.inr rfl), rfl, hstatus, Table.live_inserted t row now⟩
  asked := h.asked
  seen taskId row hseen := by
    obtain ⟨hrow, hrest⟩ := h.seen taskId row hseen
    exact ⟨Table.mem_create.mpr (.inl hrow), hrest⟩
  earlier taskId row l hseen hl := by
    cases hl
    exact t.ids_lt row (h.seen taskId row hseen).1

/-- A row that has ended, or is not the open one, has another key than the open one. -/
theorem Page.Sound.ne_opened (h : page.Sound t) {l : Int} (hl : page.opened = some l)
    (hrow : row ∈ t.rows) (hother : row.status = false ∨ page.opened ≠ some row.id) : row.id ≠ l := by
  rintro rfl
  rcases hother with hended | hne
  · obtain ⟨row', hrow', hid, hstatus, -⟩ := h.opened _ hl
    rw [Table.eq_of_rowId_eq hrow' hrow hid, hended] at hstatus
    cases hstatus
  · exact hne hl

/-! ### One operation -/

section Steps

variable {c : Choice} {s s' : State} {o : Op} {r : o.Res}

/-- What an operation does to the history and to the page of its thread; `lost` says that the open
    row could not be saved. -/
structure Turn (lost : Prop) (page page' : Page) (t t' : Table TaskLog) : Prop where
  sound : page'.Sound t'
  /-- Other rows than the open one stay, and so does a row that has ended. -/
  kept : ∀ row ∈ t.rows, row.status = false ∨ page.opened ≠ some row.id → row ∈ t'.rows
  /-- A row that is opened is new. -/
  fresh : ∀ l, page'.opened = some l → page.opened = some l ∨ t.nextId ≤ l
  /-- A row of a run that is going on is open, or was there and is not the open one. -/
  left : ∀ row ∈ t'.rows, row.status = true →
    page'.opened = some row.id ∨ (row ∈ t.rows ∧ (page.opened = some row.id → lost))

variable {lost : Prop}

/-- An operation that leaves the history alone, and the open row. -/
theorem Turn.still {page' : Page} (hsound : page'.Sound t) (hopened : page'.opened = page.opened) :
    Turn lost page page' t t where
  sound := hsound
  kept _ hrow _ := hrow
  fresh _ hl := .inl (hopened ▸ hl)
  left row hrow _ := by
    rw [hopened]
    by_cases heq : page.opened = some row.id
    · exact .inl heq
    · exact .inr ⟨hrow, fun h => absurd h heq⟩

theorem Turn.refl (h : page.Sound t) : Turn lost page page t t := .still h rfl

theorem turn_createTaskLog (h : page.Sound t) (hnone : page.opened = none)
    {d : Database} (hd : d.taskLog = t) {r : Except DbError TaskLog} {d' : Database}
    (hexec : DbOp.exec c now d (.createTaskLog row) = (r, d')) :
    Turn lost page (next page (.db (.createTaskLog row)) r) t d'.taskLog := by
  subst hd
  simp only [DbOp.exec, statement] at hexec
  split at hexec
  · cases hexec
    exact .refl h
  · cases hexec
    have hkept : ∀ x ∈ d.taskLog.rows, x ∈ (d.taskLog.create row now).rows := fun x hx =>
      Table.mem_create.mpr (.inl hx)
    have hleft : ∀ x ∈ d.taskLog.rows, x ∈ d.taskLog.rows ∧ (page.opened = some x.id → lost) := by
      rw [hnone]
      exact fun x hx => ⟨hx, by simp⟩
    cases hstatus : row.status with
    | false =>
      have hnext : next page (.db (.createTaskLog row)) (.ok (d.taskLog.inserted row now)) =
          page.withOpened none := by simp [next, hstatus]
      rw [hnext]
      refine ⟨(h.mono fun x hx _ => hkept x hx).close, fun x hx _ => hkept x hx, ?_, ?_⟩
      · rintro l ⟨⟩
      intro x hx hx'
      rcases Table.mem_create.mp hx with hold | rfl
      · exact .inr (hleft x hold)
      · cases hx'.symm.trans hstatus
    | true =>
      have hnext : next page (.db (.createTaskLog row)) (.ok (d.taskLog.inserted row now)) =
          page.withOpened (some d.taskLog.nextId) := by
        simp only [next, hstatus, if_true]
        rfl
      rw [hnext]
      refine ⟨h.create hstatus, fun x hx _ => hkept x hx, ?_, ?_⟩
      · rintro l ⟨⟩
        exact .inr (Int.le_refl _)
      · intro x hx _
        rcases Table.mem_create.mp hx with hold | rfl
        · exact .inr (hleft x hold)
        · exact .inl rfl

theorem turn_createReportLog (h : page.Sound t) (hstatus : row.status = false) {d : Database}
    (hd : d.taskLog = t) {r : Except DbError TaskLog} {d' : Database}
    (hexec : DbOp.exec c now d (.createReportLog row) = (r, d')) :
    Turn lost page page t d'.taskLog := by
  subst hd
  simp only [DbOp.exec, statement] at hexec
  split at hexec
  · cases hexec
    exact .refl h
  · cases hexec
    have hkept : ∀ x ∈ d.taskLog.rows, x ∈ (d.taskLog.create row now).rows := fun x hx =>
      Table.mem_create.mpr (.inl hx)
    refine ⟨h.mono fun x hx _ => hkept x hx, fun x hx _ => hkept x hx, fun l hl => .inl hl, ?_⟩
    intro x hx hx'
    rcases Table.mem_create.mp hx with hold | rfl
    · exact (Turn.refl h : Turn lost page page d.taskLog d.taskLog).left x hold hx'
    · cases hx'.symm.trans hstatus

/-- The open row can be saved. -/
theorem Page.Sound.save_isSome (h : page.Sound t) (hopened : page.opened = some row.id) :
    (t.save row now).isSome = true := by
  obtain ⟨row', hrow', hid, -, hlive⟩ := h.opened _ hopened
  have hbyId : t.byId (rowId row) = some row' :=
    Table.byId_eq_some.mpr ⟨(congrArg t.row? hid).symm.trans (Table.row?_of_mem hrow'), hlive⟩
  simp [Table.save, hbyId]

theorem turn_saveTaskLog (h : page.Sound t) (hstatus : row.status = false)
    (hopened : page.opened = some row.id) (hlost : c.fail = true → lost)
    {d : Database} (hd : d.taskLog = t) {r : Except DbError Unit} {d' : Database}
    (hexec : DbOp.exec c now d (.saveTaskLog row) = (r, d')) :
    Turn lost page (next page (.db (.saveTaskLog row)) r) t d'.taskLog := by
  subst hd
  simp only [DbOp.exec, statement] at hexec
  split at hexec
  · rename_i hfail
    cases hexec
    refine ⟨h.close, fun _ hx _ => hx, ?_, fun x hx _ => .inr ⟨hx, fun _ => hlost hfail⟩⟩
    rintro l ⟨⟩
  · cases hsave : d.taskLog.save row now with
    | none =>
      have hsome : (d.taskLog.save row now).isSome = true := h.save_isSome hopened
      simp [hsave] at hsome
    | some saved =>
      rw [hsave] at hexec
      cases hexec
      have hkept : ∀ x ∈ d.taskLog.rows, x.status = false ∨ page.opened ≠ some x.id → x ∈ saved.rows :=
        fun x hx hother => Table.mem_save_of_ne hsave hx (h.ne_opened hopened hx hother)
      refine ⟨Page.Sound.mono h.close ?_, hkept, ?_, ?_⟩
      · rintro x hx (hended | hx')
        · exact hkept x hx (.inl hended)
        · cases hx'
      · rintro l ⟨⟩
      · intro x hx hx'
        rcases Table.mem_of_save hsave hx with rfl | ⟨hold, hne⟩
        · cases hx'.symm.trans hstatus
        · refine .inr ⟨hold, fun heq => absurd ?_ hne⟩
          exact (Option.some.inj (hopened.symm.trans heq)).symm

/-- The operation saves the row of a run, and fails. -/
def LosesRow (c : Choice) : Op → Prop
  | .db (.saveTaskLog _) => c.fail = true
  | _ => False

/-- **What an allowed operation does** to the history, and to the page of its thread. -/
theorem turn_of_exec (h : page.Sound s.db.taskLog) (hallowed : Allowed page o)
    (hexec : exec ext o c s = some (r, s')) :
    Turn (LosesRow c o) page (next page o r) s.db.taskLog s'.db.taskLog := by
  cases o with
  | db o =>
    obtain ⟨-, rfl, rfl⟩ := exec_db hexec
    cases o with
    | createTaskLog row => exact turn_createTaskLog h hallowed rfl rfl
    | saveTaskLog row => exact turn_saveTaskLog h hallowed.1 hallowed.2 id rfl rfl
    | createReportLog row => exact turn_createReportLog h hallowed rfl rfl
    | findTask id =>
      cases hr : (DbOp.exec c (s.clock + c.elapsed) s.db (.findTask id)).1 with
      | error err => exact .refl h
      | ok task =>
        refine .still ⟨h.opened, ?_, h.seen, h.earlier⟩ rfl
        rintro id' task' ⟨⟩
        simp only [DbOp.exec, query] at hr
        split at hr
        · cases hr
        · cases hfind : s.db.task.byId id with
          | none =>
            rw [hfind] at hr
            cases hr
          | some found =>
            rw [hfind] at hr
            cases hr
            exact (Table.mem_of_byId hfind).2.1
    | lastEndedLog taskId =>
      cases hr : (DbOp.exec c (s.clock + c.elapsed) s.db (.lastEndedLog taskId)).1 with
      | error err => exact .refl h
      | ok row =>
        have hnone : page.opened = none := hallowed
        refine .still ⟨h.opened, h.asked, ?_, fun _ _ l _ hl => ?_⟩ rfl
        · rintro taskId' row' ⟨⟩
          simp only [DbOp.exec, query] at hr
          split at hr
          · cases hr
          · cases hlast : endedLogOf s.db.taskLog taskId with
            | none =>
              rw [hlast] at hr
              cases hr
            | some found =>
              rw [hlast] at hr
              cases hr
              have hmem : row ∈ s.db.taskLog.rows.filter
                  (fun l => live l && (l.taskId == taskId && !l.status)) := List.mem_of_getLast? hlast
              simp only [List.mem_filter, Bool.and_eq_true, beq_iff_eq, Bool.not_eq_true'] at hmem
              exact ⟨hmem.1, hmem.2.2.1, hmem.2.2.2⟩
        · have hl' : page.opened = some l := hl
          rw [hnone] at hl'
          cases hl'
    | _ =>
      refine (congrArg (Turn _ page page s.db.taskLog) (taskLog_other _ ?_ _ s.db)).mpr (.refl h)
      intro row
      refine ⟨?_, ?_, ?_⟩ <;> rintro ⟨⟩
  | sched o =>
    obtain ⟨-, -, rfl⟩ := exec_sched hexec
    exact .refl h
  | run o =>
    obtain ⟨-, d, os, -, rfl⟩ := exec_run hexec
    exact .refl h
  | world o =>
    obtain ⟨-, -, rfl⟩ := exec_world hexec
    exact .refl h

end Steps

end Soundness

/-! ## A pool to start from -/

/-- A task that is run on request only. -/
def disabledTask : Task := { oneTask with isDisable := true }

/-- Two such tasks; the second one depends on the first one. -/
def dependentDatabase : Database :=
  { emptyDatabase with
    task := (Table.empty.create disabledTask 0).create { disabledTask with dependsOnTaskID := 1 } 0 }

def dependentPool : ServerPool := ⟨State.boot dependentDatabase 0, fun _ => none⟩

theorem dependentPool_initial : Initial plainExternals dependentPool :=
  ⟨⟨dependentDatabase, 0, .op ⟨{}, trivial, rfl⟩ (.pure _ _)⟩, fun _ => rfl⟩

/-- The first task is run to its end. -/
def firstRun : List (Label Choice Start) :=
  .spawn 0 (.request ⟨0, ""⟩ (.startOnceTask 1)) :: List.replicate 13 (.op 0 { pid := 7 })

/-- Then the second task is run, up to its command. -/
def secondRun : List (Label Choice Start) :=
  .spawn 1 (.request ⟨0, ""⟩ (.startOnceTask 2)) :: List.replicate 7 (.op 1 { pid := 8 })

/-! ## In every pool -/

section Pools

variable {ext : Externals} {q q' : HistoryPool} {tid : Nat} {page : Page} {c : Choice} {o : Op}
  {k : o.Res → Program Reply} {r : o.Res} {s' : State}

/-- All pages are true, and no row is open in two of them. -/
structure Kept (q : HistoryPool) : Prop where
  sound : ∀ tid th, q.threads tid = some th → th.loc.Sound q.shared.db.taskLog
  apart : ∀ i j th th' l, q.threads i = some th → q.threads j = some th' →
    th.loc.opened = some l → th'.loc.opened = some l → i = j

/-- A thread starts on an empty page. -/
theorem Kept.spawn (h : Kept q) {th : Thread Op Op.Res Reply Page} (hth : th.loc = {}) :
    Kept ⟨q.shared, Function.update q.threads tid (some th)⟩ where
  sound i th' hth' := by
    rcases update_eq_some hth' with ⟨-, hnew⟩ | ⟨-, hold⟩
    · cases hnew
      rw [hth]
      exact .empty
    · exact h.sound i th' hold
  apart i j th₁ th₂ l hi hj hl₁ hl₂ := by
    have hempty : ∀ l, th.loc.opened ≠ some l := by simp [hth]
    rcases update_eq_some hi with ⟨-, hnew⟩ | ⟨-, hi⟩
    · cases hnew
      exact absurd hl₁ (hempty l)
    · rcases update_eq_some hj with ⟨-, hnew⟩ | ⟨-, hj⟩
      · cases hnew
        exact absurd hl₂ (hempty l)
      · exact h.apart i j th₁ th₂ l hi hj hl₁ hl₂

/-- A row that another thread has opened is not the open one. -/
theorem Kept.ne_opened (h : Kept q) (hth : q.threads tid = some ⟨.op o k, page⟩) {j : Nat}
    (hne : j ≠ tid) {th : Thread Op Op.Res Reply Page} (hj : q.threads j = some th) {l : Int}
    (hl : th.loc.opened = some l) : page.opened ≠ some l := fun hopened =>
  hne (h.apart j tid th _ l hj hth hl hopened)

/-- A row that another thread has opened is not new. -/
theorem Kept.opened_lt (h : Kept q) {th : Thread Op Op.Res Reply Page} (hth : q.threads tid = some th)
    {l : Int} (hl : th.loc.opened = some l) : l < q.shared.db.taskLog.nextId := by
  obtain ⟨row, hrow, rfl, -⟩ := (h.sound tid th hth).opened l hl
  exact q.shared.db.taskLog.ids_lt row hrow

/-- **One operation** of one thread keeps all pages true. -/
theorem Kept.op (h : Kept q) (hth : q.threads tid = some ⟨.op o k, page⟩)
    (hallowed : Allowed page o) (hexec : exec ext o c q.shared = some (r, s')) :
    Kept ⟨s', Function.update q.threads tid (some ⟨k r, next page o r⟩)⟩ := by
  have hturn := turn_of_exec (h.sound tid _ hth) hallowed hexec
  -- a row that the thread has opened is open nowhere else
  have hother : ∀ j th l, j ≠ tid → q.threads j = some th → th.loc.opened = some l →
      (next page o r).opened ≠ some l := by
    intro j th l hne hj hl hl'
    rcases hturn.fresh l hl' with hold | hnew
    · exact h.ne_opened hth hne hj hl hold
    · exact absurd (h.opened_lt hj hl) (Int.not_lt.mpr hnew)
  refine ⟨fun i th' hi => ?_, fun i j th₁ th₂ l hi hj hl₁ hl₂ => ?_⟩
  · rcases update_eq_some hi with ⟨-, hnew⟩ | ⟨hne, hold⟩
    · cases hnew
      exact hturn.sound
    · refine (h.sound i th' hold).mono fun row hrow hrow' => hturn.kept row hrow ?_
      exact hrow'.imp_right (h.ne_opened hth hne hold)
  · rcases update_eq_some hi with ⟨rfl, hnew⟩ | ⟨hi', hi⟩
    · cases hnew
      rcases update_eq_some hj with ⟨rfl, -⟩ | ⟨hj', hj⟩
      · rfl
      · exact absurd hl₁ (hother j th₂ l hj' hj hl₂)
    · rcases update_eq_some hj with ⟨-, hnew⟩ | ⟨-, hj⟩
      · cases hnew
        exact absurd hl₂ (hother i th₁ l hi' hi hl₁)
      · exact h.apart i j th₁ th₂ l hi hj hl₁ hl₂

theorem loc_of_spawn {x : Start} {s : State} {th : Thread Op Op.Res Reply Page}
    (h : RunHistory.spawn ext x s = some th) : th.loc = {} := by
  obtain ⟨th₀, -, rfl⟩ := Option.map_eq_some_iff.mp h
  rfl

/-- **Pages stay true** in every run. -/
theorem Kept.reach {K : Label Choice Start → HistoryPool → Prop}
    (hd : (history ext).Disciplined Allowed Final q) (hq : Kept q)
    (hreach : (history ext).Reach K q q') :
    (history ext).Disciplined Allowed Final q' ∧ Kept q' := by
  refine System.invariant (I := Kept) spawn_keeps ?_ ?_ hd hq hreach
  · intro p tid x th _ hp _ _ hspawn
    exact hp.spawn (loc_of_spawn hspawn)
  · intro p tid c o k page r s' _ hp _ hth hallowed hexec
    exact hp.op hth hallowed hexec

/-- The pool with pages, before any thread has started. -/
def blank (s : State) : HistoryPool := ⟨s, fun _ => none⟩

theorem blank_kept (s : State) :
    (history ext).Disciplined Allowed Final (blank s) ∧ Kept (blank s) := by
  refine ⟨?_, ?_, ?_⟩
  · intro tid th hth
    cases hth
  · intro tid th hth
    cases hth
  · intro i j th th' l hi
    cases hi

theorem blank_same {p₀ : ServerPool} (h₀ : Initial ext p₀) :
    SamePrograms p₀ (blank p₀.shared) := by
  refine ⟨rfl, fun tid => ?_⟩
  rw [h₀.2 tid]
  rfl

/-- Every pool that the server reaches has pages, and they are true. -/
theorem pages_of_reached {p : ServerPool} (h : Reached ext p) : ∃ q : HistoryPool,
    SamePrograms p q ∧ (history ext).Disciplined Allowed Final q ∧ Kept q := by
  obtain ⟨p₀, h₀, hreach⟩ := h
  obtain ⟨q, hreach', hq⟩ : ∃ q, (history ext).Reach (fun _ _ => True) (blank p₀.shared) q ∧
      SamePrograms p q :=
    (blank_same h₀).reach (history_same ext) (fun _ _ _ _ _ => trivial) hreach
  obtain ⟨hd, hkept⟩ : (history ext).Disciplined Allowed Final (blank p₀.shared) ∧
      Kept (blank p₀.shared) := blank_kept p₀.shared
  exact ⟨q, hq, Kept.reach hd hkept hreach'⟩

/-- One step keeps what is recorded of runs that have ended. -/
theorem ended_of_step (hd : (history ext).Disciplined Allowed Final q) (hq : Kept q)
    {l : Label Choice Start} (hstep : (history ext).step l q = some q') {row : TaskLog}
    (hrow : row ∈ q.shared.db.taskLog.rows) (hended : row.status = false) :
    row ∈ q'.shared.db.taskLog.rows := by
  rcases System.step_cases hstep with ⟨tid, x, th, -, -, -, rfl⟩ |
    ⟨tid, c, o, k, page, r, s', -, hth, hexec, rfl⟩
  · exact hrow
  · have hallowed := (System.Follows.op_iff.mp (hd tid _ hth)).1
    exact (turn_of_exec (hq.sound tid _ hth) hallowed hexec).kept row hrow (.inl hended)

/-- **What is recorded of a run that has ended never changes**, whatever else the server does. -/
theorem ended_rows_final {p p' : ServerPool} (h : Reached ext p)
    (hreach : (server ext).Reach (fun _ _ => True) p p') :
    ∀ row ∈ p.shared.db.taskLog.rows, row.status = false → row ∈ p'.shared.db.taskLog.rows := by
  intro row hrow hended
  obtain ⟨q, hsame, hd, hq⟩ := pages_of_reached h
  obtain ⟨q', hreach', hsame'⟩ : ∃ q', (history ext).Reach (fun _ _ => True) q q' ∧
      SamePrograms p' q' := hsame.reach (history_same ext) (fun _ _ _ _ _ => trivial) hreach
  rw [← hsame'.shared]
  rw [← hsame.shared] at hrow
  have hinv := hreach'.keeps (I := fun q => (history ext).Disciplined Allowed Final q ∧ Kept q ∧
    row ∈ q.shared.db.taskLog.rows) ?_ ⟨hd, hq, hrow⟩
  · exact hinv.2.2
  · rintro l q₁ q₂ - ⟨hd, hq, hrow⟩ hstep
    obtain ⟨hd', hq'⟩ := Kept.reach hd hq (.single ⟨l, trivial, hstep⟩ :
      (history ext).Reach (fun _ _ => True) q₁ q₂)
    exact ⟨hd', hq', ended_of_step hd hq hstep hrow hended⟩

/-- The row of the first run is still there while the second one is going on. -/
theorem ended_rows_final_two : ∃ p p', (server plainExternals).run secondRun p = some p' ∧
    (∃ row ∈ p.shared.db.taskLog.rows, row.status = false) ∧
    ∀ row ∈ p.shared.db.taskLog.rows, row.status = false → row ∈ p'.shared.db.taskLog.rows := by
  have hrun : ∃ p p', (server plainExternals).run firstRun dependentPool = some p ∧
      (server plainExternals).run secondRun p = some p' ∧
      ∃ row ∈ p.shared.db.taskLog.rows, row.status = false :=
    ⟨_, _, rfl, rfl, _, List.mem_singleton_self _, rfl⟩
  obtain ⟨p, p', hp, hp', hrow⟩ := hrun
  exact ⟨p, p', hp', hrow, ended_rows_final ⟨_, dependentPool_initial, System.reach_of_run hp⟩
    (System.reach_of_run hp')⟩

/-- **A task that depends on another one is started after a success of that one**: whenever a thread is
    about to start a command for it, the history has an open row for the run, and an earlier one of a
    run of the other task that has ended well. -/
theorem dependent_start_justified {p : ServerPool} (h : Reached ext p) {task : Task} {log : Int}
    {command : String} {args : List String}
    (hat : AtOp p tid (.run (.startProcess task log command args)))
    (hdepends : task.dependsOnTaskID ≠ 0) :
    (∃ row ∈ p.shared.db.taskLog.rows, row.id = log ∧ row.status = true) ∧
    ∃ row ∈ p.shared.db.taskLog.rows, row.taskId = task.dependsOnTaskID ∧ row.status = false ∧
      row.execResult = true ∧ row.id < log := by
  obtain ⟨k, ℓ, hth⟩ := hat
  obtain ⟨q, hsame, hd, hq⟩ := pages_of_reached h
  obtain ⟨page, hth'⟩ := hsame.thread hth
  have hsound := hq.sound tid _ hth'
  obtain ⟨hopened, hadmits⟩ := (System.Follows.op_iff.mp (hd tid _ hth')).1
  obtain ⟨dependencyTask, lastTaskLog, hasked, hseen, hresult⟩ := hadmits hdepends
  obtain ⟨row, hrow, hid, hstatus, -⟩ := hsound.opened log hopened
  obtain ⟨hlast, htask, hended⟩ := hsound.seen _ _ hseen
  rw [← hsame.shared]
  refine ⟨⟨row, hrow, hid, hstatus⟩, lastTaskLog, hlast, ?_, hended, hresult, ?_⟩
  · rw [htask, hsound.asked _ _ hasked]
  · exact hsound.earlier _ _ _ hseen hopened

/-- The second task depends on the first one, and is started after it. -/
theorem dependent_start_justified_two : ∃ p task command args,
    AtOp p 1 (.run (.startProcess task 2 command args)) ∧ task.dependsOnTaskID = 1 ∧
    ∃ row ∈ p.shared.db.taskLog.rows, row.taskId = 1 ∧ row.execResult = true ∧ row.id < 2 := by
  have hrun : ∃ p task command args,
      (server plainExternals).run (firstRun ++ secondRun) dependentPool = some p ∧
      AtOp p 1 (.run (.startProcess task 2 command args)) ∧ task.dependsOnTaskID = 1 :=
    ⟨_, _, _, _, rfl, ⟨_, _, rfl⟩, rfl⟩
  obtain ⟨p, task, command, args, hp, hat, hdepends⟩ := hrun
  obtain ⟨-, row, hrow, htask, -, hresult, hlt⟩ := dependent_start_justified
    ⟨_, dependentPool_initial, System.reach_of_run hp⟩ hat (by rw [hdepends]; decide)
  exact ⟨p, task, command, args, hat, hdepends, row, hrow, htask.trans hdepends, hresult, hlt⟩

/-! ## Open rows -/

/-- No statement that saves the row of a run fails. -/
def SavesSucceed {L : Type} : Label Choice Start → Pool Op Op.Res Reply State L → Prop
  | .spawn _ _, _ => True
  | .op tid c, p => ∀ row k ℓ, p.threads tid = some ⟨.op (.db (.saveTaskLog row)) k, ℓ⟩ →
    c.fail = false

/-- Every row of a run that is going on is open, or was there at the start. -/
def Owned (t₀ : Table TaskLog) (q : HistoryPool) : Prop :=
  ∀ row ∈ q.shared.db.taskLog.rows, row.status = true →
    row ∈ t₀.rows ∨ ∃ tid th, q.threads tid = some th ∧ th.loc.opened = some row.id

theorem Owned.op {t₀ : Table TaskLog} (h : Owned t₀ q) (hq : Kept q)
    (hth : q.threads tid = some ⟨.op o k, page⟩) (hallowed : Allowed page o)
    (hsaves : SavesSucceed (.op tid c : Label Choice Start) q)
    (hexec : exec ext o c q.shared = some (r, s')) :
    Owned t₀ ⟨s', Function.update q.threads tid (some ⟨k r, next page o r⟩)⟩ := by
  intro row hrow hstatus
  rcases (turn_of_exec (hq.sound tid _ hth) hallowed hexec).left row hrow hstatus with
    hopened | ⟨hold, hlost⟩
  · exact .inr ⟨tid, _, Function.update_self .., hopened⟩
  · -- the row was open before, in another thread
    rcases h row hold hstatus with h₀ | ⟨j, th, hj, hopened⟩
    · exact .inl h₀
    · have hne : j ≠ tid := by
        rintro rfl
        rw [hth] at hj
        cases hj
        have hlost := hlost hopened
        unfold LosesRow at hlost
        split at hlost
        · exact absurd (hlost.symm.trans (hsaves _ k _ hth)) nofun
        · exact hlost
      exact .inr ⟨j, th, (Function.update_of_ne hne _ _).trans hj, hopened⟩

theorem Owned.spawn {t₀ : Table TaskLog} (h : Owned t₀ q) (hnone : q.threads tid = none)
    (th : Thread Op Op.Res Reply Page) :
    Owned t₀ ⟨q.shared, Function.update q.threads tid (some th)⟩ := by
  intro row hrow hstatus
  rcases h row hrow hstatus with h₀ | ⟨j, th', hj, hopened⟩
  · exact .inl h₀
  · have hne : j ≠ tid := by
      rintro rfl
      rw [hnone] at hj
      cases hj
    exact .inr ⟨j, th', (Function.update_of_ne hne _ _).trans hj, hopened⟩

theorem SavesSucceed.same {p : ServerPool} (hsame : SamePrograms p q) {l : Label Choice Start}
    (h : SavesSucceed l p) : SavesSucceed l q := by
  cases l with
  | spawn tid x => trivial
  | op tid c =>
    intro row k page hth
    obtain ⟨ℓ, hth'⟩ := hsame.symm.thread hth
    exact h row k ℓ hth'

/-- Where no save fails, open rows are open in the page of a thread. -/
theorem owned_of_reach {p₀ p : ServerPool} (h₀ : Initial ext p₀)
    (hreach : (server ext).Reach SavesSucceed p₀ p) : ∃ q : HistoryPool, SamePrograms p q ∧
      (history ext).Disciplined Allowed Final q ∧ Owned p₀.shared.db.taskLog q := by
  obtain ⟨q, hreach', hsame⟩ : ∃ q, (history ext).Reach SavesSucceed (blank p₀.shared) q ∧
      SamePrograms p q :=
    (blank_same h₀).reach (history_same ext) (fun _ _ _ hsame h => h.same hsame) hreach
  obtain ⟨hd, hkept⟩ : (history ext).Disciplined Allowed Final (blank p₀.shared) ∧
      Kept (blank p₀.shared) := blank_kept p₀.shared
  have hstart : Owned p₀.shared.db.taskLog (blank p₀.shared) := fun row hrow _ => .inl hrow
  obtain ⟨hd', -, howned⟩ := System.invariant (K := SavesSucceed)
    (I := fun q => Kept q ∧ Owned p₀.shared.db.taskLog q) spawn_keeps
    (fun q tid x th _ hq _ hnone hspawn =>
      ⟨hq.1.spawn (loc_of_spawn hspawn), hq.2.spawn hnone th⟩)
    (fun q tid c o k page r s' _ hq hsaves hth hallowed hexec =>
      ⟨hq.1.op hth hallowed hexec, hq.2.op hq.1 hth hallowed hsaves hexec⟩)
    hd ⟨hkept, hstart⟩ hreach'
  exact ⟨q, hsame, hd', howned⟩

/-- A thread with an open row has not ended. -/
theorem not_isDone_of_opened (hd : (history ext).Disciplined Allowed Final q)
    {th : Thread Op Op.Res Reply Page} (hth : q.threads tid = some th) {l : Int}
    (hl : th.loc.opened = some l) : th.prog.isDone = false := by
  obtain ⟨prog, page⟩ := th
  cases prog with
  | pure reply =>
    have hnone : page.opened = none := hd tid _ hth
    exact absurd (hnone.symm.trans hl) nofun
  | op o k => rfl

/-- **Open rows have threads**: where no save fails, every row of a run that is going on, but those
    that were there before the start, belongs to a thread of its own, which has not ended. -/
theorem open_rows_have_threads {p₀ p : ServerPool} (h₀ : Initial ext p₀)
    (hreach : (server ext).Reach SavesSucceed p₀ p) : ∃ owner : TaskLog → Nat,
    (∀ row ∈ p.shared.db.taskLog.rows, row.status = true → row ∉ p₀.shared.db.taskLog.rows →
      ∃ th, p.threads (owner row) = some th ∧ th.prog.isDone = false) ∧
    ∀ row ∈ p.shared.db.taskLog.rows, ∀ row' ∈ p.shared.db.taskLog.rows,
      row.status = true → row'.status = true → row ∉ p₀.shared.db.taskLog.rows →
      row' ∉ p₀.shared.db.taskLog.rows → owner row = owner row' → row = row' := by
  obtain ⟨q, hsame, hd, howned⟩ := owned_of_reach h₀ hreach
  rw [← hsame.shared]
  have hthread : ∀ row : TaskLog, ∃ tid, row ∈ q.shared.db.taskLog.rows → row.status = true →
      row ∉ p₀.shared.db.taskLog.rows →
        ∃ th, q.threads tid = some th ∧ th.loc.opened = some row.id := by
    intro row
    by_cases hnew : ∃ tid th, q.threads tid = some th ∧ th.loc.opened = some row.id
    · obtain ⟨tid, hth⟩ := hnew
      exact ⟨tid, fun _ _ _ => hth⟩
    · exact ⟨0, fun hrow hstatus hold => absurd ((howned row hrow hstatus).resolve_left hold) hnew⟩
  choose owner howner using hthread
  refine ⟨owner, fun row hrow hstatus hold => ?_, ?_⟩
  · obtain ⟨⟨prog, page⟩, hth, hopened⟩ := howner row hrow hstatus hold
    obtain ⟨ℓ, hth'⟩ := hsame.symm.thread hth
    exact ⟨_, hth', not_isDone_of_opened hd hth hopened⟩
  · intro row hrow row' hrow' hstatus hstatus' hold hold' heq
    obtain ⟨th, hth, hopened⟩ := howner row hrow hstatus hold
    obtain ⟨th', hth', hopened'⟩ := howner row' hrow' hstatus' hold'
    rw [heq, hth'] at hth
    cases hth
    exact Table.eq_of_rowId_eq hrow hrow' (Option.some.inj (hopened.symm.trans hopened'))

/-- The row of a run whose command has been started has a thread that goes on. -/
theorem open_rows_have_threads_one : ∃ (p : ServerPool) (tid : Nat) (th : _),
    (∃ row ∈ p.shared.db.taskLog.rows, row.status = true) ∧ p.threads tid = some th ∧
    th.prog.isDone = false := by
  have hrun : ∃ p, (server plainExternals).run (firstRun ++ secondRun) dependentPool = some p ∧
      ∃ row ∈ p.shared.db.taskLog.rows, row.status = true :=
    ⟨_, rfl, _, List.mem_cons_of_mem _ (List.mem_singleton_self _), rfl⟩
  obtain ⟨p, hp, row, hrow, hstatus⟩ := hrun
  have hlabels : ∀ l ∈ firstRun ++ secondRun, ∀ q : ServerPool, SavesSucceed l q := by
    intro l hl q
    simp only [firstRun, secondRun, List.cons_append, List.mem_cons, List.mem_append,
      List.mem_replicate] at hl
    rcases hl with rfl | ⟨-, rfl⟩ | rfl | ⟨-, rfl⟩
    · trivial
    · exact fun _ _ _ _ => rfl
    · trivial
    · exact fun _ _ _ _ => rfl
  obtain ⟨owner, howner, -⟩ := open_rows_have_threads dependentPool_initial
    (System.reach_of_labels hp hlabels)
  obtain ⟨th, hth, hdone⟩ := howner row hrow hstatus (by exact fun h => nomatch h)
  exact ⟨p, owner row, th, ⟨row, hrow, hstatus⟩, hth, hdone⟩

end Pools

end Gonitor.Concurrent.RunHistory
