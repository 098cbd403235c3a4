import Gonitor.Framework.AssuredProgram
import Gonitor.Requests.Tables

/-!
# Updates of a Task Row

`EditTask`, `StopTask` and `StartTask` read the row of a task, change columns of it in memory and
save all columns.  `EditTask` sets every column, so what it saves does not depend on what it has
read; the other two set the switch and write the other columns back as they have read them.

## Main Results

- `exists_serves`: served alone, an update that is valid sets its columns.
- `request_holding`: between the row it reads and its save, a handler writes no other task.
-/

namespace Gonitor.Requests

open Gonitor.Model Gonitor.Server Gonitor.Controller AtomicProgram SoftDelete

/-! ## Updates -/

/-- The requests that save the row of a task. -/
inductive TaskUpdate
  | edit (body : Except String TaskMutationPayload)
  | stop
  | start

/-- The request that makes the update. -/
def TaskUpdate.request (taskId : Int) : TaskUpdate → Request
  | .edit body => .editTask taskId body
  | .stop => .stopTask taskId
  | .start => .startTask taskId

/-- The update that a request makes of the task. -/
def taskUpdate (taskId : Int) : Request → Option TaskUpdate
  | .editTask id body => if id = taskId then some (.edit body) else none
  | .stopTask id => if id = taskId then some .stop else none
  | .startTask id => if id = taskId then some .start else none
  | _ => none

theorem eq_request_of_taskUpdate {taskId : Int} {req : Request} {u : TaskUpdate}
    (h : taskUpdate taskId req = some u) : req = u.request taskId := by
  unfold taskUpdate at h
  split at h
  case h_4 => cases h
  all_goals
    split at h
    · rename_i hid
      cases h
      rw [hid]
      rfl
    · cases h

/-- What the update makes of the row it has read. -/
def TaskUpdate.apply : TaskUpdate → Task → Task
  | .edit (.ok payload), row => payload.apply row
  | .edit (.error _), row => row
  | .stop, row => { row with isDisable := true }
  | .start, row => { row with isDisable := false }

/-- Does the update only set the switch? -/
def TaskUpdate.isSwitch : TaskUpdate → Bool
  | .edit _ => false
  | .stop | .start => true

/-- The columns of a row, without its key and its time stamps. -/
def columns (row : Task) : Task := { row with toStamps := Base.zero }

/-- What the update makes of the columns is decided by the columns. -/
theorem columns_apply_congr (u : TaskUpdate) {row row' : Task} (h : columns row = columns row') :
    columns (u.apply row) = columns (u.apply row') := by
  cases u with
  | edit body =>
    cases body with
    | error err => exact h
    | ok payload => rfl
  | stop => exact congrArg (fun t : Task => { t with isDisable := true }) h
  | start => exact congrArg (fun t : Task => { t with isDisable := false }) h

theorem stamps_apply (u : TaskUpdate) (row : Task) : (u.apply row).toStamps = row.toStamps := by
  cases u with
  | edit body => cases body <;> rfl
  | stop => rfl
  | start => rfl

/-- The rows agree in every column but the switch. -/
def AgreeButSwitch (row row' : Task) : Prop :=
  columns { row with isDisable := row'.isDisable } = columns row'

instance (row row' : Task) : Decidable (AgreeButSwitch row row') := by
  unfold AgreeButSwitch
  infer_instance

/-- An edit sets all columns; the others make the same of two rows that agree but for the switch. -/
theorem columns_apply_of_agree (u : TaskUpdate) {read stored : Task}
    (h : u.isSwitch = true → AgreeButSwitch (u.apply read) stored)
    (hbody : ∀ err, u ≠ .edit (.error err)) :
    columns (u.apply read) = columns (u.apply stored) := by
  cases u with
  | edit body =>
    cases body with
    | error err => exact absurd rfl (hbody err)
    | ok payload => rfl
  | stop => exact congrArg (fun t : Task => { t with isDisable := true }) (h rfl)
  | start => exact congrArg (fun t : Task => { t with isDisable := false }) (h rfl)

/-! ## The table -/

/-- The columns of the task, and which tasks are live. -/
structure Holds (taskId : Int) (known : Int → Bool) (cols : Task) (tasks : Table Task) : Prop where
  row : ∃ row, tasks.byId taskId = some row ∧ columns row = cols
  known : ∀ j, (tasks.byId j).isSome = known j

/-- Where the payload can be saved as the task: its fields are in order, and the task it depends on
    is a live one. -/
def TaskUpdate.Valid (ext : Externals) (taskId : Int) (known : Int → Bool) : TaskUpdate → Prop
  | .edit (.ok payload) => payloadFieldError payload = none ∧ payloadScriptError ext payload = none ∧
    (payload.dependsOnTaskID > 0 → (taskId > 0 → payload.dependsOnTaskID ≠ taskId) ∧
      known payload.dependsOnTaskID = true)
  | .edit (.error _) => False
  | .stop | .start => True

section Table

variable {ext : Externals} {taskId : Int} {known : Int → Bool} {cols : Task} {s s' : State}
  {c : Choice}

theorem holds_of_keepsTasks {o : Op} {r : o.Res} (ho : KeepsTasks o)
    (h : exec ext o c s = some (r, s')) (hs : Holds taskId known cols s.db.task) :
    Holds taskId known cols s'.db.task := by
  rw [tasks_of_exec ho h]
  exact hs

/-- A save of the task that does not fail stores the row. -/
theorem holds_of_save {row : Task} {r : Except DbError Unit}
    (h : exec ext (.db (.saveTask row)) c s = some (r, s')) (hok : c.fail = false)
    (hid : row.id = taskId) (hlive : live row = true) (hs : Holds taskId known cols s.db.task) :
    r = .ok () ∧ Holds taskId known (columns row) s'.db.task := by
  obtain ⟨-, hr, rfl⟩ := exec_db h
  have hthere : (s.db.task.byId (rowId row)).isSome = true := by
    obtain ⟨stored, hstored, -⟩ := hs.row
    rw [show rowId row = taskId from hid, hstored]
    rfl
  -- `UPDATE` finds the row, since the task is live
  obtain ⟨tasks, hsave⟩ : ∃ tasks, s.db.task.save row (s.clock + c.elapsed) = some tasks := by
    cases hsave : s.db.task.save row (s.clock + c.elapsed) with
    | some tasks => exact ⟨tasks, rfl⟩
    | none =>
      rw [Table.byId_of_save_eq_none hsave] at hthere
      cases hthere
  simp only [DbOp.exec, statement, hok, hsave, Bool.false_eq_true, if_false,
    Option.map_some] at hr ⊢
  refine ⟨hr, ⟨⟨Table.saved row (s.clock + c.elapsed), ?_, rfl⟩, fun j => ?_⟩⟩
  · rw [Table.byId_save hsave hlive]
    exact if_pos hid.symm
  · rw [Table.isSome_byId_save hsave hlive]
    exact hs.known j

/-- One that fails leaves the table as it is. -/
theorem holds_of_failedSave {row : Task} {r : Except DbError Unit}
    (h : exec ext (.db (.saveTask row)) c s = some (r, s')) (hfail : c.fail = true)
    (hs : Holds taskId known cols s.db.task) : Holds taskId known cols s'.db.task := by
  obtain ⟨-, -, rfl⟩ := exec_db h
  simp only [DbOp.exec, statement, hfail, if_true]
  exact hs

/-- A lookup that does not fail finds a live task. -/
theorem ok_of_findTask {id : Int} {row : Task} {r : Except DbError Task}
    (h : exec ext (.db (.findTask id)) c s = some (r, s')) (hok : c.fail = false)
    (hrow : s.db.task.byId id = some row) : r = .ok row := by
  obtain ⟨-, hr, -⟩ := exec_db h
  rw [hr]
  simp only [DbOp.exec, query, hok, hrow, Bool.false_eq_true, if_false]

end Table

/-! ## Served alone -/

/-- Either no operation on the database fails, or all do. -/
def Fate (goesWell : Bool) (_ : State) (o : Op) (c : Choice) : Prop :=
  match o with
  | .db _ => c.fail = !goesWell
  | _ => True

/-- Operations on the schedule and the database that neither block nor write a task. -/
def QuietWork : Op → Prop
  | .db (.createTask _) | .db (.saveTask _) | .db (.deleteTask _) => False
  | .db .beginTx | .db .commitTx | .db .rollbackTx => False
  | .db _ | .sched _ => True
  | _ => False

/-- Such operations, and saves of tasks. -/
def UpdateWork : Op → Prop
  | .db (.saveTask _) => True
  | o => QuietWork o

theorem quietWork_of_managerWork (o : Op) (h : ManagerWork o) : QuietWork o := by
  unfold ManagerWork at h
  split at h
  -- the last case is that of all other operations
  case h_4 => exact h.elim
  all_goals trivial

theorem keepsTasks_of_quietWork (o : Op) (h : QuietWork o) : KeepsTasks o := by
  unfold KeepsTasks
  split
  case h_7 => trivial
  all_goals exact h

theorem updateWork_of_quietWork (o : Op) (h : QuietWork o) : UpdateWork o := by
  unfold UpdateWork
  split
  · trivial
  · exact h

theorem keepsTasks_of_usesQuietWork {α : Type} {p : Program α} (hp : p.Uses QuietWork) :
    p.Uses KeepsTasks := hp.mono keepsTasks_of_quietWork

section Alone

variable {ext : Externals} {taskId : Int} {known : Int → Bool} {cols : Task} {s : State}

theorem managerDeleteTask_quietWork (id : Int) : (Gonitor.Task.deleteTask id).Uses QuietWork :=
  (managerDeleteTask_stopWork id).mono fun o ho =>
    quietWork_of_managerWork o (managerWork_of_stopWork o ho)

theorem managerAddTask_quietWork (id : Int) : (Gonitor.Task.addTask id).Uses QuietWork :=
  (managerAddTask_managerWork id).mono quietWork_of_managerWork

theorem logged_quietWork (caller : Caller) (t : Task) (opType : String) (reply : Reply) :
    (logTaskOperation caller t opType >>= fun _ => pure reply).Uses QuietWork := by
  refine Prog.Uses.call_bind trivial fun r => ?_
  cases r with
  | error err => trivial
  | ok info => exact Prog.Uses.call_bind trivial fun _ => trivial

theorem validate_quietWork (id : Int) (payload : TaskMutationPayload) :
    (validateTaskMutationPayload ext id payload).Uses QuietWork :=
  (validate_managerWork ext id payload).mono quietWork_of_managerWork

theorem isLocalTask_quietWork (t : Task) : (Controller.isLocalTask t).Uses QuietWork :=
  (isLocalTask_managerWork t).mono quietWork_of_managerWork

/-- `EditTask` after its save. -/
def editSaved (caller : Caller) (taskModel : Task) (editInfo : TaskMutationPayload) :
    Program Reply := do
  Gonitor.Task.deleteTask taskModel.id
  let isLocal ← Controller.isLocalTask taskModel
  if isLocal ∧ ¬ taskModel.isDisable then do
    match ← Gonitor.Task.addTask taskModel.id with
    | .error _ =>
      pure (.response (success "update success, but task update fail" (.payload editInfo)))
    | .ok _ => editTaskDone caller taskModel editInfo
  else editTaskDone caller taskModel editInfo

theorem editSaved_quietWork (caller : Caller) (taskModel : Task) (editInfo : TaskMutationPayload) :
    (editSaved caller taskModel editInfo).Uses QuietWork := by
  apply (managerDeleteTask_quietWork _).bind
  intro _
  apply (isLocalTask_quietWork _).bind
  intro isLocal
  split
  · apply (managerAddTask_quietWork _).bind
    intro r
    cases r with
    | error err => trivial
    | ok _ => exact logged_quietWork _ _ _ _
  · exact logged_quietWork _ _ _ _

/-- What the handlers of updates do. -/
theorem request_updateWork (u : TaskUpdate) (caller : Caller) :
    ((u.request taskId).handle ext caller).Uses UpdateWork := by
  cases u with
  | edit body =>
    show (Controller.editTask ext caller taskId body).Uses UpdateWork
    unfold Controller.editTask
    cases body with
    | error err => trivial
    | ok editInfo =>
      -- the lookup, the check, the save, and the rest
      refine Prog.Uses.call_bind trivial fun r => ?_
      cases r with
      | error err => trivial
      | ok taskModel =>
        apply ((validate_quietWork _ editInfo).mono updateWork_of_quietWork).bind
        intro r
        cases r with
        | some err => trivial
        | none =>
          refine Prog.Uses.call_bind trivial fun r => ?_
          cases r with
          | error err => trivial
          | ok _ =>
            exact (editSaved_quietWork caller (editInfo.apply taskModel) editInfo).mono
              updateWork_of_quietWork
  | stop =>
    refine Prog.Uses.call_bind trivial fun r => ?_
    cases r with
    | error err => trivial
    | ok taskModel =>
      -- the task leaves the schedule before its row is saved
      apply ((managerDeleteTask_quietWork taskId).mono updateWork_of_quietWork).bind
      intro _
      exact Prog.Uses.call_bind trivial fun _ =>
        (logged_quietWork _ _ _ _).mono updateWork_of_quietWork
  | start =>
    refine Prog.Uses.call_bind trivial fun r => ?_
    cases r with
    | error err => trivial
    | ok taskModel =>
      -- the row is saved before the task enters the schedule
      refine Prog.Uses.call_bind trivial fun r => ?_
      cases r with
      | error err => trivial
      | ok _ =>
        apply ((managerAddTask_quietWork taskId).mono updateWork_of_quietWork).bind
        intro r
        cases r with
        | error err => trivial
        | ok _ => exact (logged_quietWork _ _ _ _).mono updateWork_of_quietWork

/-- None of their operations blocks or crashes the server. -/
theorem step_of_updateWork (ext : Externals) {o : Op} (goesWell : Bool) (ho : UpdateWork o)
    (hs : s.os.crashed = false) :
    ∃ r s', execStep ext (Fate goesWell) o s r s' ∧ s'.os.crashed = false := by
  cases o with
  | db o => exact ⟨_, _, ⟨{ fail := !goesWell }, rfl, exec_of_db o hs⟩, hs⟩
  | sched o =>
    refine ⟨_, _, ⟨{}, trivial, exec_of_sched o hs⟩, ?_⟩
    -- two of the operations answer by the state of the schedule
    cases o with
    | stopRunning e log =>
      simp only [SchedOp.exec]
      split <;> exact hs
    | cronAddJob spec job =>
      simp only [SchedOp.exec]
      split <;> exact hs
    | _ => exact hs
  | run o => exact ho.elim
  | world o => exact ho.elim

/-- A program that writes no task leaves the columns and the live tasks as they are. -/
theorem holds_of_uses {α : Type} {K : State → Op → Choice → Prop} {p : Program α}
    (hp : p.Uses KeepsTasks) (hs : Holds taskId known cols s.db.task) :
    Ensures ext K p (fun _ s' => Holds taskId known cols s'.db.task) s := by
  apply hp.wp (I := fun s' : State => Holds taskId known cols s'.db.task) _ hs
  intro o s₁ ho hs₁
  refine ⟨trivial, ?_⟩
  rintro r s₂ ⟨c, -, hexec⟩
  exact holds_of_keepsTasks ho hexec hs₁

/-- The lookup of the task, when it goes well. -/
theorem findTask_ensures {α : Type} {k : Except DbError Task → Program α} {Q : α → State → Prop}
    {row : Task} (hs : Holds taskId known cols s.db.task) (hrow : s.db.task.byId taskId = some row)
    (hk : ∀ s', Holds taskId known cols s'.db.task → Ensures ext (Fate true) (k (.ok row)) Q s') :
    Ensures ext (Fate true) (findTask taskId >>= k) Q s := by
  refine Ensures.op fun c r s₁ hfate h₁ => ?_
  cases ok_of_findTask h₁ hfate hrow
  exact hk s₁ (holds_of_keepsTasks (show KeepsTasks (.db (.findTask taskId)) from trivial) h₁ hs)

/-- The save of the task, when it goes well, and what comes after it. -/
theorem saveTask_ensures {α : Type} {k : Except DbError Unit → Program α} {row : Task}
    (hid : row.id = taskId) (hlive : live row = true) (hk : (k (.ok ())).Uses QuietWork)
    (hs : Holds taskId known cols s.db.task) :
    Ensures ext (Fate true) (saveTask row >>= k)
      (fun _ s' => Holds taskId known (columns row) s'.db.task) s := by
  refine Ensures.op fun c r s₁ hfate h₁ => ?_
  obtain ⟨rfl, hs₁⟩ := holds_of_save h₁ hfate hid hlive hs
  exact holds_of_uses (keepsTasks_of_usesQuietWork hk) hs₁

/-- A valid payload passes its check. -/
theorem validate_ensures {payload : TaskMutationPayload}
    (hvalid : (TaskUpdate.edit (.ok payload)).Valid ext taskId known)
    (hs : Holds taskId known cols s.db.task) :
    Ensures ext (Fate true) (validateTaskMutationPayload ext taskId payload)
      (fun r s' => r = none ∧ Holds taskId known cols s'.db.task) s := by
  obtain ⟨hfields, hscripts, hdepends⟩ := hvalid
  unfold validateTaskMutationPayload
  rw [hfields]
  dsimp only
  split
  · rename_i hpos
    obtain ⟨hself, hknown⟩ := hdepends hpos
    rw [if_neg fun h => hself h.1 h.2]
    refine Ensures.op fun c r s₁ hfate h₁ => ?_
    -- the task it depends on is there
    rw [← hs.known] at hknown
    obtain ⟨row, hrow⟩ := Option.isSome_iff_exists.mp hknown
    cases ok_of_findTask h₁ hfate hrow
    exact Ensures.pure ⟨hscripts, holds_of_keepsTasks
      (show KeepsTasks (.db (.findTask payload.dependsOnTaskID)) from trivial) h₁ hs⟩
  · exact Ensures.pure ⟨hscripts, hs⟩

/-- Served alone, with nothing that fails, a valid update sets its columns. -/
theorem request_ensures {u : TaskUpdate} (hvalid : u.Valid ext taskId known) (caller : Caller)
    {row : Task} (hrow : s.db.task.byId taskId = some row)
    (hs : Holds taskId known cols s.db.task) :
    Ensures ext (Fate true) ((u.request taskId).handle ext caller)
      (fun _ s' => Holds taskId known (columns (u.apply row)) s'.db.task) s := by
  obtain ⟨-, hid, hlive⟩ := Table.mem_of_byId hrow
  cases u with
  | edit body =>
    cases body with
    | error err => exact hvalid.elim
    | ok payload =>
      refine findTask_ensures hs hrow fun s₁ hs₁ => ?_
      -- the handler checks the payload against the id of the row it has read
      have hrowId : row.id = taskId := hid
      have hvalidated := validate_ensures hvalid hs₁
      rw [← hrowId] at hvalidated
      refine hvalidated.bind ?_
      rintro r s₂ ⟨rfl, hs₂⟩
      rw [hrowId] at hs₂
      exact saveTask_ensures hid hlive (editSaved_quietWork caller (payload.apply row) payload) hs₂
  | stop =>
    refine findTask_ensures hs hrow fun s₁ hs₁ => ?_
    have hkeeps := keepsTasks_of_usesQuietWork (managerDeleteTask_quietWork taskId)
    refine (holds_of_uses hkeeps hs₁).bind fun _ s₂ hs₂ => ?_
    exact saveTask_ensures hid hlive (logged_quietWork _ _ _ _) hs₂
  | start =>
    refine findTask_ensures hs hrow fun s₁ hs₁ => ?_
    refine saveTask_ensures hid hlive ?_ hs₁
    apply (managerAddTask_quietWork taskId).bind
    intro r
    cases r with
    | error err => trivial
    | ok _ => exact logged_quietWork _ _ _ _

/-- **A valid update can be served alone**, and sets its columns. -/
theorem exists_serves {u : TaskUpdate} (hvalid : u.Valid ext taskId known)
    (hcrashed : s.os.crashed = false) (hs : Holds taskId known cols s.db.task) :
    ∃ row reply s', s.db.task.byId taskId = some row ∧ columns row = cols ∧
      Serves ext (Fate true) (u.request taskId) reply s s' ∧ s'.os.crashed = false ∧
      Holds taskId known (columns (u.apply row)) s'.db.task := by
  obtain ⟨row, hrow, hcols⟩ := hs.row
  obtain ⟨reply, s', hrun, hcrashed'⟩ := (request_updateWork u ⟨0, ""⟩).exists_runs
    (fun o s ho hs => step_of_updateWork ext true ho hs) hcrashed
  exact ⟨row, reply, s', hrow, hcols, ⟨⟨0, ""⟩, hrun⟩, hcrashed',
    hrun.post (request_ensures hvalid ⟨0, ""⟩ hrow hs)⟩

/-- An update whose operations on the database fail can be served too, and changes nothing. -/
theorem exists_serves_failing (ext : Externals) (u : TaskUpdate) (hcrashed : s.os.crashed = false)
    (hs : Holds taskId known cols s.db.task) :
    ∃ reply s', Serves ext (Fate false) (u.request taskId) reply s s' ∧ s'.os.crashed = false ∧
      Holds taskId known cols s'.db.task := by
  obtain ⟨reply, s', hrun, hcrashed', hs'⟩ := (request_updateWork u ⟨0, ""⟩).exists_runs
    (I := fun s : State => s.os.crashed = false ∧ Holds taskId known cols s.db.task) (by
      rintro o s₁ ho ⟨hcrashed₁, hs₁⟩
      obtain ⟨r, s₂, hstep, hcrashed₂⟩ := step_of_updateWork ext false ho hcrashed₁
      refine ⟨r, s₂, hstep, hcrashed₂, ?_⟩
      obtain ⟨c, hfate, hexec⟩ := hstep
      -- its save fails, and nothing else writes the task
      unfold UpdateWork at ho
      split at ho
      · exact holds_of_failedSave hexec hfate hs₁
      · exact holds_of_keepsTasks (keepsTasks_of_quietWork _ ho) hexec hs₁) ⟨hcrashed, hs⟩
  exact ⟨reply, s', ⟨⟨0, ""⟩, hrun⟩, hcrashed', hs'⟩

end Alone

/-! ## In the middle of an update -/

/-- A lookup that answers a row has found a live task. -/
def Found (known : Int → Bool) : (o : Op) → o.Res → Prop
  | .db (.findTask id), .ok _ => known id = true
  | _, _ => True

section Middle

/-- The handler of `u` has read `row`: it writes no task but, at most once, what the update makes of
    this row, and only where the update is valid. -/
def Holding (ext : Externals) (taskId : Int) (known : Int → Bool) (u : TaskUpdate) (row : Task)
    (p : Program Reply) : Prop :=
  p.AtMostOnce KeepsTasks (fun o => o = .db (.saveTask (u.apply row)) ∧ u.Valid ext taskId known)
    (Found known)

/-- The check of a payload, in the middle of an edit. -/
theorem validate_holding {ext : Externals} {taskId : Int} {known : Int → Bool}
    {payload : TaskMutationPayload} {row : Task} {f : Option String → Program Reply}
    (hsome : ∀ err, (f (some err)).Uses KeepsTasks)
    (hnone : (TaskUpdate.edit (.ok payload)).Valid ext taskId known →
      Holding ext taskId known (.edit (.ok payload)) row (f none)) :
    Holding ext taskId known (.edit (.ok payload)) row
      (validateTaskMutationPayload ext taskId payload >>= f) := by
  -- the scripts are checked last
  have hscripts : (payloadFieldError payload = none) → (payload.dependsOnTaskID > 0 →
      (taskId > 0 → payload.dependsOnTaskID ≠ taskId) ∧ known payload.dependsOnTaskID = true) →
      Holding ext taskId known (.edit (.ok payload)) row (f (payloadScriptError ext payload)) := by
    intro hfields hdepends
    cases herr : payloadScriptError ext payload with
    | some err => exact .of_uses (hsome err)
    | none => exact hnone ⟨hfields, herr, hdepends⟩
  unfold validateTaskMutationPayload
  split
  · exact .of_uses (hsome _)
  · rename_i hfields
    split
    · split
      · exact .of_uses (hsome _)
      · rename_i hself
        -- the task it depends on is looked up; where a row is answered, it is a live one
        refine .call_bind trivial fun r hr => ?_
        cases r with
        | error err => exact .of_uses (hsome _)
        | ok dependency =>
          exact hscripts hfields fun _ => ⟨fun hpos heq => hself ⟨hpos, heq⟩, hr⟩
    · rename_i hzero
      exact hscripts hfields fun hpos => absurd hpos hzero

/-- **Between its read and its save** a handler holds the row it has read. -/
theorem request_holding (ext : Externals) (taskId : Int) (known : Int → Bool) (u : TaskUpdate)
    (caller : Caller) :
    (∃ reply, (u.request taskId).handle ext caller = .pure reply) ∨
    ∃ k : Except DbError Task → Program Reply,
      (u.request taskId).handle ext caller = .op (.db (.findTask taskId)) k ∧
      (∀ err, (k (.error err)).Uses KeepsTasks) ∧
      ∀ row : Task, row.id = taskId → Holding ext taskId known u row (k (.ok row)) := by
  cases u with
  | edit body =>
    cases body with
    | error err => exact .inl ⟨_, rfl⟩
    | ok payload =>
      refine .inr ⟨_, rfl, fun err => trivial, ?_⟩
      rintro row rfl
      apply validate_holding
      · exact fun err => trivial
      · -- the payload has passed: this is the save
        intro hvalid
        refine .once_bind ⟨rfl, hvalid⟩ fun r => ?_
        cases r with
        | error err => trivial
        | ok _ =>
          exact keepsTasks_of_usesQuietWork (editSaved_quietWork caller (payload.apply row) payload)
  | stop =>
    refine .inr ⟨_, rfl, fun err => trivial, fun row _ => ?_⟩
    apply Prog.AtMostOnce.bind (keepsTasks_of_usesQuietWork (managerDeleteTask_quietWork taskId))
    intro _
    exact .once_bind ⟨rfl, trivial⟩ fun r => keepsTasks_of_usesQuietWork (logged_quietWork _ _ _ _)
  | start =>
    refine .inr ⟨_, rfl, fun err => trivial, fun row _ => ?_⟩
    refine .once_bind ⟨rfl, trivial⟩ fun r => ?_
    cases r with
    | error err => trivial
    | ok _ =>
      apply (keepsTasks_of_usesQuietWork (managerAddTask_quietWork taskId)).bind
      intro r
      cases r with
      | error err => trivial
      | ok _ => exact keepsTasks_of_usesQuietWork (logged_quietWork _ _ _ _)

end Middle

end Gonitor.Requests
