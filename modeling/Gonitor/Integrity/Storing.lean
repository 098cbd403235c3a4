import Gonitor.Integrity.Validity

/-!
# What the Task Requests Store

`AddTask` and `EditTask` copy the same sixteen fields from the payload to a task, and answer with
the payload.  `EditTask` saves the task, which writes every column.  `AddTask` creates it, which
leaves a zero-valued field out where its column has a default: a priority of 0 (low) is stored as
the default 1 (medium).

## Main Results

- `stored_as_submitted_iff`: a successful request stores the payload, unless it adds a task of
  priority 0.
- `low_priority_raised`: the answer and the row of such a request differ.
-/

namespace Gonitor.Integrity

open Gonitor.Model Gonitor.Server Gonitor.Controller Gonitor.Requests AtomicProgram SoftDelete

/-! ## Rows and payloads -/

/-- The payload that a row of the task table stands for. -/
def Task.submitted (row : Task) : TaskMutationPayload where
  name := row.name
  description := row.description
  execType := row.execType
  command := row.command
  schedule := row.schedule
  isDisable := row.isDisable
  priority := row.priority
  tags := row.tags
  execStrategy := row.execStrategy
  retryTimes := row.retryTimes
  retryInterval := row.retryInterval
  timeout := row.timeout
  dependsOnTaskID := row.dependsOnTaskID
  assert := row.assert
  resultHandler := row.resultHandler
  nodeID := row.nodeID

/-- Applying a payload to a task sets all its columns. -/
theorem submitted_apply (payload : TaskMutationPayload) (t : Task) :
    Task.submitted (payload.apply t) = payload := rfl

theorem submitted_saved (row : Task) (now : Time) :
    Task.submitted (Table.saved row now) = Task.submitted row := rfl

/-- What `Create` stores differs from the payload in the priority at most. -/
theorem submitted_inserted (tasks : Table Task) (payload : TaskMutationPayload) (t : Task)
    (now : Time) :
    Task.submitted (tasks.inserted (payload.apply t).withDefaults now) =
      { payload with priority := if payload.priority = 0 then 1 else payload.priority } := rfl

/-! ## The two write paths -/

/-- The request writes the payload to the task `id`: to a new one, or to one that it names. -/
inductive Submits (payload : TaskMutationPayload) (s : State) : Request → Int → Prop
  | added : Submits payload s (.addTask (.ok payload)) s.db.task.nextId
  | edited (taskId : Int) : Submits payload s (.editTask taskId (.ok payload)) taskId

/-- What a request stores of a payload: an insert replaces a priority of 0. -/
def kept (payload : TaskMutationPayload) : Request → TaskMutationPayload
  | .addTask _ =>
    { payload with priority := if payload.priority = 0 then 1 else payload.priority }
  | _ => payload

/-- Nothing is replaced except where a task of priority 0 is added. -/
theorem kept_eq_iff {payload : TaskMutationPayload} {s : State} {req : Request} {id : Int}
    (h : Submits payload s req id) :
    kept payload req = payload ↔ (req = .addTask (.ok payload) → payload.priority ≠ 0) := by
  cases h with
  | edited _ => simp [kept]
  | added =>
    simp only [kept, forall_const]
    constructor
    · intro hsame hzero
      -- the default is not 0
      have hprio := congrArg TaskMutationPayload.priority hsame
      simp [hzero] at hprio
    · intro hne
      rw [if_neg hne]

section Paths

variable {ext : Externals} {K : State → Op → Choice → Prop}

/-- Whatever comes after the insert, a successful `AddTask` has created its row. -/
theorem addTask_stores (caller : Caller) (payload : TaskMutationPayload) (s : State) :
    Ensures ext K (Controller.addTask ext caller (.ok payload)) (fun r s' =>
      ∀ resp, r = .response resp → resp.isSuccess = true → ∃ now, s'.view.tasks =
        s.view.tasks.create (payload.apply { toStamps := Base.zero }).withDefaults now) s := by
  unfold Controller.addTask
  refine (validateTaskMutationPayload_spec 0 payload s).bind ?_
  rintro r s₁ ⟨h₁, -⟩
  rw [← h₁]
  cases r with
  | some err =>
    apply Ensures.pure
    rintro _ ⟨⟩ ⟨⟩
  | none =>
    refine (createTask_spec _ s₁).bind ?_
    rintro _ s₂ (⟨err, rfl, -⟩ | ⟨now, rfl, h₂, -⟩)
    · apply Ensures.pure
      rintro _ ⟨⟩ ⟨⟩
    · have hcreated : s₂.view.tasks =
          s₁.view.tasks.create (payload.apply { toStamps := Base.zero }).withDefaults now := by
        rw [h₂]
      -- the scheduling and the audit entry leave the table alone
      refine (syncTaskToNode_tables _ s₂).bind fun r s₃ h₃ => ?_
      cases r with
      | error err => exact Ensures.pure fun _ _ _ => ⟨now, h₃.1.trans hcreated⟩
      | ok _ =>
        refine (plain_tables (logged_uses _ _ _ _) s₃).mono fun _ s₄ h₄ _ _ _ => ?_
        exact ⟨now, (h₃.trans h₄).1.trans hcreated⟩

/-- Whatever comes after the save, a successful `EditTask` has saved the row it has read. -/
theorem editTask_stores (caller : Caller) (taskId : Int) (payload : TaskMutationPayload)
    (s : State) :
    Ensures ext K (Controller.editTask ext caller taskId (.ok payload)) (fun r s' =>
      ∀ resp, r = .response resp → resp.isSuccess = true → ∃ row now,
        s.view.tasks.byId taskId = some row ∧
        s.view.tasks.save (payload.apply row) now = some s'.view.tasks) s := by
  unfold Controller.editTask
  refine (findTask_spec taskId s).bind ?_
  rintro r s₁ ⟨h₁, hrow, -⟩
  rw [← h₁] at hrow ⊢
  cases r with
  | error err =>
    apply Ensures.pure
    rintro _ ⟨⟩ ⟨⟩
  | ok taskModel =>
    refine (validateTaskMutationPayload_spec taskModel.id payload s₁).bind ?_
    rintro r s₂ ⟨h₂, -⟩
    rw [← h₂] at hrow ⊢
    cases r with
    | some err =>
      apply Ensures.pure
      rintro _ ⟨⟩ ⟨⟩
    | none =>
      refine (saveTask_spec (payload.apply taskModel) s₂).bind ?_
      rintro _ s₃ (⟨err, rfl, -⟩ | ⟨now, tasks, rfl, hsave, h₃, -⟩)
      · apply Ensures.pure
        rintro _ ⟨⟩ ⟨⟩
      · have hsaved : ∀ s' : State, SameTables s₃.view s'.view → ∃ row now,
            s₂.view.tasks.byId taskId = some row ∧
            s₂.view.tasks.save (payload.apply row) now = some s'.view.tasks := by
          intro s' hsame
          refine ⟨taskModel, now, hrow taskModel rfl, ?_⟩
          rw [hsame.1, h₃]
          exact hsave
        refine (managerDeleteTask_tables taskModel.id s₃).bind fun _ s₄ h₄ => ?_
        refine (plain_tables (isLocalTask_uses _) s₄).bind fun isLocal s₅ h₅ => ?_
        have h₅' := h₄.trans h₅
        split
        · refine (managerAddTask_tables taskModel.id s₅).bind fun r s₆ h₆ => ?_
          cases r with
          | error err => exact Ensures.pure fun _ _ _ => hsaved s₆ (h₅'.trans h₆)
          | ok _ =>
            refine (plain_tables (logged_uses _ _ _ _) s₆).mono fun _ s₇ h₇ _ _ _ => ?_
            exact hsaved s₇ ((h₅'.trans h₆).trans h₇)
        · refine (plain_tables (logged_uses _ _ _ _) s₅).mono fun _ s₆ h₆ _ _ _ => ?_
          exact hsaved s₆ (h₅'.trans h₆)

/-- The row under which the task is found after a successful request. -/
theorem stored_row {payload : TaskMutationPayload} {s s' : State} {req : Request} {id : Int}
    {resp : Response} (hreq : Submits payload s req id)
    (h : Serves ext K req (.response resp) s s') (hsuccess : resp.isSuccess = true) :
    ∃ row, s'.db.task.byId id = some row ∧ Task.submitted row = kept payload req := by
  obtain ⟨caller, hrun⟩ := h
  cases hreq with
  | added =>
    obtain ⟨now, htasks⟩ := hrun.post (addTask_stores caller payload s) resp rfl hsuccess
    -- the new row is found under the key that was next
    refine ⟨_, ?_, submitted_inserted s.view.tasks payload { toStamps := Base.zero } now⟩
    change s'.view.tasks.byId _ = _
    rw [htasks]
    exact (Table.byId_create _ _ _ _).trans (if_pos rfl)
  | edited _ =>
    obtain ⟨row, now, hrow, hsave⟩ :=
      hrun.post (editTask_stores caller id payload s) resp rfl hsuccess
    obtain ⟨-, hid, hlive⟩ := Table.mem_of_byId hrow
    refine ⟨_, (Table.byId_save hsave hlive id).trans (if_pos hid.symm), ?_⟩
    simp only [submitted_saved, submitted_apply, kept]

/-- **A task is stored as submitted**: the row that a successful `AddTask` or `EditTask` leaves
    has the payload in all its columns, if and only if it does not add a task of priority 0. -/
theorem stored_as_submitted_iff {payload : TaskMutationPayload} {s s' : State} {req : Request}
    {id : Int} {resp : Response} (hreq : Submits payload s req id)
    (h : Serves ext AnyStep req (.response resp) s s') (hsuccess : resp.isSuccess = true) :
    (∃ row, s'.db.task.byId id = some row ∧ Task.submitted row = payload) ↔
      (req = .addTask (.ok payload) → payload.priority ≠ 0) := by
  obtain ⟨row, hrow, hstored⟩ := stored_row hreq h hsuccess
  have hrow' : (∃ row, s'.db.task.byId id = some row ∧ Task.submitted row = payload) ↔
      Task.submitted row = payload := by
    simp [hrow]
  rw [hrow', hstored]
  exact kept_eq_iff hreq

end Paths

/-- A payload of medium priority, with a dependency and retries. -/
def mediumPayload : TaskMutationPayload :=
  { somePayload with priority := 1, dependsOnTaskID := 1, retryTimes := 2 }

/-- Added to a database with a task it is stored as submitted; and so is the one of low priority that
    it is edited with afterwards. -/
theorem stored_as_submitted_iff_edited : ∃ resp s' resp' s'',
    Serves plainExternals AnyStep (.addTask (.ok mediumPayload)) (.response resp)
      (State.boot oneTaskDatabase 0) s' ∧
    (∃ row, s'.db.task.byId 2 = some row ∧ Task.submitted row = mediumPayload) ∧
    Serves plainExternals AnyStep (.editTask 2 (.ok somePayload)) (.response resp') s' s'' ∧
    ∃ row, s''.db.task.byId 2 = some row ∧ Task.submitted row = somePayload := by
  have hserved : ∃ resp s', Serves plainExternals AnyStep (.addTask (.ok mediumPayload))
      (.response resp) (State.boot oneTaskDatabase 0) s' ∧ resp.isSuccess = true ∧
      ∃ resp' s'', Serves plainExternals AnyStep (.editTask 2 (.ok somePayload)) (.response resp')
        s' s'' ∧ resp'.isSuccess = true := by
    -- in both, `SyncTaskToNode` does not find the row
    refine ⟨_, _, ⟨⟨0, ""⟩, runs_of_choices [{}, {}, { fail := true }] (fun _ _ _ _ => trivial) rfl⟩,
      rfl, ?_⟩
    exact ⟨_, _, ⟨⟨0, ""⟩, runs_of_choices [{}, {}, {}, {}, { fail := true }]
      (fun _ _ _ _ => trivial) rfl⟩, rfl⟩
  obtain ⟨resp, s', hadded, hsuccess, resp', s'', hedited, hsuccess'⟩ := hserved
  exact ⟨resp, s', resp', s'', hadded,
    (stored_as_submitted_iff .added hadded hsuccess).mpr fun _ => by decide, hedited,
    (stored_as_submitted_iff (.edited 2) hedited hsuccess').mpr nofun⟩

/-- A task of low priority is answered as such, and stored as one of medium priority. -/
theorem low_priority_raised : ¬ ∀ (payload : TaskMutationPayload) (s s' : State) (req : Request)
    (id : Int) (resp : Response), Submits payload s req id →
    Serves plainExternals AnyStep req (.response resp) s s' → resp.isSuccess = true →
    ∃ row, s'.db.task.byId id = some row ∧ Task.submitted row = payload := by
  intro hall
  have hserved : ∃ resp s', Serves plainExternals AnyStep (.addTask (.ok somePayload))
      (.response resp) (State.boot emptyDatabase 0) s' ∧ resp.isSuccess = true :=
    ⟨_, _, ⟨⟨0, ""⟩, .op ⟨{}, trivial, rfl⟩ (.op ⟨{ fail := true }, trivial, rfl⟩ (.pure _ _))⟩,
      rfl⟩
  obtain ⟨resp, s', hserved, hsuccess⟩ := hserved
  obtain ⟨row, hrow, hsame⟩ := hall _ _ _ _ _ _ .added hserved hsuccess
  obtain ⟨row', hrow', hstored⟩ := stored_row .added hserved hsuccess
  rw [hrow, Option.some.injEq] at hrow'
  rw [← hrow', hsame] at hstored
  exact (kept_eq_iff (s := State.boot emptyDatabase 0) .added).mp hstored.symm rfl (by decide)

end Gonitor.Integrity
