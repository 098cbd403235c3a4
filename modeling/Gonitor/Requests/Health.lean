import Gonitor.Requests.Schedule

/-!
# Every Request Keeps the Schedule Healthy

One theorem for each handler: served from a healthy schedule, with any failing operations,
it leaves a healthy schedule.  The ones that look hardest are `EditTask` (the row is saved
before the task is taken off the schedule) and `StartTask` (the row of a task that may
already be scheduled is saved).

## Main Results

- `start_healthy`: start-up establishes the invariant.
- `taskRequest_healthy`, `nodeRequest_healthy`: every request keeps it.
-/

namespace Gonitor.Requests

open Gonitor.Model Gonitor.Server Gonitor.Controller AtomicProgram SoftDelete

section Handlers

variable {ext : Externals} {K : State → Op → Choice → Prop} {strict : Prop} {dead : Int → Prop}

/-- A program that leaves the schedule alone leaves it healthy. -/
theorem Ensures.healthy_of_plain {α : Type} {p : Program α} (hp : p.Uses Plain) {s : State}
    (h : Healthy strict dead s.view) :
    Ensures ext K p (fun _ s' => Healthy strict dead s'.view) s :=
  (Ensures.of_plain hp s).mono fun _ _ hview => hview ▸ h

/-! ## Start-up -/

/-- Nothing is scheduled yet when the database is opened. -/
theorem boot_healthy (db : Database) (now : Time) :
    Healthy strict (fun _ => False) (State.boot db now).view where
  sound := ScheduleSound.init
  fresh := by
    intro t ti hti
    cases hti
  dead_gone _ h := h.elim

theorem addTasks_healthy (hK : strict → Careful K) (tasks : List Task) {s : State}
    (h : Healthy strict dead s.view) :
    Ensures ext K (Gonitor.Task.addTasks tasks) (fun _ s' => Healthy strict dead s'.view) s := by
  induction tasks generalizing s with
  | nil => exact h
  | cons row tasks ih =>
    refine (addTask_spec row.id s).bind ?_
    intro _ s₁ h₁
    exact ih (h.addOutcome hK h₁)

/-- `Manager.Start` establishes the invariant. -/
theorem start_healthy (hK : strict → Careful K) (db : Database) (now : Time) :
    Ensures ext K Gonitor.Task.start (fun _ s => Healthy strict (fun _ => False) s.view)
      (State.boot db now) := by
  refine (Ensures.of_uses (p := enabledTasks) ⟨trivial, fun _ => trivial⟩ _).bind ?_
  intro r s₁ h₁
  have h : Healthy strict (fun _ => False) s₁.view := h₁ ▸ boot_healthy db now
  cases r with
  | error err =>
    refine (Ensures.of_uses (p := crash) ⟨trivial, fun _ => trivial⟩ s₁).mono ?_
    exact fun _ _ hview => hview ▸ h
  | ok tasks => exact addTasks_healthy hK tasks h

/-! ## The task requests -/

theorem syncTaskToNode_healthy (hK : strict → Careful K) (taskId : Int) {s : State}
    (h : Healthy strict dead s.view) :
    Ensures ext K (syncTaskToNode taskId) (fun _ s' => Healthy strict dead s'.view) s := by
  refine (findTask_spec taskId s).bind ?_
  rintro r s₁ ⟨h₁, -⟩
  have hadd : ∀ s₂ : State, s₂.view = s.view → Ensures ext K (Gonitor.Task.addTask taskId)
      (fun _ s' => Healthy strict dead s'.view) s₂ := by
    intro s₂ h₂
    refine (addTask_spec taskId s₂).mono fun _ s₃ h₃ => ?_
    exact Healthy.addOutcome (h₂ ▸ h) hK h₃
  cases r with
  | error err => exact Ensures.pure (h₁ ▸ h)
  | ok taskModel =>
    dsimp only
    split
    · exact hadd s₁ h₁
    · refine (Ensures.of_uses (p := findNode .syncTaskToNode taskModel.nodeID)
        ⟨trivial, fun _ => trivial⟩ s₁).bind ?_
      intro r s₂ h₂
      have h' : s₂.view = s.view := h₂.trans h₁
      cases r with
      | error err => exact Ensures.pure (h' ▸ h)
      | ok nodeModel =>
        dsimp only
        split
        · exact hadd s₂ h'
        · exact Ensures.pure (h' ▸ h)

theorem addTask_healthy (hK : strict → Careful K) (caller : Caller)
    (body : Except String TaskMutationPayload) {s : State} (h : Healthy strict dead s.view) :
    Ensures ext K (Controller.addTask ext caller body) (fun _ s' => Healthy strict dead s'.view)
      s := by
  unfold Controller.addTask
  cases body with
  | error err => exact Ensures.pure h
  | ok addInfo =>
    refine (Ensures.healthy_of_plain (validateTaskMutationPayload_uses ext 0 addInfo) h).bind ?_
    intro r s₁ h₁
    cases r with
    | some err => exact Ensures.pure h₁
    | none =>
      refine (createTask_spec _ s₁).bind ?_
      rintro _ s₂ (⟨err, rfl, h₂, -⟩ | ⟨now, rfl, h₂, -⟩)
      · exact Ensures.pure (h₂ ▸ h₁)
      · have hcreated : Healthy strict dead s₂.view := h₂ ▸ h₁.create _ now
        refine (syncTaskToNode_healthy hK _ hcreated).bind ?_
        intro r s₃ h₃
        cases r with
        | error err => exact Ensures.pure h₃
        | ok _ => exact Ensures.healthy_of_plain (logged_uses _ _ _ _) h₃

theorem editTask_healthy (hK : strict → Careful K) (caller : Caller) (taskId : Int)
    (body : Except String TaskMutationPayload) {s : State} (h : Healthy strict dead s.view) :
    Ensures ext K (Controller.editTask ext caller taskId body)
      (fun _ s' => Healthy strict dead s'.view) s := by
  unfold Controller.editTask
  cases body with
  | error err => exact Ensures.pure h
  | ok editInfo =>
    refine (findTask_spec taskId s).bind ?_
    rintro r s₁ ⟨h₁, -⟩
    have hs₁ : Healthy strict dead s₁.view := h₁ ▸ h
    cases r with
    | error err => exact Ensures.pure hs₁
    | ok taskModel =>
      refine (Ensures.healthy_of_plain
        (validateTaskMutationPayload_uses ext taskModel.id editInfo) hs₁).bind ?_
      intro r s₂ h₂
      cases r with
      | some err => exact Ensures.pure h₂
      | none =>
        refine (saveTask_spec (editInfo.apply taskModel) s₂).bind ?_
        rintro _ s₃ (⟨err, rfl, h₃, -⟩ | ⟨now, tasks, rfl, hsave, h₃, -⟩)
        · exact Ensures.pure (h₃ ▸ h₂)
        · -- from the save to the unscheduling, the instance may hold the old configuration
          have hbut : Healthy.But taskModel.id strict dead s₃.view :=
            h₃ ▸ (h₂.but (editInfo.apply taskModel).id).save hsave
          refine (deleteTask_spec taskModel.id s₃).bind ?_
          intro _ s₄ h₄
          have hs₄ : Healthy strict dead s₄.view := h₄ ▸ hbut.unschedule.1
          refine (Ensures.healthy_of_plain (isLocalTask_uses _) hs₄).bind ?_
          intro isLocal s₅ hs₅
          split
          · refine (addTask_spec taskModel.id s₅).bind ?_
            intro r s₆ h₆
            have hs₆ := hs₅.addOutcome hK h₆
            cases r with
            | error err => exact Ensures.pure hs₆
            | ok _ => exact Ensures.healthy_of_plain (logged_uses _ _ _ _) hs₆
          · exact Ensures.healthy_of_plain (logged_uses _ _ _ _) hs₅

theorem stopTask_healthy (caller : Caller) (taskId : Int) {s : State}
    (h : Healthy strict dead s.view) :
    Ensures ext K (Controller.stopTask caller taskId) (fun _ s' => Healthy strict dead s'.view)
      s := by
  refine (findTask_spec taskId s).bind ?_
  rintro r s₁ ⟨h₁, hrow, -⟩
  have hs₁ : Healthy strict dead s₁.view := h₁ ▸ h
  cases r with
  | error err => exact Ensures.pure hs₁
  | ok taskModel =>
    have hid : taskModel.id = taskId :=
      Table.rowId_of_row? (Table.byId_eq_some.mp (hrow taskModel rfl)).1
    refine (deleteTask_spec taskId s₁).bind ?_
    intro _ s₂ h₂
    obtain ⟨hs₂, hnone⟩ := (hs₁.but taskId).unschedule
    rw [← h₂] at hs₂ hnone
    refine (saveTask_spec { taskModel with isDisable := true } s₂).bind ?_
    rintro _ s₃ (⟨err, rfl, h₃, -⟩ | ⟨now, tasks, rfl, hsave, h₃, -⟩)
    · exact Ensures.healthy_of_plain (logged_uses _ _ _ _) (h₃ ▸ hs₂)
    · refine Ensures.healthy_of_plain (logged_uses _ _ _ _) ?_
      rw [h₃]
      refine (hs₂.but ({ taskModel with isDisable := true } : Task).id).save_fresh hsave fun ti hti => ?_
      rw [show ({ taskModel with isDisable := true } : Task).id = taskId from hid, hnone] at hti
      cases hti

theorem startTask_healthy (hK : strict → Careful K) (caller : Caller) (taskId : Int) {s : State}
    (h : Healthy strict dead s.view) :
    Ensures ext K (Controller.startTask caller taskId) (fun _ s' => Healthy strict dead s'.view)
      s := by
  refine (findTask_spec taskId s).bind ?_
  rintro r s₁ ⟨h₁, hrow, -⟩
  have hs₁ : Healthy strict dead s₁.view := h₁ ▸ h
  cases r with
  | error err => exact Ensures.pure hs₁
  | ok taskModel =>
    have hbyId : s₁.view.tasks.byId taskId = some taskModel := h₁ ▸ hrow taskModel rfl
    obtain ⟨hrow', hlive⟩ := Table.byId_eq_some.mp hbyId
    have hid : taskModel.id = taskId := Table.rowId_of_row? hrow'
    refine (saveTask_spec { taskModel with isDisable := false } s₁).bind ?_
    rintro _ s₂ (⟨err, rfl, h₂, -⟩ | ⟨now, tasks, rfl, hsave, h₂, -⟩)
    · exact Ensures.pure (h₂ ▸ hs₁)
    · have hs₂ : Healthy strict dead s₂.view := by
        rw [h₂]
        refine (hs₁.but ({ taskModel with isDisable := false } : Task).id).save_fresh hsave
          fun ti hti => ?_
        -- the instance of a scheduled task is enabled, so its row was: nothing changes
        obtain ⟨row, hrow₂, hconf, hstrict⟩ := hs₁.fresh _ ti hti
        have hsame : row = taskModel := by
          rw [show ({ taskModel with isDisable := false } : Task).id = taskId from hid,
            hrow', Option.some.injEq] at hrow₂
          exact hrow₂.symm
        subst hsame
        have henabled : row.isDisable = false := by
          have hdis : row.configuration.isDisable = ti.taskInfo.configuration.isDisable := by
            rw [hconf]
          exact hdis.trans (hs₁.sound.enabled _ ti hti)
        have heq : ({ row with isDisable := false } : Task) = row := by
          cases row
          simp only at henabled
          simp [henabled]
        rw [heq]
        exact ⟨hconf, hstrict⟩
      refine (addTask_spec taskId s₂).bind ?_
      intro r s₃ h₃
      have hs₃ := hs₂.addOutcome hK h₃
      cases r with
      | error err => exact Ensures.pure hs₃
      | ok _ => exact Ensures.healthy_of_plain (logged_uses _ _ _ _) hs₃

/-- `DeleteTask` also makes the task a deleted one when it succeeds. -/
theorem deleteTask_healthy (hK : strict → Careful K) (caller : Caller) (taskId : Int) {s : State}
    (h : Healthy strict dead s.view) :
    Ensures ext K (Controller.deleteTask caller taskId) (fun reply s' =>
      Healthy strict dead s'.view ∧ (∀ r, reply = .response r → r.isSuccess = true →
        Healthy strict (fun t => t = taskId ∨ dead t) s'.view)) s := by
  refine (findTask_spec taskId s).bind ?_
  rintro r s₁ ⟨h₁, hrow, -⟩
  have hs₁ : Healthy strict dead s₁.view := h₁ ▸ h
  cases r with
  | error err =>
    refine Ensures.pure ⟨hs₁, ?_⟩
    intro r hr hsuccess
    cases hr
    exact absurd hsuccess (by decide)
  | ok taskModel =>
    have hbyId : s₁.view.tasks.byId taskId = some taskModel := h₁ ▸ hrow taskModel rfl
    have hid : taskModel.id = taskId := Table.rowId_of_row? (Table.byId_eq_some.mp hbyId).1
    refine (deleteTaskRow_spec taskModel.id s₁).bind ?_
    rintro _ s₂ (⟨err, rfl, h₂, -⟩ | ⟨now, rfl, hfree, h₂, -⟩)
    · refine Ensures.pure ⟨h₂ ▸ hs₁, ?_⟩
      intro r hr hsuccess
      cases hr
      exact absurd hsuccess (by decide)
    · have hdel := hs₁.delete now fun hs => hfree (hK hs)
      rw [← h₂, hid] at hdel
      have hgone : Healthy strict (fun t => t = taskId ∨ dead t) s₂.view := by
        refine hdel.mono fun t ht => ht.imp_left fun heq => ⟨heq, ?_⟩
        rw [hbyId]
        rfl
      refine (Ensures.healthy_of_plain (logged_uses caller taskModel "DeleteTask" _) hgone).mono ?_
      intro _ s₃ h₃
      exact ⟨h₃.mono fun t ht => .inr ht, fun _ _ _ => h₃⟩

/-! ## Importing -/

/-- Inside the transaction of an import: the schedule is healthy, and would be with the rows
    as they were at its beginning. -/
structure InTransaction (strict : Prop) (dead : Int → Prop) (v : View) : Prop where
  healthy : Healthy strict dead v
  before : ∃ tasks, v.savepoint = some tasks ∧ Healthy strict dead { v with tasks := tasks }

theorem InTransaction.rolledBack {v : View} (h : InTransaction strict dead v) :
    Healthy strict dead { v with tasks := v.savepoint.getD v.tasks, savepoint := none } := by
  obtain ⟨tasks, hsave, hbefore⟩ := h.before
  rw [hsave]
  exact ⟨hbefore.sound, hbefore.fresh, hbefore.dead_gone⟩

theorem rollbackWith_healthy {α : Type} (err : String) {s : State}
    (h : InTransaction strict dead s.view) :
    Ensures ext K (rollbackWith err : Program (Except String α)) (fun r s' =>
      r = .error err ∧ Healthy strict dead s'.view) s := by
  refine (rollbackTx_spec s).bind fun _ s' hview => Ensures.pure ⟨rfl, ?_⟩
  rw [hview]
  exact h.rolledBack

/-- The inserted tasks are new ones, so none of them is scheduled. -/
theorem insertItems_healthy (items : List TaskTransferItem) (oldToNew : OldToNew)
    (createdTasks : List Task) {s : State} (h : InTransaction strict dead s.view)
    (hnew : ∀ t ∈ createdTasks, s.view.taskList.lookup t.id = none) :
    Ensures ext K (insertItems ext items oldToNew createdTasks) (fun r s' =>
      (∀ err, r = .error err → Healthy strict dead s'.view) ∧
      (∀ res, r = .ok res → InTransaction strict dead s'.view ∧
        ∀ t ∈ res.2, s'.view.taskList.lookup t.id = none)) s := by
  induction items generalizing oldToNew createdTasks s with
  | nil =>
    refine Ensures.pure ⟨(fun err herr => by cases herr), ?_⟩
    intro res hres
    cases hres
    exact ⟨h, hnew⟩
  | cons item items ih =>
    refine (Ensures.of_plain (validateTaskMutationPayload_uses ext 0 item.payload) s).bind ?_
    intro r s₁ h₁
    rw [← h₁] at h hnew
    cases r with
    | some err =>
      refine (rollbackWith_healthy err h).mono ?_
      rintro _ s₂ ⟨rfl, h₂⟩
      exact ⟨fun _ _ => h₂, fun res hres => by cases hres⟩
    | none =>
      refine (createTask_spec _ s₁).bind ?_
      rintro _ s₂ (⟨err, rfl, h₂, -⟩ | ⟨now, rfl, h₂, -⟩)
      · refine (rollbackWith_healthy err.text (h₂ ▸ h)).mono ?_
        rintro _ s₃ ⟨rfl, h₃⟩
        exact ⟨fun _ _ => h₃, fun res hres => by cases hres⟩
      · refine ih _ _ ?_ ?_
        · rw [h₂]
          obtain ⟨tasks, hsave, hbefore⟩ := h.before
          exact ⟨h.healthy.create _ now, tasks, hsave, hbefore⟩
        · intro t ht
          rw [h₂]
          rcases List.mem_append.mp ht with hold | hnewest
          · exact hnew t hold
          · rw [List.mem_singleton.mp hnewest]
            exact h.healthy.lookup_nextId

theorem resolveDependency_uses (oldToNew : OldToNew) (dependsOnTaskID : Int) :
    (resolveDependency oldToNew dependsOnTaskID).Uses Plain := by
  unfold resolveDependency
  split
  · trivial
  · refine ⟨trivial, fun r => ?_⟩
    cases r <;> trivial

theorem linkItems_healthy (oldToNew : OldToNew) (pairs : List (TaskTransferItem × Task))
    {s : State} (h : InTransaction strict dead s.view)
    (hnew : ∀ p ∈ pairs, s.view.taskList.lookup p.2.id = none) :
    Ensures ext K (linkItems oldToNew pairs) (fun r s' =>
      (∀ err, r = .error err → Healthy strict dead s'.view) ∧
      (∀ tasks, r = .ok tasks → InTransaction strict dead s'.view)) s := by
  induction pairs generalizing s with
  | nil => exact Ensures.pure ⟨(fun err herr => by cases herr), fun _ _ => h⟩
  | cons p pairs ih =>
    obtain ⟨item, created⟩ := p
    have hfree := hnew (item, created) List.mem_cons_self
    have hrest : ∀ p ∈ pairs, s.view.taskList.lookup p.2.id = none :=
      fun p hp => hnew p (List.mem_cons_of_mem _ hp)
    -- what the loop does with the items after this one
    have hnext : ∀ (s' : State) (t : Task), InTransaction strict dead s'.view →
        s'.view.taskList = s.view.taskList → Ensures ext K
          (linkItems oldToNew pairs >>= fun tasks => pure (tasks.map (t :: ·))) (fun r s' =>
          (∀ err, r = .error err → Healthy strict dead s'.view) ∧
          (∀ tasks, r = .ok tasks → InTransaction strict dead s'.view)) s' := by
      intro s' t hs' hlist
      refine (ih hs' (hlist ▸ hrest)).bind ?_
      rintro r s₁ ⟨herr, hok⟩
      cases r with
      | error err =>
        exact Ensures.pure ⟨fun _ _ => herr err rfl, fun _ hcase => by cases hcase⟩
      | ok tasks =>
        exact Ensures.pure ⟨(fun _ hcase => by cases hcase), fun _ _ => hok tasks rfl⟩
    have hback : ∀ (err : String) (s' : State), InTransaction strict dead s'.view →
        Ensures ext K (rollbackWith err : Program (Except String (List Task))) (fun r s' =>
          (∀ err, r = .error err → Healthy strict dead s'.view) ∧
          (∀ tasks, r = .ok tasks → InTransaction strict dead s'.view)) s' := by
      intro err s' hs'
      refine (rollbackWith_healthy err hs').mono ?_
      rintro _ s₁ ⟨rfl, h₁⟩
      exact ⟨fun _ _ => h₁, fun _ hcase => by cases hcase⟩
    rw [linkItems]
    split
    · exact hnext s created h rfl
    · refine (Ensures.of_plain (resolveDependency_uses oldToNew item.dependsOnTaskID) s).bind ?_
      intro r s₁ h₁
      cases r with
      | none => exact hback _ s₁ (h₁ ▸ h)
      | some dependencyID =>
        dsimp only
        split
        · exact hback _ s₁ (h₁ ▸ h)
        · refine (saveTask_spec { created with dependsOnTaskID := dependencyID } s₁).bind ?_
          rintro _ s₂ (⟨err, rfl, h₂, -⟩ | ⟨now, tasks, rfl, hsave, h₂, -⟩)
          · exact hback _ s₂ (h₂ ▸ h₁ ▸ h)
          · rw [h₁] at hsave h₂
            refine hnext s₂ _ ?_ (by rw [h₂])
            obtain ⟨before, hpoint, hbefore⟩ := h.before
            rw [h₂]
            refine ⟨?_, before, hpoint, hbefore⟩
            refine (h.healthy.but _).save_fresh hsave fun ti hti => ?_
            rw [show ({ created with dependsOnTaskID := dependencyID } : Task).id = created.id
              from rfl, hfree] at hti
            cases hti

theorem importTasks_healthy (body : Except String (List TaskTransferItem)) {s : State}
    (h : Healthy strict dead s.view) :
    Ensures ext K (Controller.importTasks ext body) (fun _ s' => Healthy strict dead s'.view)
      s := by
  unfold Controller.importTasks
  cases body with
  | error err => exact Ensures.pure h
  | ok items =>
    dsimp only
    split
    · exact Ensures.pure h
    · have himport : Ensures ext K (importTaskItems ext items)
          (fun _ s' => Healthy strict dead s'.view) s := by
        refine (beginTx_spec s).bind ?_
        rintro _ s₁ (⟨err, rfl, h₁, -⟩ | ⟨rfl, h₁⟩)
        · exact Ensures.pure (h₁ ▸ h)
        · have htx : InTransaction strict dead s₁.view := by
            rw [h₁]
            exact ⟨⟨h.sound, h.fresh, h.dead_gone⟩, _, rfl, ⟨h.sound, h.fresh, h.dead_gone⟩⟩
          refine (insertItems_healthy items ∅ [] htx (by simp)).bind ?_
          rintro r s₂ ⟨herr, hok⟩
          cases r with
          | error err => exact Ensures.pure (herr err rfl)
          | ok res =>
            obtain ⟨htx₂, hnew⟩ := hok res rfl
            refine (linkItems_healthy res.1 (items.zip res.2) htx₂
              fun p hp => hnew p.2 (List.of_mem_zip hp).2).bind ?_
            rintro r s₃ ⟨herr, hok⟩
            cases r with
            | error err => exact Ensures.pure (herr err rfl)
            | ok tasks =>
              have htx₃ := hok tasks rfl
              refine (commitTx_spec s₃).bind ?_
              rintro _ s₄ (⟨err, rfl, h₄, -⟩ | ⟨rfl, h₄⟩)
              · exact Ensures.pure (h₄ ▸ htx₃.rolledBack)
              · refine Ensures.pure ?_
                rw [h₄]
                exact ⟨htx₃.healthy.sound, htx₃.healthy.fresh, htx₃.healthy.dead_gone⟩
      refine himport.bind ?_
      intro r s' hs'
      cases r <;> exact Ensures.pure hs'

end Handlers

/-! ## The node requests -/

/-- A statement on the node table leaves the task table alone. -/
theorem DbOp.exec_tasks {o : DbOp} (ho : NodeWork (.db o)) (c : Choice) (now : Time)
    (d : Database) :
    (o.exec c now d).2.task = d.task ∧ (o.exec c now d).2.savepoint = d.savepoint := by
  cases o with
  | createNode row =>
    refine statement_keeps (I := fun d' => d'.task = d.task ∧ d'.savepoint = d.savepoint)
      ⟨rfl, rfl⟩ fun a d' h => ?_
    split at h <;> cases h
    exact ⟨rfl, rfl⟩
  | saveNode row =>
    refine statement_keeps (I := fun d' => d'.task = d.task ∧ d'.savepoint = d.savepoint)
      ⟨rfl, rfl⟩ fun a d' h => ?_
    split at h
    · obtain ⟨nodes, -, hd⟩ := Option.map_eq_some_iff.mp h
      cases hd
      exact ⟨rfl, rfl⟩
    · cases h
  | deleteNode id =>
    refine statement_keeps (I := fun d' => d'.task = d.task ∧ d'.savepoint = d.savepoint)
      ⟨rfl, rfl⟩ fun a d' h => ?_
    cases h
    exact ⟨rfl, rfl⟩
  | _ =>
    refine ⟨(DbOp.exec_tables ?_ c now d).1, (DbOp.exec_tables ?_ c now d).2.1⟩ <;>
    exact keepsView_of_plain (.db _) ho

/-- What such an operation can change of the view are the nodes. -/
theorem view_of_nodeWork {ext : Externals} {o : Op} {c : Choice} {s s' : State} {r : o.Res}
    (ho : NodeWork o) (h : exec ext o c s = some (r, s')) :
    s'.view = { s.view with nodes := s'.view.nodes } := by
  cases o with
  | db o =>
    obtain ⟨-, -, rfl⟩ := exec_db h
    obtain ⟨htask, hsave⟩ := DbOp.exec_tasks ho c (s.clock + c.elapsed) s.db
    simp only [State.view, htask, hsave]
  | sched o => exact ho.elim
  | run o => exact ho.elim
  | world o => rw [view_of_keepsView (keepsView_of_plain (.world o) ho) h]

section NodeHandlers

variable {ext : Externals} {K : State → Op → Choice → Prop} {dead : Int → Prop}

theorem Ensures.healthy_of_nodeWork {α : Type} {p : Program α} (hp : p.Uses NodeWork)
    {s : State} (h : Healthy False dead s.view) :
    Ensures ext K p (fun _ s' => Healthy False dead s'.view) s := by
  refine hp.wp (I := fun s : State => Healthy False dead s.view) (fun o s₁ ho hs => ⟨trivial, ?_⟩) h
  rintro r s₂ ⟨c, -, hexec⟩
  rw [view_of_nodeWork ho hexec]
  refine ⟨hs.sound, fun t ti hti => ?_, hs.dead_gone⟩
  obtain ⟨row, hrow, hconf, -⟩ := hs.fresh t ti hti
  exact ⟨row, hrow, hconf, False.elim⟩

end NodeHandlers

/-! ## All requests -/

section AllRequests

variable {ext : Externals} {K : State → Op → Choice → Prop} {strict : Prop} {dead : Int → Prop}

/-- Every task request keeps the schedule healthy. -/
theorem taskRequest_healthy (hK : strict → Careful K) {req : Request}
    (hreq : req.isTaskRequest = true) (caller : Caller) {s : State}
    (h : Healthy strict dead s.view) :
    Ensures ext K (req.handle ext caller) (fun _ s' => Healthy strict dead s'.view) s := by
  cases req with
  | addTask body => exact addTask_healthy hK caller body h
  | editTask taskId body => exact editTask_healthy hK caller taskId body h
  | deleteTask taskId => exact (deleteTask_healthy hK caller taskId h).mono fun _ _ h' => h'.1
  | startTask taskId => exact startTask_healthy hK caller taskId h
  | stopTask taskId => exact stopTask_healthy caller taskId h
  | importTasks body => exact importTasks_healthy body h
  | _ => cases hreq

/-- Every node request keeps it, the placement of the tasks apart. -/
theorem nodeRequest_healthy {req : Request} (hreq : req.isNodeRequest = true) (caller : Caller)
    {s : State} (h : Healthy False dead s.view) :
    Ensures ext K (req.handle ext caller) (fun _ s' => Healthy False dead s'.view) s := by
  exact Ensures.healthy_of_nodeWork (nodeRequest_uses hreq caller) h

end AllRequests

end Gonitor.Requests
