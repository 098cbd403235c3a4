import Gonitor.Requests.Effects

/-!
# Scheduling When the Database Answers

`Manager.AddTask` decides whether the master schedules a task: the task is enabled, not scheduled
yet, local, and cron parses its schedule.  Where no operation of the database fails, the decision
is a function of the tables (`addTask_exact`); the functions it is made of are specified in the
same way.
-/

namespace Gonitor.Integrity

open Gonitor.Model Gonitor.Server Gonitor.Requests AtomicProgram SoftDelete

/-- The master takes the task on: it is local, and cron parses its schedule. -/
def Places (ext : Externals) (v : View) (row : Task) : Prop :=
  v.IsLocal row.nodeID ∧ ext.cronParse row.schedule = true

section Exact

variable {ext : Externals} {K : State → Op → Choice → Prop}

/-- A lookup by key that cannot fail. -/
theorem findNode_exact (site : NodeLookup) (id : Int) (s : State) :
    Ensures ext K (findNode site id) (fun r s' => s'.view = s.view ∧
      (∀ node, r = .ok node → s.view.nodes.byId id = some node) ∧
      ∀ err, r = .error err → NoDbFailure K → s.view.nodes.byId id = none) s := by
  refine Ensures.op fun c r s' hK h => Ensures.pure ⟨?_, ?_, ?_⟩
  · exact view_of_keepsView (show (Op.db (.findNode site id)).KeepsView from trivial) h
  · obtain ⟨-, rfl, -⟩ := exec_db h
    intro node hnode
    exact query_ok hnode
  · obtain ⟨-, rfl, -⟩ := exec_db h
    intro err herr hsure
    rcases query_error herr with hfail | hnone
    · simp [hsure _ _ _ hK] at hfail
    · exact hnone

/-- The tasks of a node that is not there count as local. -/
theorem isLocal_of_missing {v : View} {nodeID : Int} (h : v.nodes.byId nodeID = none) :
    v.IsLocal nodeID := by
  refine .inr fun node hnode => ?_
  rw [h] at hnode
  cases hnode

/-- Those of a live node are local if it is the master. -/
theorem isLocal_iff_of_found {v : View} {nodeID : Int} {node : Node} (hne : nodeID ≠ 0)
    (h : v.nodes.byId nodeID = some node) : v.IsLocal nodeID ↔ node.isMaster = true := by
  simp only [View.IsLocal, hne, h, false_or, Option.some.injEq]
  exact ⟨fun hall => hall node rfl, fun hmaster node' heq => heq ▸ hmaster⟩

/-- The lookup that both `isLocalTask` make. -/
theorem lookupIsLocal_exact (hsure : NoDbFailure K) (site : NodeLookup) {nodeID : Int}
    (hne : nodeID ≠ 0) {k : Except DbError Node → Program Bool}
    (hmissing : ∀ err, k (.error err) = pure true)
    (hfound : ∀ node, k (.ok node) = pure node.isMaster) (s : State) :
    Ensures ext K (findNode site nodeID >>= k) (fun isLocal s' => s'.view = s.view ∧
      (isLocal = true ↔ s.view.IsLocal nodeID)) s := by
  refine (findNode_exact site nodeID s).bind ?_
  rintro r s' ⟨hview, hok, hnone⟩
  cases r with
  | error err =>
    rw [hmissing]
    apply Ensures.pure
    simp [hview, isLocal_of_missing (hnone err rfl hsure)]
  | ok node =>
    rw [hfound]
    exact Ensures.pure ⟨hview, (isLocal_iff_of_found hne (hok node rfl)).symm⟩

theorem managerIsLocalTask_exact (hsure : NoDbFailure K) (t : Task) (s : State) :
    Ensures ext K (Gonitor.Task.isLocalTask t) (fun isLocal s' => s'.view = s.view ∧
      (isLocal = true ↔ s.view.IsLocal t.nodeID)) s := by
  unfold Gonitor.Task.isLocalTask
  split
  · rename_i hzero
    exact Ensures.pure ⟨rfl, by simp [View.IsLocal, hzero]⟩
  · rename_i hne
    exact lookupIsLocal_exact hsure .managerIsLocalTask hne (fun _ => rfl) (fun _ => rfl) s

theorem controllerIsLocalTask_exact (hsure : NoDbFailure K) (t : Task) (s : State) :
    Ensures ext K (Controller.isLocalTask t) (fun isLocal s' => s'.view = s.view ∧
      (isLocal = true ↔ s.view.IsLocal t.nodeID)) s := by
  unfold Controller.isLocalTask
  split
  · rename_i hzero
    exact Ensures.pure ⟨rfl, by simp [View.IsLocal, hzero]⟩
  · rename_i hne
    exact lookupIsLocal_exact hsure .controllerIsLocalTask hne (fun _ => rfl) (fun _ => rfl) s

/-- `taskInstance.start` fails exactly where cron does not parse the schedule, whatever happens to
    the database. -/
theorem startInstance_exact (taskId : Int) (row : Task) (s : State) :
    Ensures ext K (Gonitor.Task.startInstance taskId row) (fun r s' =>
      (ext.cronParse row.schedule = true ∧ r = .ok () ∧
        s'.view = s.view.schedule taskId row) ∨
      (ext.cronParse row.schedule = false ∧ (∃ err, r = .error err) ∧ s'.view = s.view)) s := by
  refine Ensures.op fun c r s₁ _ h₁ => ?_
  obtain ⟨-, rfl, rfl⟩ := exec_sched h₁
  simp only [SchedOp.exec]
  split
  · rename_i hparse
    refine Ensures.op fun c r s₂ _ h₂ => Ensures.pure (.inl ⟨hparse, rfl, ?_⟩)
    obtain ⟨-, -, rfl⟩ := exec_sched h₂
    rfl
  · rename_i hparse
    exact Ensures.pure (.inr ⟨by simpa using hparse, ⟨_, rfl⟩, rfl⟩)

/-- **What `Manager.AddTask` decides.**  A task that is listed stays as it is; an enabled, live task
    that is not listed is scheduled under its row if the master takes it on. -/
theorem addTask_exact (hsure : NoDbFailure K) (taskId : Int) (s : State) :
    Ensures ext K (Gonitor.Task.addTask taskId) (fun r s' =>
      ((s.view.taskList.lookup taskId).isSome = true → s'.view = s.view) ∧
      ∀ row, s.view.taskList.lookup taskId = none → s.view.tasks.byId taskId = some row →
        (row.isDisable = false → Places ext s.view row →
          r = .ok () ∧ s'.view = s.view.schedule taskId row) ∧
        (row.isDisable = true ∨ ¬ Places ext s.view row → s'.view = s.view)) s := by
  refine (taskListGet_spec taskId s).bind ?_
  rintro r s₁ ⟨h₁, rfl⟩
  cases hti : s.view.taskList.lookup taskId with
  | some ti =>
    -- the task is listed
    apply Ensures.pure
    constructor
    · exact fun _ => h₁
    · intro row hnone
      cases hnone
  | none =>
    refine (findTask_spec taskId s₁).bind ?_
    rintro r s₂ ⟨h₂, hrow, hnone⟩
    rw [h₁] at h₂ hrow hnone
    cases r with
    | error err =>
      refine Ensures.pure ⟨nofun, fun row _ hbyId => ?_⟩
      rw [hnone err rfl hsure] at hbyId
      cases hbyId
    | ok row =>
      have hfound := hrow row rfl
      -- the row the handler has read is the only one there is
      have hsame : ∀ row', s.view.tasks.byId taskId = some row' → row' = row := by
        intro row' hrow'
        rw [hfound, Option.some.injEq] at hrow'
        exact hrow'.symm
      dsimp only
      split
      · -- a disabled task is not scheduled
        rename_i hdisabled
        refine Ensures.pure ⟨nofun, fun row' _ hrow' => ⟨fun henabled => ?_, fun _ => h₂⟩⟩
        rw [hsame row' hrow', hdisabled] at henabled
        cases henabled
      · rename_i henabled
        refine (managerIsLocalTask_exact hsure row s₂).bind ?_
        rintro isLocal s₃ ⟨h₃, hlocal⟩
        rw [h₂] at h₃ hlocal
        split
        · rename_i hyes
          refine (startInstance_exact taskId row s₃).mono ?_
          rintro r s₄ (⟨hparse, rfl, h₄⟩ | ⟨hparse, -, h₄⟩)
          · refine ⟨nofun, fun row' _ hrow' => ?_⟩
            rw [hsame row' hrow', h₄, h₃]
            refine ⟨fun _ _ => ⟨rfl, rfl⟩, ?_⟩
            rintro (hdisabled | hplaces)
            · exact absurd hdisabled henabled
            · exact absurd ⟨hlocal.mp hyes, hparse⟩ hplaces
          · refine ⟨nofun, fun row' _ hrow' => ?_⟩
            rw [hsame row' hrow', h₄, h₃]
            refine ⟨fun _ hplaces => ?_, fun _ => rfl⟩
            rw [hplaces.2] at hparse
            cases hparse
        · -- the task of an edge node is left to it
          rename_i hno
          refine Ensures.pure ⟨nofun, fun row' _ hrow' => ?_⟩
          rw [hsame row' hrow', h₃]
          exact ⟨fun _ hplaces => absurd (hlocal.mpr hplaces.1) hno, fun _ => rfl⟩

end Exact

end Gonitor.Integrity
