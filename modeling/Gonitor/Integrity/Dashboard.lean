import Gonitor.Integrity.Restart
import Mathlib.Algebra.GroupWithZero.Nat

/-!
# What the Dashboard Counts

Every second the push service sends a message for each instance in `TaskList`, and one with counts;
the settings page and the metrics count rows.  Some of these numbers come from the task table, others
from the scheduler, so they agree only because the schedule and the table do.

A tick and a request for the counts are modelled on the states between requests.

## Main Results

- `tick_agrees`: a tick sends one message for each scheduled task, with what is stored, and its counts of
  enabled tasks and of processes are those of the messages.
- `counts_add_up`: the enabled tasks are the scheduled ones and those of the edge nodes.
-/

namespace Gonitor.Integrity

open Gonitor.Model Gonitor.Server Gonitor.Controller Gonitor.Requests AtomicProgram SoftDelete

/-! ## What is sent -/

/-- `subscription.TaskInfo`, as `SendTaskInfoFormOrm` fills it in. -/
structure TaskInfo where
  id : Int
  name : String
  lastRunTime : String
  nextRunTime : String
  runningCount : Nat
  isDisable : Bool

/-- The message about an instance that has the entry `e`. -/
def taskInfoOf (times : EntryID → String × String) (d : Scheduler) (ti : TaskInstance) (e : EntryID) :
    TaskInfo where
  id := ti.taskInfo.id
  name := ti.taskInfo.name
  lastRunTime := (times e).1
  nextRunTime := (times e).2
  runningCount := (d.running ti.entryId).length
  isDisable := ti.taskInfo.isDisable

/-- `pushNewestTaskInfo`; `times` are the last and the next run that cron has noted for an entry. -/
def pushNewestTaskInfo (times : EntryID → String × String) (d : Scheduler) (ti : TaskInstance) :
    List TaskInfo :=
  (d.cron.entries.filter fun entry => entry.id == ti.entryId).map fun entry =>
    taskInfoOf times d ti entry.id

/-- The instances in `TaskList`, in some order. -/
def instances (d : Scheduler) : List TaskInstance := d.taskList.entries.map Sigma.snd

/-- The messages that a tick of `startPushService` sends about tasks. -/
def pushTaskInfos (times : EntryID → String × String) (d : Scheduler) : List TaskInfo :=
  (instances d).flatMap (pushNewestTaskInfo times d)

/-- `subscription.TaskOverviewTpl` -/
structure TaskOverviewTpl where
  taskCount : Nat
  taskEnableCount : Nat
  taskOccupiedProcessCount : Nat

/-- `sendTaskOverviewDynamicInfo` -/
def sendTaskOverviewDynamicInfo (s : State) : TaskOverviewTpl where
  taskCount := (s.db.task.find fun _ => true).length
  taskEnableCount := (instances s.sched).length
  taskOccupiedProcessCount := ((instances s.sched).map fun ti => (s.sched.running ti.entryId).length).sum

/-- `systemCounts` -/
structure SystemCounts where
  tasks : Nat
  enabledTasks : Nat
  dependencyTasks : Nat
  timeoutTasks : Nat
  nodes : Nat
  onlineNodes : Nat
  users : Nat
  runningTaskGroups : Nat

/-- `collectSystemCounts`, where its queries succeed. -/
def collectSystemCounts (s : State) : SystemCounts where
  tasks := (s.db.task.find fun _ => true).length
  enabledTasks := (s.db.task.find fun t => !t.isDisable).length
  dependencyTasks := (s.db.task.find fun t => t.dependsOnTaskID > 0).length
  timeoutTasks := (s.db.task.find fun t => t.timeout > 0).length
  nodes := (s.db.node.find fun _ => true).length
  onlineNodes := (s.db.node.find fun n => n.status == 1).length
  users := (s.db.user.find fun _ => true).length
  runningTaskGroups := s.sched.taskList.keys.length

/-! ## One tick -/

section Tick

variable {times : EntryID → String × String} {d : Scheduler} {ti : TaskInstance}

/-- Among entries with different ids there is one with a given id. -/
theorem filter_eq_singleton {entries : List Entry} {e : EntryID}
    (hnodup : (entries.map Entry.id).Nodup) (he : e ∈ entries.map Entry.id) :
    ∃ x, (entries.filter fun x => x.id == e) = [x] ∧ x.id = e := by
  have hlength : (entries.filter fun x => x.id == e).length = 1 := by
    rw [← List.countP_eq_length_filter, ← List.count_eq_one_of_mem hnodup he, List.count,
      List.countP_map]
    rfl
  obtain ⟨x, hx⟩ := List.length_eq_one_iff.mp hlength
  have hmem : x ∈ entries.filter fun x => x.id == e := by simp [hx]
  exact ⟨x, hx, by simpa using (List.mem_filter.mp hmem).2⟩

/-- An instance with its entry is one message. -/
theorem pushNewestTaskInfo_eq (hnodup : (d.cron.entries.map Entry.id).Nodup)
    (hentry : ti.entryId ∈ d.cron.entries.map Entry.id) :
    pushNewestTaskInfo times d ti = [taskInfoOf times d ti ti.entryId] := by
  obtain ⟨x, hx, hid⟩ := filter_eq_singleton hnodup hentry
  simp [pushNewestTaskInfo, hx, hid]

theorem lookup_of_mem_entries {x : Sigma fun _ : Int => TaskInstance} (h : x ∈ d.taskList.entries) :
    d.taskList.lookup x.1 = some x.2 := AList.mem_lookup_iff.mpr h

/-- So a tick sends a message for each instance. -/
theorem pushTaskInfos_eq (hsound : ScheduleSound d.cron d.taskList)
    (hentry : ∀ t ti, d.taskList.lookup t = some ti → ti.entryId ∈ d.cron.entries.map Entry.id) :
    pushTaskInfos times d = (instances d).map fun ti => taskInfoOf times d ti ti.entryId := by
  rw [pushTaskInfos, List.map_eq_flatMap]
  apply List.flatMap_congr
  intro ti hti
  obtain ⟨x, hx, rfl⟩ := List.mem_map.mp hti
  exact pushNewestTaskInfo_eq hsound.entry_nodup (hentry x.1 x.2 (lookup_of_mem_entries hx))

/-- The ids of the instances are the keys. -/
theorem map_id_instances (hsound : ScheduleSound d.cron d.taskList) :
    (instances d).map (fun ti => ti.taskInfo.id) = d.taskList.keys := by
  rw [instances, List.map_map]
  apply List.map_congr_left
  intro x hx
  exact (hsound.key_eq x.1 x.2 (lookup_of_mem_entries hx)).2

theorem length_instances (d : Scheduler) : (instances d).length = d.taskList.keys.length := by
  simp [instances, AList.keys, List.keys]

end Tick

/-! ## In every run -/

section Runs

variable {ext : Externals} {K : State → Op → Choice → Prop} {s : State}

/-- **A tick agrees with what is stored**: where the database answers, it sends one message for each
    scheduled task, among them every task that is to be scheduled, and each with the name and the switch
    of the stored row; the counts of enabled tasks and of processes are those of the messages. -/
theorem tick_agrees (hsure : NoDbFailure K) (h : Reachable ext K TaskOrNodeRequest s)
    (times : EntryID → String × String) :
    (pushTaskInfos times s.sched).map TaskInfo.id = s.sched.taskList.keys ∧
    (∀ t, View.Demands ext s.view t → t ∈ (pushTaskInfos times s.sched).map TaskInfo.id) ∧
    (∀ info ∈ pushTaskInfos times s.sched, ∃ row, s.db.task.row? info.id = some row ∧
      info.name = row.name ∧ info.isDisable = row.isDisable) ∧
    (sendTaskOverviewDynamicInfo s).taskEnableCount = (pushTaskInfos times s.sched).length ∧
    (sendTaskOverviewDynamicInfo s).taskOccupiedProcessCount =
      ((pushTaskInfos times s.sched).map TaskInfo.runningCount).sum := by
  have hcomplete := reachable_complete hsure h
  have hsound : ScheduleSound s.sched.cron s.sched.taskList := hcomplete.entered.sound
  have hinfos : pushTaskInfos times s.sched =
      (instances s.sched).map fun ti => taskInfoOf times s.sched ti ti.entryId :=
    pushTaskInfos_eq hsound hcomplete.entered.entry
  have hkeys : (pushTaskInfos times s.sched).map TaskInfo.id = s.sched.taskList.keys := by
    rw [hinfos, List.map_map, ← map_id_instances hsound]
    rfl
  refine ⟨hkeys, ?_, ?_, ?_, ?_⟩
  · intro t hdemands
    rw [hkeys]
    exact AList.lookup_isSome.mp (hcomplete.covered t trivial hdemands)
  · intro info hinfo
    rw [hinfos] at hinfo
    obtain ⟨ti, hti, rfl⟩ := List.mem_map.mp hinfo
    obtain ⟨x, hx, rfl⟩ := List.mem_map.mp hti
    have hlookup := lookup_of_mem_entries hx
    obtain ⟨row, hrow, hconf, -⟩ := (reachable_healthy h).fresh x.1 x.2 hlookup
    have hid : (taskInfoOf times s.sched x.2 x.2.entryId).id = x.1 := (hsound.key_eq x.1 x.2 hlookup).2
    refine ⟨row, hid ▸ hrow, ?_, ?_⟩
    · exact (congrArg Task.name hconf).symm
    · exact (congrArg Task.isDisable hconf).symm
  · simp [hinfos, sendTaskOverviewDynamicInfo]
  · rw [hinfos, List.map_map]
    rfl

/-- After the one task has been stopped and started, there is one message. -/
theorem tick_agrees_startedAgain : ∃ s, Reachable plainExternals SureCarefulStep TaskRequest s ∧
    s.sched.cron.entries.map Entry.id = [2] ∧
    (pushTaskInfos (fun _ => ("", "")) s.sched).map TaskInfo.id = [1] ∧
    (sendTaskOverviewDynamicInfo s).taskEnableCount =
      (pushTaskInfos (fun _ => ("", "")) s.sched).length := by
  obtain ⟨s, hreach, hentries, hkeys, -⟩ := oneTask_startedAgain
  obtain ⟨hids, -, -, hcount, -⟩ :=
    tick_agrees noDbFailure_sureCarefulStep (reachable_taskOrNode hreach) (fun _ => ("", ""))
  exact ⟨s, hreach, hentries, hids.trans hkeys, hcount⟩

/-! ## Enabled tasks -/

/-- The task is of a live node that is not the master. -/
def onEdge (nodes : Table Node) (t : Task) : Bool :=
  t.nodeID != 0 && (nodes.byId t.nodeID).any fun node => !node.isMaster

/-- A task whose node is there is the master's or that of an edge node. -/
theorem onMaster_iff_not_onEdge {nodes : Table Node} {row : Task}
    (hthere : row.nodeID = 0 ∨ ∃ node, nodes.byId row.nodeID = some node) :
    OnMaster nodes row.nodeID ↔ onEdge nodes row = false := by
  by_cases hzero : row.nodeID = 0
  · simp [OnMaster, onEdge, hzero]
  · obtain ⟨node, hnode⟩ := hthere.resolve_left hzero
    simp [OnMaster, onEdge, hzero, hnode]

theorem find_and (t : Table Task) (p q : Task → Bool) :
    (t.find fun row => p row && q row) = (t.find p).filter q := by
  rw [Table.find, Table.find, List.filter_filter]
  apply List.filter_congr
  intro row _
  cases p row <;> cases q row <;> simp

theorem find_sublist {t : Table Task} (p : Task → Bool) : (t.find p).Sublist (t.find fun _ => true) := by
  have htrue : t.find p = (t.find fun _ => true).filter p := by
    simp [Table.find, List.filter_filter, Bool.and_comm]
  rw [htrue]
  exact List.filter_sublist

/-- The tasks in `TaskList` are the enabled ones that are not of an edge node. -/
theorem scheduled_perm (hsure : NoDbFailure K) (hcareful : Careful K)
    (h : Reachable ext K TaskRequest s)
    (hplaceable : ∀ t row, s.db.task.byId t = some row → row.isDisable = false →
      Placeable ext s.view row) :
    ((s.db.task.find fun t => !t.isDisable && !onEdge s.db.node t).map fun t => t.id).Perm
      s.sched.taskList.keys := by
  have hnodup : ((s.db.task.find fun t => !t.isDisable && !onEdge s.db.node t).map
      fun t => t.id).Nodup :=
    List.pairwise_map.mpr ((Table.pairwise_find _ _).imp fun hlt => Int.ne_of_lt hlt)
  apply (List.perm_ext_iff_of_nodup hnodup s.sched.taskList.keys_nodup).mpr
  intro t
  rw [← AList.mem_keys, ← AList.lookup_isSome, List.mem_map]
  refine Iff.trans ?_ (scheduled_iff hsure hcareful h hplaceable t).symm
  constructor
  · rintro ⟨row, hrow, rfl⟩
    obtain ⟨hbyId, hp⟩ := Table.mem_find.mp hrow
    simp only [Bool.and_eq_true, Bool.not_eq_true'] at hp
    obtain ⟨hthere, -⟩ := hplaceable row.id row hbyId hp.1
    exact ⟨row, hbyId, hp.1, (onMaster_iff_not_onEdge hthere).mpr hp.2⟩
  · rintro ⟨row, hbyId, henabled, hmaster⟩
    obtain rfl : row.id = t := (Table.mem_of_byId hbyId).2.1
    obtain ⟨hthere, -⟩ := hplaceable row.id row hbyId henabled
    have hedge : onEdge s.db.node row = false := (onMaster_iff_not_onEdge hthere).mp hmaster
    exact ⟨row, Table.mem_find.mpr ⟨hbyId, by simp [henabled, hedge]⟩, rfl⟩

/-- **The counts add up**: where the database answers and no scheduled task is deleted, if the nodes of
    the enabled tasks are there and cron parses their schedules, then the enabled tasks are the task groups
    of the scheduler, which the overview counts too, and the enabled tasks of the edge nodes. -/
theorem counts_add_up (hsure : NoDbFailure K) (hcareful : Careful K)
    (h : Reachable ext K TaskRequest s)
    (hplaceable : ∀ t row, s.db.task.byId t = some row → row.isDisable = false →
      Placeable ext s.view row) :
    (collectSystemCounts s).enabledTasks = (collectSystemCounts s).runningTaskGroups +
      (s.db.task.find fun t => !t.isDisable && onEdge s.db.node t).length ∧
    (sendTaskOverviewDynamicInfo s).taskEnableCount = (collectSystemCounts s).runningTaskGroups ∧
    (sendTaskOverviewDynamicInfo s).taskEnableCount ≤ (sendTaskOverviewDynamicInfo s).taskCount := by
  have hgroups : (collectSystemCounts s).runningTaskGroups =
      (s.db.task.find fun t => !t.isDisable && !onEdge s.db.node t).length := by
    rw [collectSystemCounts, ← (scheduled_perm hsure hcareful h hplaceable).length_eq, List.length_map]
  have hsum : (collectSystemCounts s).enabledTasks = (collectSystemCounts s).runningTaskGroups +
      (s.db.task.find fun t => !t.isDisable && onEdge s.db.node t).length := by
    rw [hgroups, find_and, find_and, collectSystemCounts, Nat.add_comm]
    exact List.length_eq_length_filter_add (onEdge s.db.node)
  have hcount : (sendTaskOverviewDynamicInfo s).taskEnableCount =
      (collectSystemCounts s).runningTaskGroups := length_instances s.sched
  refine ⟨hsum, hcount, ?_⟩
  have hfew : (collectSystemCounts s).enabledTasks ≤ (collectSystemCounts s).tasks :=
    (find_sublist _).length_le
  have htasks : (sendTaskOverviewDynamicInfo s).taskCount = (collectSystemCounts s).tasks := rfl
  omega

/-- And it is the one enabled and the one scheduled. -/
theorem counts_add_up_startedAgain : ∃ s, Reachable plainExternals SureCarefulStep TaskRequest s ∧
    s.sched.cron.entries.map Entry.id = [2] ∧ s.sched.taskList.keys = [1] ∧
    (collectSystemCounts s).enabledTasks = (collectSystemCounts s).runningTaskGroups +
      (s.db.task.find fun t => !t.isDisable && onEdge s.db.node t).length := by
  obtain ⟨s, hreach, hentries, hkeys, hplaceable, -⟩ := oneTask_startedAgain
  have hcounts := counts_add_up noDbFailure_sureCarefulStep careful_sureCarefulStep hreach
    (fun t row hrow _ => hplaceable t row hrow)
  exact ⟨s, hreach, hentries, hkeys, hcounts.1⟩

end Runs

end Gonitor.Integrity
