import Gonitor.Requests.Effects

/-!
# The Schedule Between Requests

Two stores say which tasks run: the task table and the schedule.  Six request handlers and
start-up update them by different code.  This file gives the invariant that ties them.

- `ScheduleSound`: cron entries and `TaskList` instances belong to each other, each instance
  under the key of its task.
- `View.Fresh`: the instance of a task holds the configuration of the task's row; and, where
  steps are careful (`strict`), the row is live, enabled and local.

Between two operations of a request `Fresh` can fail for the one task the request is about;
`Healthy.But` is the invariant in the meantime.
-/

namespace Gonitor.Server

open Gonitor.Model SoftDelete

/-! ## Cron entries and instances -/

/-- Every cron entry runs the job of an instance in `TaskList`; an instance sits under the
    id of its task; no two instances share an entry. -/
structure ScheduleSound (cron : Cron) (taskList : AList (fun _ : Int => TaskInstance)) : Prop where
  entry_listed : ∀ x ∈ cron.entries, ∃ t ti, taskList.lookup t = some ti ∧
    ti.entryId = x.id ∧ x.job = Gonitor.Task.wrappedJob ti.taskInfo
  key_eq : ∀ t ti, taskList.lookup t = some ti → ti.taskID = t ∧ ti.taskInfo.id = t
  entry_unique : ∀ t ti t' ti', taskList.lookup t = some ti → taskList.lookup t' = some ti' →
    ti.entryId = ti'.entryId → t = t'
  entry_lt : ∀ t ti, taskList.lookup t = some ti → ti.entryId < cron.nextID
  enabled : ∀ t ti, taskList.lookup t = some ti → ti.taskInfo.isDisable = false
  entry_nodup : (cron.entries.map Entry.id).Nodup

/-- Nothing is scheduled when the server is created. -/
theorem ScheduleSound.init : ScheduleSound ⟨[], 1⟩ ∅ where
  entry_listed := by simp
  key_eq := by simp
  entry_unique := by simp
  entry_lt := by simp
  enabled := by simp
  entry_nodup := by simp

/-- Entries have ids that were handed out. -/
theorem ScheduleSound.id_lt {cron : Cron} {taskList : AList (fun _ : Int => TaskInstance)}
    (h : ScheduleSound cron taskList) : ∀ x ∈ cron.entries, x.id < cron.nextID := by
  intro x hx
  obtain ⟨t, ti, hti, hid, -⟩ := h.entry_listed x hx
  exact hid ▸ h.entry_lt t ti hti

/-- Instances that are left after one has been erased were there before. -/
theorem lookup_of_lookup_erase {taskList : AList (fun _ : Int => TaskInstance)} {t t' : Int}
    {ti : TaskInstance} (h : (taskList.erase t).lookup t' = some ti) :
    t' ≠ t ∧ taskList.lookup t' = some ti := by
  rcases eq_or_ne t' t with rfl | hne
  · rw [AList.lookup_erase] at h
    cases h
  · rw [AList.lookup_erase_ne hne] at h
    exact ⟨hne, h⟩

/-- Erasing a key twice erases it once. -/
theorem erase_erase_self (taskList : AList (fun _ : Int => TaskInstance)) (t : Int) :
    (taskList.erase t).erase t = taskList.erase t :=
  AList.ext (List.kerase_of_notMem_keys (List.notMem_keys_kerase t taskList.nodupKeys))

theorem ScheduleSound.erase {cron : Cron} {taskList : AList (fun _ : Int => TaskInstance)}
    (h : ScheduleSound cron taskList) {t : Int} {ti : TaskInstance}
    (hti : taskList.lookup t = some ti) :
    ScheduleSound (cron.remove ti.entryId) (taskList.erase t) where
  entry_listed := by
    intro x hx
    simp only [Cron.remove, List.mem_filter, bne_iff_ne] at hx
    obtain ⟨t', ti', hti', hid, hjob⟩ := h.entry_listed x hx.1
    have hne : t' ≠ t := by
      rintro rfl
      rw [hti, Option.some.injEq] at hti'
      exact hx.2 (hti' ▸ hid.symm)
    exact ⟨t', ti', by rwa [AList.lookup_erase_ne hne], hid, hjob⟩
  key_eq t' ti' h' := h.key_eq t' ti' (lookup_of_lookup_erase h').2
  entry_unique t₁ ti₁ t₂ ti₂ h₁ h₂ :=
    h.entry_unique t₁ ti₁ t₂ ti₂ (lookup_of_lookup_erase h₁).2 (lookup_of_lookup_erase h₂).2
  entry_lt t' ti' h' := h.entry_lt t' ti' (lookup_of_lookup_erase h').2
  enabled t' ti' h' := h.enabled t' ti' (lookup_of_lookup_erase h').2
  entry_nodup := h.entry_nodup.sublist (List.filter_sublist.map Entry.id)

theorem ScheduleSound.insert {cron : Cron} {taskList : AList (fun _ : Int => TaskInstance)}
    (h : ScheduleSound cron taskList) {row : Task} (hnone : taskList.lookup row.id = none)
    (henabled : row.isDisable = false) :
    ScheduleSound (cron.addJob (Gonitor.Task.wrappedJob row))
      (taskList.insert row.id ⟨row.id, row, cron.nextID⟩) := by
  -- an instance of the new list is the new one or an old one
  have hcases : ∀ t ti, (taskList.insert row.id ⟨row.id, row, cron.nextID⟩).lookup t = some ti →
      (t = row.id ∧ ti = ⟨row.id, row, cron.nextID⟩) ∨
        (t ≠ row.id ∧ taskList.lookup t = some ti) := by
    intro t ti hti
    rcases eq_or_ne t row.id with rfl | hne
    · rw [AList.lookup_insert, Option.some.injEq] at hti
      exact .inl ⟨rfl, hti.symm⟩
    · rw [AList.lookup_insert_ne hne] at hti
      exact .inr ⟨hne, hti⟩
  constructor
  case entry_listed =>
    intro x hx
    simp only [Cron.addJob, List.mem_append, List.mem_singleton] at hx
    rcases hx with hx | rfl
    · obtain ⟨t, ti, hti, hid, hjob⟩ := h.entry_listed x hx
      have hne : t ≠ row.id := by
        rintro rfl
        rw [hnone] at hti
        cases hti
      exact ⟨t, ti, by rwa [AList.lookup_insert_ne hne], hid, hjob⟩
    · exact ⟨row.id, _, AList.lookup_insert _, rfl, rfl⟩
  case key_eq =>
    intro t ti hti
    rcases hcases t ti hti with ⟨rfl, rfl⟩ | ⟨-, hold⟩
    · exact ⟨rfl, rfl⟩
    · exact h.key_eq t ti hold
  case entry_unique =>
    intro t ti t' ti' hti hti' heq
    rcases hcases t ti hti with ⟨rfl, rfl⟩ | ⟨-, hold⟩ <;>
      rcases hcases t' ti' hti' with ⟨rfl, rfl⟩ | ⟨-, hold'⟩
    · rfl
    · exact absurd (h.entry_lt t' ti' hold') (by simp [← heq])
    · exact absurd (h.entry_lt t ti hold) (by simp [heq])
    · exact h.entry_unique t ti t' ti' hold hold' heq
  case entry_lt =>
    intro t ti hti
    rcases hcases t ti hti with ⟨rfl, rfl⟩ | ⟨-, hold⟩
    · exact Nat.lt_succ_self _
    · exact Nat.lt_succ_of_lt (h.entry_lt t ti hold)
  case enabled =>
    intro t ti hti
    rcases hcases t ti hti with ⟨rfl, rfl⟩ | ⟨-, hold⟩
    · exact henabled
    · exact h.enabled t ti hold
  case entry_nodup =>
    simp only [Cron.addJob, List.map_append, List.map_cons, List.map_nil]
    refine List.nodup_append.mpr ⟨h.entry_nodup, List.nodup_singleton _, ?_⟩
    intro i hi j hj heq
    obtain ⟨x, hx, rfl⟩ := List.mem_map.mp hi
    rw [List.mem_singleton.mp hj] at heq
    exact absurd (h.id_lt x hx) (by simp [heq])

/-! ## Instances and rows -/

/-- The instance of task `t`, if there is one, holds the configuration of the task's row;
    under `strict`, that row is moreover live, enabled and local. -/
def View.Fresh (strict : Prop) (v : View) (t : Int) : Prop :=
  ∀ ti, v.taskList.lookup t = some ti → ∃ row, v.tasks.row? t = some row ∧
    row.configuration = ti.taskInfo.configuration ∧
    (strict → live row = true ∧ v.IsLocal row.nodeID)

/-- The invariant of the schedule.  The tasks in `dead` have been deleted. -/
structure Healthy (strict : Prop) (dead : Int → Prop) (v : View) : Prop where
  sound : ScheduleSound v.cron v.taskList
  fresh : ∀ t, v.Fresh strict t
  dead_gone : ∀ t, dead t → v.tasks.byId t = none ∧ t < v.tasks.nextId

/-- The invariant while a request works on task `t`. -/
structure Healthy.But (t : Int) (strict : Prop) (dead : Int → Prop) (v : View) : Prop where
  sound : ScheduleSound v.cron v.taskList
  fresh : ∀ t', t' ≠ t → v.Fresh strict t'
  dead_gone : ∀ t, dead t → v.tasks.byId t = none ∧ t < v.tasks.nextId

section Steps

variable {strict : Prop} {dead : Int → Prop} {v : View}

theorem Healthy.but (h : Healthy strict dead v) (t : Int) : Healthy.But t strict dead v :=
  ⟨h.sound, fun t' _ => h.fresh t', h.dead_gone⟩

/-- An instance in `TaskList` has a row, live or deleted. -/
theorem Healthy.row_of_lookup (h : Healthy strict dead v) {t : Int} {ti : TaskInstance}
    (hti : v.taskList.lookup t = some ti) : ∃ row, v.tasks.row? t = some row := by
  obtain ⟨row, hrow, -⟩ := h.fresh t ti hti
  exact ⟨row, hrow⟩

/-- Taking the task off the schedule makes the invariant whole again. -/
theorem Healthy.But.unschedule {t : Int} (h : Healthy.But t strict dead v) :
    Healthy strict dead (v.unschedule t) ∧ (v.unschedule t).taskList.lookup t = none := by
  cases hti : v.taskList.lookup t with
  | none =>
    have hsame : v.unschedule t = v := by rw [View.unschedule, hti]
    rw [hsame]
    refine ⟨⟨h.sound, fun t' => ?_, h.dead_gone⟩, hti⟩
    rcases eq_or_ne t' t with rfl | hne
    · intro ti hlookup
      rw [hti] at hlookup
      cases hlookup
    · exact h.fresh t' hne
  | some ti =>
    have hkey : ti.taskInfo.id = t := (h.sound.key_eq t ti hti).2
    have hval : v.unschedule t =
        { v with cron := v.cron.remove ti.entryId, taskList := v.taskList.erase t } := by
      rw [View.unschedule, hti]
      simp only [hkey, erase_erase_self]
    rw [hval]
    refine ⟨⟨h.sound.erase hti, fun t' => ?_, h.dead_gone⟩, AList.lookup_erase _ _⟩
    intro ti' hlookup
    obtain ⟨hne, hold⟩ := lookup_of_lookup_erase hlookup
    exact h.fresh t' hne ti' hold

/-- A key that has no row yet is not scheduled. -/
theorem Healthy.lookup_nextId (h : Healthy strict dead v) :
    v.taskList.lookup v.tasks.nextId = none := by
  cases hti : v.taskList.lookup v.tasks.nextId with
  | none => rfl
  | some ti =>
    obtain ⟨row, hrow⟩ := h.row_of_lookup hti
    rw [Table.row?_nextId] at hrow
    cases hrow

/-- Inserting a task. -/
theorem Healthy.create (h : Healthy strict dead v) (row : Task) (now : Time) :
    Healthy strict dead { v with tasks := v.tasks.create row now } := by
  refine ⟨h.sound, fun t ti hti => ?_, fun t ht => ?_⟩
  · obtain ⟨row', hrow', hconf, hlive⟩ := h.fresh t ti hti
    refine ⟨row', ?_, hconf, hlive⟩
    rw [Table.row?_create, if_neg (Int.ne_of_lt (Table.rowId_lt_nextId hrow'))]
    exact hrow'
  · obtain ⟨hnone, hlt⟩ := h.dead_gone t ht
    exact ⟨Table.byId_create_eq_none hnone hlt row now, Int.lt_add_one_of_le (Int.le_of_lt hlt)⟩

/-- Saving a task disturbs no other task. -/
theorem Healthy.But.save {row : Task} {now : Time} {tasks : Table Task}
    (h : Healthy.But row.id strict dead v) (hsave : v.tasks.save row now = some tasks) :
    Healthy.But row.id strict dead { v with tasks := tasks } := by
  refine ⟨h.sound, fun t hne ti hti => ?_, fun t ht => ?_⟩
  · obtain ⟨row', hrow', hrest⟩ := h.fresh t hne ti hti
    refine ⟨row', ?_, hrest⟩
    rw [Table.row?_save hsave, if_neg (by simpa using hne)]
    exact hrow'
  · obtain ⟨hnone, hlt⟩ := h.dead_gone t ht
    exact ⟨Table.byId_save_eq_none hsave hnone, by rwa [Table.nextId_save hsave]⟩

/-- Saving a task whose instance, if there is one, holds the new configuration. -/
theorem Healthy.But.save_fresh {row : Task} {now : Time} {tasks : Table Task}
    (h : Healthy.But row.id strict dead v) (hsave : v.tasks.save row now = some tasks)
    (hrow : ∀ ti, v.taskList.lookup row.id = some ti →
      row.configuration = ti.taskInfo.configuration ∧
        (strict → live row = true ∧ v.IsLocal row.nodeID)) :
    Healthy strict dead { v with tasks := tasks } := by
  have hbut := h.save hsave
  refine ⟨hbut.sound, fun t => ?_, hbut.dead_gone⟩
  rcases eq_or_ne t row.id with rfl | hne
  · intro ti hti
    obtain ⟨hconf, hlive⟩ := hrow ti hti
    refine ⟨Table.saved row now, ?_, by simpa using hconf, fun hs => ?_⟩
    · rw [Table.row?_save hsave, rowId_task, if_pos rfl]
    · rw [Table.live_saved, nodeID_saved]
      exact hlive hs
  · exact hbut.fresh t hne

/-- Deleting a task's row; under `strict`, only that of a task that is not scheduled. -/
theorem Healthy.delete (h : Healthy strict dead v) {t : Int} (now : Time)
    (hfree : strict → v.taskList.lookup t = none) :
    Healthy strict (fun t' => t' = t ∧ (v.tasks.byId t).isSome ∨ dead t')
      { v with tasks := v.tasks.delete t now } := by
  refine ⟨h.sound, fun t' ti hti => ?_, fun t' ht' => ?_⟩
  · obtain ⟨row, hrow, hconf, hlive⟩ := h.fresh t' ti hti
    rcases eq_or_ne t' t with rfl | hne
    · refine ⟨_, by rw [Table.row?_delete, hrow]; rfl, ?_, fun hs => ?_⟩
      · dsimp only
        split
        · rw [configuration_markDeleted]
          exact hconf
        · exact hconf
      · have hti' := hfree hs
        rw [show v.taskList.lookup t' = some ti from hti] at hti'
        cases hti'
    · refine ⟨row, ?_, hconf, hlive⟩
      rw [Table.row?_delete, hrow]
      simp [hne]
  · rcases ht' with ⟨rfl, hsome⟩ | hdead
    · obtain ⟨row, hrow⟩ := Option.isSome_iff_exists.mp hsome
      have hlt : t' < v.tasks.nextId := Table.rowId_lt_nextId (Table.byId_eq_some.mp hrow).1
      exact ⟨Table.byId_delete_eq_none _ now (.inl rfl), hlt⟩
    · obtain ⟨hnone, hlt⟩ := h.dead_gone t' hdead
      exact ⟨Table.byId_delete_eq_none _ now (.inr hnone), hlt⟩

/-- The invariant for fewer deleted tasks. -/
theorem Healthy.mono {dead' : Int → Prop} (h : Healthy strict dead v)
    (hdead : ∀ t, dead' t → dead t) : Healthy strict dead' v :=
  ⟨h.sound, h.fresh, fun t ht => h.dead_gone t (hdead t ht)⟩

/-- What `Manager.AddTask` does keeps the invariant. -/
theorem Healthy.addOutcome {K : State → Op → Choice → Prop} {t : Int} {v' : View}
    (h : Healthy strict dead v) (hK : strict → Gonitor.Requests.Careful K)
    (hadd : Gonitor.Requests.AddOutcome K t v v') : Healthy strict dead v' := by
  rcases hadd with rfl | ⟨row, hnone, hbyId, henabled, hlocal, rfl⟩
  · exact h
  · obtain ⟨hrow, hlive⟩ := Table.byId_eq_some.mp hbyId
    obtain rfl : row.id = t := Table.rowId_of_row? hrow
    refine ⟨h.sound.insert hnone henabled, fun t' ti hti => ?_, h.dead_gone⟩
    rcases eq_or_ne t' row.id with rfl | hne
    · have hti' : (v.taskList.insert row.id ⟨row.id, row, v.cron.nextID⟩).lookup row.id = some ti :=
        hti
      rw [AList.lookup_insert, Option.some.injEq] at hti'
      subst hti'
      exact ⟨row, hrow, rfl, fun hs => ⟨hlive, hlocal (hK hs)⟩⟩
    · have hti' : (v.taskList.insert row.id ⟨row.id, row, v.cron.nextID⟩).lookup t' = some ti :=
        hti
      rw [AList.lookup_insert_ne hne] at hti'
      exact h.fresh t' ti hti'

end Steps

end Gonitor.Server
