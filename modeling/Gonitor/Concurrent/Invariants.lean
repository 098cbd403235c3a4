import Gonitor.Concurrent.Discipline
import Gonitor.Requests.Guarantees
import Gonitor.Requests.Responsibilities

/-!
# Invariants of the Pool

An invariant of the pool is a property of the shared state and of the places of the threads.
It only has to be checked for the operations that the discipline allows; the text of the
programs does not matter any more (`reach_invariant`).

Conditions on steps are conditions on the state a step is taken from (`onOps`).

The invariant that all results on the schedule rest on is `Wellformed`: entry ids are never
handed out twice, and a thread that stops or schedules an instance knows which one.
-/

namespace Gonitor.Concurrent

open Gonitor.Model Gonitor.Server Gonitor.Requests Gonitor.Task AtomicProgram SoftDelete

/-! ## The invariant rule for the server -/

/-- A condition on the step by which a thread performs an operation. -/
abbrev StepCondition := State → (Nat → Option Local) → Nat → Op → Choice → Prop

/-- The steps at which the condition is met; starting a thread is free. -/
def onOps (C : StepCondition) : Label Choice Start → ServerPool → Prop
  | .spawn _ _, _ => True
  | .op tid c, p => ∀ o k ℓ, p.threads tid = some ⟨.op o k, ℓ⟩ → C p.shared (locals p) tid o c

/-- No condition. -/
def AnyOp : StepCondition := fun _ _ _ _ _ => True

section Rule

variable {ext : Externals} {C : StepCondition} {I : State → (Nat → Option Local) → Prop}

theorem locals_update (p : ServerPool) (s : State) (tid : Nat)
    (th : Thread Op Op.Res Controller.Reply Local) :
    locals ⟨s, Function.update p.threads tid (some th)⟩ =
      Function.update (locals p) tid (some th.loc) := by
  funext j
  rcases eq_or_ne j tid with rfl | hne
  · simp [locals]
  · simp [locals, hne]

/-- The local data a new thread can have. -/
def Fresh (s : State) (ℓ : Local) : Prop :=
  ℓ = .init ∨ ∃ x ∈ s.sched.cron.entries, ℓ = { Local.init with run := some (Run.ofEntry x) }

theorem fresh_of_spawn {x : Start} {s : State} {th : Thread Op Op.Res Controller.Reply Local}
    (h : spawn ext x s = some th) : Fresh s th.loc := by
  rcases spawn_cases h with ⟨caller, req, -, -, rfl⟩ | ⟨-, rfl⟩ | ⟨e, entry, -, hmem, -, rfl⟩
  · exact .inl rfl
  · exact .inl rfl
  · exact .inr ⟨entry, hmem, rfl⟩

/-- **The invariant rule**: new threads keep the invariant, and so does every operation that
    is allowed where its thread is. -/
theorem reach_invariant
    (hspawn : ∀ s L tid ℓ, I s L → L tid = none → Fresh s ℓ →
      I s (Function.update L tid (some ℓ)))
    (hop : ∀ s L tid ℓ o c r s', I s L → L tid = some ℓ → Allowed ℓ o → C s L tid o c →
      exec ext o c s = some (r, s') → I s' (Function.update L tid (some (next ℓ o r))))
    {p p' : ServerPool} (hd : (server ext).Disciplined Allowed Final p)
    (hi : I p.shared (locals p)) (h : (server ext).Reach (onOps C) p p') :
    (server ext).Disciplined Allowed Final p' ∧ I p'.shared (locals p') := by
  refine System.invariant (I := fun p => I p.shared (locals p)) spawn_follows ?_ ?_ hd hi h
  · intro p tid x th _ hi _ hnone hsp
    rw [locals_update]
    -- the number of the new thread was free
    refine hspawn _ _ _ _ hi ?_ (fresh_of_spawn hsp)
    simp [locals, hnone]
  · intro p tid c o k ℓ r s' _ hi hC hth hallowed hexec
    rw [locals_update]
    refine hop _ _ _ _ _ _ _ _ hi ?_ hallowed (hC o k ℓ hth) hexec
    simp [locals, hth]

/-- Steps without a condition. -/
theorem reach_anyOp {p p' : ServerPool} (h : (server ext).Reach (fun _ _ => True) p p') :
    (server ext).Reach (onOps AnyOp) p p' := by
  refine h.mono fun l q _ => ?_
  cases l with
  | spawn tid x => trivial
  | op tid c => exact fun _ _ _ _ => trivial

/-- Initially there are no threads, so the discipline is followed. -/
theorem Initial.disciplined {p : ServerPool} (h : Initial ext p) :
    (server ext).Disciplined Allowed Final p := by
  intro tid th hth
  rw [h.2 tid] at hth
  cases hth

theorem Initial.locals_eq {p : ServerPool} (h : Initial ext p) : locals p = fun _ => none := by
  funext tid
  simp [locals, h.2 tid]

/-- Every pool reached follows the discipline. -/
theorem Reached.disciplined {p : ServerPool} (h : Reached ext p) :
    (server ext).Disciplined Allowed Final p := by
  obtain ⟨p₀, h₀, hreach⟩ := h
  exact (reach_invariant (I := fun _ _ => True) (fun _ _ _ _ _ _ _ => trivial)
    (fun _ _ _ _ _ _ _ _ _ _ _ _ _ => trivial) h₀.disciplined trivial (reach_anyOp hreach)).1

/-- The next operation of a thread is allowed where the thread is. -/
theorem allowed_of_atOp {p : ServerPool} (hd : (server ext).Disciplined Allowed Final p) {tid : Nat}
    {o : Op} (hat : AtOp p tid o) : ∃ ℓ, locals p tid = some ℓ ∧ Allowed ℓ o := by
  obtain ⟨k, ℓ, hth⟩ := hat
  exact ⟨ℓ, by simp [locals, hth], (System.Follows.op_iff.mp (hd tid _ hth)).1⟩

/-- The step of a thread whose next operation is known. -/
theorem step_atOp {p p' : ServerPool} {tid : Nat} {o : Op} {c : Choice} (hat : AtOp p tid o)
    (hstep : (server ext).step (.op tid c) p = some p') :
    ∃ ℓ r, locals p tid = some ℓ ∧ exec ext o c p.shared = some (r, p'.shared) ∧
      locals p' = Function.update (locals p) tid (some (next ℓ o r)) := by
  obtain ⟨k, ℓ, hth⟩ := hat
  rcases System.step_cases hstep with ⟨_, _, _, hl, -⟩ |
    ⟨_, _, o', k', ℓ', r, s', hl, hth', hexec, rfl⟩
  · cases hl
  · cases hl
    rw [hth] at hth'
    cases hth'
    exact ⟨ℓ, r, by simp [locals, hth], hexec, locals_update _ _ _ _⟩

end Rule

/-! ## Stages and runs -/

section Projections

variable {L : Nat → Option Local} {tid : Nat} {ℓ : Local}

theorem stages_update (L : Nat → Option Local) (tid : Nat) (ℓ : Local) :
    stages (Function.update L tid (some ℓ)) = Function.update (stages L) tid ℓ.stage := by
  funext j
  rcases eq_or_ne j tid with rfl | hne
  · simp [stages]
  · simp [stages, hne]

theorem runs_update (L : Nat → Option Local) (tid : Nat) (ℓ : Local) :
    runs (Function.update L tid (some ℓ)) = Function.update (runs L) tid ℓ.run := by
  funext j
  rcases eq_or_ne j tid with rfl | hne
  · simp [runs]
  · simp [runs, hne]

theorem stages_of_some (h : L tid = some ℓ) : stages L tid = ℓ.stage := by
  simp [stages, h]

theorem runs_of_some (h : L tid = some ℓ) : runs L tid = ℓ.run := by
  simp [runs, h]

/-- Only operations on the schedule change stages. -/
theorem stage_next (ℓ : Local) (o : Op) (r : o.Res) (ho : ∀ d, o ≠ .sched d) :
    (next ℓ o r).stage = ℓ.stage := by
  cases o with
  | db o =>
    cases o with
    | findTask taskId => cases r <;> rfl
    | _ => rfl
  | sched o => exact absurd rfl (ho o)
  | run o => rfl
  | world o => rfl

theorem run_nextDb (ℓ : Local) (o : DbOp) (r : o.Res) :
    (nextDb ℓ o r).run = ℓ.run.map fun run => run.logged o r := by
  have hsame : ∀ f : Run → Run, (∀ run, f run = run) → ℓ.run = ℓ.run.map f := by
    intro f hf
    cases ℓ.run with
    | none => rfl
    | some run => rw [Option.map_some, hf]
  cases o with
  | findTask taskId => cases r <;> exact hsame _ fun _ => rfl
  | createTaskLog row => rfl
  | saveTaskLog row => rfl
  | _ => exact hsame _ fun _ => rfl

end Projections

/-! ## The schedule is well formed -/

/-- The instance a thread has looked up, with the key it was found under. -/
def Stage.target : Stage → Option (Int × TaskInstance)
  | .found t ti | .stopping t ti | .stopped t ti => some (t, ti)
  | .idle | .adding _ _ => none

/-- The instance whose cron entry the thread has removed. -/
def Stage.removed : Stage → Option TaskInstance
  | .stopping _ ti | .stopped _ ti => some ti
  | .idle | .found _ _ | .adding _ _ => none

/-- The entry that the thread has added and not yet put into `TaskList`. -/
def Stage.pending : Stage → Option (Task × EntryID)
  | .adding taskInfo e => some (taskInfo, e)
  | .idle | .found _ _ | .stopping _ _ | .stopped _ _ => none

/-- The instance that is looked up is one of the task it is looked up under. -/
def KnowsTarget (cron : Cron) (σ : Stage) : Prop :=
  ∀ t ti, σ.target = some (t, ti) → ti.taskInfo.id = t ∧ ti.entryId < cron.nextID

/-- What has been removed is gone. -/
def HasRemoved (cron : Cron) (σ : Stage) : Prop :=
  ∀ ti, σ.removed = some ti → ∀ x ∈ cron.entries, x.id ≠ ti.entryId

/-- Entry ids are handed out once; instances sit under the ids of their tasks; threads know
    the instances they work on. -/
structure Wellformed (cron : Cron) (taskList : AList (fun _ : Int => TaskInstance))
    (stage : Nat → Stage) : Prop where
  entry_nodup : (cron.entries.map Entry.id).Nodup
  entry_lt : ∀ x ∈ cron.entries, x.id < cron.nextID
  entry_job : ∀ x ∈ cron.entries, x.job = wrappedJob x.job.taskInfo
  key_eq : ∀ t ti, taskList.lookup t = some ti → ti.taskInfo.id = t
  inst_lt : ∀ t ti, taskList.lookup t = some ti → ti.entryId < cron.nextID
  inst_unique : ∀ t ti t' ti', taskList.lookup t = some ti → taskList.lookup t' = some ti' →
    ti.entryId = ti'.entryId → t = t'
  target_eq : ∀ tid, KnowsTarget cron (stage tid)
  removed_gone : ∀ tid, HasRemoved cron (stage tid)
  pending_lt : ∀ tid task e, (stage tid).pending = some (task, e) → e < cron.nextID
  pending_free : ∀ tid task e, (stage tid).pending = some (task, e) →
    ∀ t ti, taskList.lookup t = some ti → ti.entryId ≠ e
  pending_unique : ∀ tid task e tid' task', (stage tid).pending = some (task, e) →
    (stage tid').pending = some (task', e) → tid = tid'

/-- A property of all threads after one of them has moved. -/
theorem forall_update {α : Type} {f : Nat → α} {tid : Nat} {a : α} {P : Nat → α → Prop}
    (hnew : P tid a) (hold : ∀ j, j ≠ tid → P j (f j)) : ∀ j, P j (Function.update f tid a j) := by
  intro j
  rcases eq_or_ne j tid with rfl | hne
  · rw [Function.update_self]
    exact hnew
  · rw [Function.update_of_ne hne]
    exact hold j hne

/-- The schedule after start-up is well formed. -/
theorem Wellformed.of_sound {cron : Cron} {taskList : AList (fun _ : Int => TaskInstance)}
    (h : ScheduleSound cron taskList) : Wellformed cron taskList fun _ => .idle where
  entry_nodup := h.entry_nodup
  entry_lt := h.id_lt
  entry_job := by
    intro x hx
    obtain ⟨t, ti, -, -, hjob⟩ := h.entry_listed x hx
    rw [hjob]
    rfl
  key_eq t ti hti := (h.key_eq t ti hti).2
  inst_lt := h.entry_lt
  inst_unique := h.entry_unique
  target_eq := by simp [KnowsTarget, Stage.target]
  removed_gone := by simp [HasRemoved, Stage.removed]
  pending_lt := by simp [Stage.pending]
  pending_free := by simp [Stage.pending]
  pending_unique := by simp [Stage.pending]

section Steps

variable {cron : Cron} {taskList : AList (fun _ : Int => TaskInstance)} {stage : Nat → Stage}
  {tid : Nat}

/-- An entry that is pending after a thread has moved to a stage without one is pending in
    another thread. -/
theorem pending_update {σ : Stage} (hσ : σ.pending = none) {j : Nat} {task : Task} {e : EntryID}
    (hj : (Function.update stage tid σ j).pending = some (task, e)) :
    j ≠ tid ∧ (stage j).pending = some (task, e) := by
  rcases eq_or_ne j tid with rfl | hne
  · rw [Function.update_self, hσ] at hj
    cases hj
  · rw [Function.update_of_ne hne] at hj
    exact ⟨hne, hj⟩

/-- A thread moves to a stage without a pending entry. -/
theorem Wellformed.setStage (h : Wellformed cron taskList stage) {σ : Stage}
    (htarget : KnowsTarget cron σ) (hremoved : HasRemoved cron σ) (hpending : σ.pending = none) :
    Wellformed cron taskList (Function.update stage tid σ) := by
  have hpend : ∀ j task e, (Function.update stage tid σ j).pending = some (task, e) →
      (stage j).pending = some (task, e) := fun j task e hj =>
    (pending_update hpending hj).2
  constructor
  case entry_nodup => exact h.entry_nodup
  case entry_lt => exact h.entry_lt
  case entry_job => exact h.entry_job
  case key_eq => exact h.key_eq
  case inst_lt => exact h.inst_lt
  case inst_unique => exact h.inst_unique
  case target_eq => exact forall_update (P := fun _ => KnowsTarget cron) htarget fun j _ => h.target_eq j
  case removed_gone =>
    exact forall_update (P := fun _ => HasRemoved cron) hremoved fun j _ => h.removed_gone j
  case pending_lt => exact fun j task e hj => h.pending_lt j task e (hpend j task e hj)
  case pending_free => exact fun j task e hj => h.pending_free j task e (hpend j task e hj)
  case pending_unique =>
    exact fun j task e j' task' hj hj' =>
      h.pending_unique j task e j' task' (hpend j task e hj) (hpend j' task' e hj')

/-- `cron.Remove` -/
theorem Wellformed.remove (h : Wellformed cron taskList stage) (e : EntryID) :
    Wellformed (cron.remove e) taskList stage where
  entry_nodup := h.entry_nodup.sublist (List.filter_sublist.map Entry.id)
  entry_lt x hx := h.entry_lt x (List.mem_of_mem_filter hx)
  entry_job x hx := h.entry_job x (List.mem_of_mem_filter hx)
  key_eq := h.key_eq
  inst_lt := h.inst_lt
  inst_unique := h.inst_unique
  target_eq := h.target_eq
  removed_gone j ti hj x hx := h.removed_gone j ti hj x (List.mem_of_mem_filter hx)
  pending_lt := h.pending_lt
  pending_free := h.pending_free
  pending_unique := h.pending_unique

/-- `delete(TaskList, k)` -/
theorem Wellformed.erase (h : Wellformed cron taskList stage) (k : Int) :
    Wellformed cron (taskList.erase k) stage where
  entry_nodup := h.entry_nodup
  entry_lt := h.entry_lt
  entry_job := h.entry_job
  key_eq t ti hti := h.key_eq t ti (lookup_of_lookup_erase hti).2
  inst_lt t ti hti := h.inst_lt t ti (lookup_of_lookup_erase hti).2
  inst_unique t ti t' ti' hti hti' :=
    h.inst_unique t ti t' ti' (lookup_of_lookup_erase hti).2 (lookup_of_lookup_erase hti').2
  target_eq := h.target_eq
  removed_gone := h.removed_gone
  pending_lt := h.pending_lt
  pending_free j task e hj t ti hti := h.pending_free j task e hj t ti (lookup_of_lookup_erase hti).2
  pending_unique := h.pending_unique

/-- `cron.AddJob`: the thread has a pending entry afterwards. -/
theorem Wellformed.addJob (h : Wellformed cron taskList stage) (tid : Nat) (taskInfo : Task) :
    Wellformed (cron.addJob (wrappedJob taskInfo)) taskList
      (Function.update stage tid (.adding taskInfo cron.nextID)) := by
  -- the entries and the pending entries afterwards: the old ones and the new one
  have hmem : ∀ x ∈ (cron.addJob (wrappedJob taskInfo)).entries,
      x ∈ cron.entries ∨ x = ⟨cron.nextID, wrappedJob taskInfo⟩ := by
    intro x hx
    simpa [Cron.addJob] using hx
  have hpend : ∀ j task e,
      (Function.update stage tid (.adding taskInfo cron.nextID) j).pending = some (task, e) →
      (j = tid ∧ e = cron.nextID) ∨ (j ≠ tid ∧ (stage j).pending = some (task, e)) := by
    intro j task e hj
    rcases eq_or_ne j tid with rfl | hne
    · rw [Function.update_self] at hj
      cases hj
      exact .inl ⟨rfl, rfl⟩
    · rw [Function.update_of_ne hne] at hj
      exact .inr ⟨hne, hj⟩
  constructor
  case entry_nodup =>
    simp only [Cron.addJob, List.map_append, List.map_cons, List.map_nil]
    refine List.nodup_append.mpr ⟨h.entry_nodup, List.nodup_singleton _, ?_⟩
    intro i hi j hj heq
    obtain ⟨x, hx, rfl⟩ := List.mem_map.mp hi
    rw [List.mem_singleton.mp hj] at heq
    exact absurd (h.entry_lt x hx) (by simp [heq])
  case entry_lt =>
    intro x hx
    rcases hmem x hx with hold | rfl
    · exact Nat.lt_succ_of_lt (h.entry_lt x hold)
    · exact Nat.lt_succ_self _
  case entry_job =>
    intro x hx
    rcases hmem x hx with hold | rfl
    · exact h.entry_job x hold
    · rfl
  case key_eq => exact h.key_eq
  case inst_lt => exact fun t ti hti => Nat.lt_succ_of_lt (h.inst_lt t ti hti)
  case inst_unique => exact h.inst_unique
  case target_eq =>
    refine forall_update (P := fun _ => KnowsTarget (cron.addJob _)) ?_ fun j _ => ?_
    · intro t ti hσ
      cases hσ
    · intro t ti hσ
      obtain ⟨hid, hlt⟩ := h.target_eq j t ti hσ
      exact ⟨hid, Nat.lt_succ_of_lt hlt⟩
  case removed_gone =>
    refine forall_update (P := fun _ => HasRemoved (cron.addJob _)) ?_ fun j _ => ?_
    · intro ti hσ
      cases hσ
    · intro ti hσ x hx
      rcases hmem x hx with hold | rfl
      · exact h.removed_gone j ti hσ x hold
      -- the new entry has an id no instance has had so far
      · have htarget : ∃ t, (stage j).target = some (t, ti) := by
          cases hj : stage j <;> simp_all [Stage.removed, Stage.target]
        obtain ⟨t, ht⟩ := htarget
        exact Nat.ne_of_gt (h.target_eq j t ti ht).2
  case pending_lt =>
    intro j task e hj
    rcases hpend j task e hj with ⟨-, rfl⟩ | ⟨-, hold⟩
    · exact Nat.lt_succ_self _
    · exact Nat.lt_succ_of_lt (h.pending_lt j task e hold)
  case pending_free =>
    intro j task e hj t ti hti
    rcases hpend j task e hj with ⟨-, rfl⟩ | ⟨-, hold⟩
    · exact Nat.ne_of_lt (h.inst_lt t ti hti)
    · exact h.pending_free j task e hold t ti hti
  case pending_unique =>
    intro j task e j' task' hj hj'
    rcases hpend j task e hj with ⟨rfl, rfl⟩ | ⟨-, hold⟩ <;>
      rcases hpend j' task' _ hj' with ⟨rfl, he⟩ | ⟨-, hold'⟩
    · rfl
    -- one entry is the new one: an older pending entry has a smaller id
    · exact absurd (h.pending_lt j' task' _ hold') (Nat.lt_irrefl _)
    · exact absurd (h.pending_lt j task _ (he ▸ hold)) (Nat.lt_irrefl _)
    · exact h.pending_unique j task e j' task' hold hold'

/-- `TaskList[id] = ti`: the pending entry of the thread becomes the entry of an instance. -/
theorem Wellformed.put (h : Wellformed cron taskList stage) {taskInfo : Task} {ti : TaskInstance}
    (hpending : (stage tid).pending = some (taskInfo, ti.entryId))
    (hinfo : ti.taskInfo = taskInfo) :
    Wellformed cron (taskList.insert taskInfo.id ti) (Function.update stage tid .idle) := by
  -- an instance listed afterwards is the new one or an old one
  have hcases : ∀ t ti', (taskList.insert taskInfo.id ti).lookup t = some ti' →
      (t = taskInfo.id ∧ ti' = ti) ∨ taskList.lookup t = some ti' := by
    intro t ti' hti'
    rcases eq_or_ne t taskInfo.id with rfl | hne
    · rw [AList.lookup_insert, Option.some.injEq] at hti'
      exact .inl ⟨rfl, hti'.symm⟩
    · rw [AList.lookup_insert_ne hne] at hti'
      exact .inr hti'
  have hpend : ∀ j task e, (Function.update stage tid .idle j).pending = some (task, e) →
      j ≠ tid ∧ (stage j).pending = some (task, e) := fun j task e hj => pending_update rfl hj
  constructor
  case entry_nodup => exact h.entry_nodup
  case entry_lt => exact h.entry_lt
  case entry_job => exact h.entry_job
  case key_eq =>
    intro t ti' hti'
    rcases hcases t ti' hti' with ⟨rfl, rfl⟩ | hold
    · rw [hinfo]
    · exact h.key_eq t ti' hold
  case inst_lt =>
    intro t ti' hti'
    rcases hcases t ti' hti' with ⟨rfl, rfl⟩ | hold
    · exact h.pending_lt tid taskInfo _ hpending
    · exact h.inst_lt t ti' hold
  case inst_unique =>
    intro t ti₁ t' ti₂ h₁ h₂ heq
    rcases hcases t ti₁ h₁ with ⟨rfl, rfl⟩ | hold₁ <;>
      rcases hcases t' ti₂ h₂ with ⟨rfl, rfl⟩ | hold₂
    · rfl
    -- the entry was pending, so no instance had it before
    · exact absurd heq.symm (h.pending_free tid taskInfo _ hpending t' ti₂ hold₂)
    · exact absurd heq (h.pending_free tid taskInfo _ hpending t ti₁ hold₁)
    · exact h.inst_unique t ti₁ t' ti₂ hold₁ hold₂ heq
  case target_eq =>
    refine forall_update (P := fun _ => KnowsTarget cron) ?_ fun j _ => h.target_eq j
    intro t ti' hσ
    cases hσ
  case removed_gone =>
    refine forall_update (P := fun _ => HasRemoved cron) ?_ fun j _ => h.removed_gone j
    intro ti' hσ
    cases hσ
  case pending_lt => exact fun j task e hj => h.pending_lt j task e (hpend j task e hj).2
  case pending_free =>
    intro j task e hj t ti' hti'
    obtain ⟨hne, hold⟩ := hpend j task e hj
    rcases hcases t ti' hti' with ⟨rfl, rfl⟩ | hti
    -- the entry of the new instance is pending in no other thread
    · rintro rfl
      exact hne (h.pending_unique j task _ tid taskInfo hold hpending)
    · exact h.pending_free j task e hold t ti' hti
  case pending_unique =>
    exact fun j task e j' task' hj hj' =>
      h.pending_unique j task e j' task' (hpend j task e hj).2 (hpend j' task' e hj').2

/-- Operations of the other groups leave the schedule and the stage as they are. -/
theorem schedule_same {ext : Externals} {s s' : State} {o : Op} {c : Choice} {r : o.Res}
    (hexec : exec ext o c s = some (r, s')) (ho : ∀ d, o ≠ .sched d) (ℓ : Local) :
    s'.sched.cron = s.sched.cron ∧ s'.sched.taskList = s.sched.taskList ∧
      (next ℓ o r).stage = ℓ.stage := by
  refine ⟨?_, ?_, stage_next ℓ o r ho⟩
  all_goals
    cases o with
    | db o =>
      obtain ⟨-, -, rfl⟩ := exec_db hexec
      rfl
    | sched o => exact absurd rfl (ho o)
    | run o =>
      obtain ⟨-, d, os, hrun, rfl⟩ := exec_run hexec
      first | exact (RunOp.exec_schedule hrun).1 | exact (RunOp.exec_schedule hrun).2
    | world o =>
      obtain ⟨-, -, rfl⟩ := exec_world hexec
      rfl

/-- `cron.AddJob` either hands out the next id or changes nothing. -/
theorem addJob_cases (ext : Externals) (c : Choice) (d : Scheduler) (os : Processes)
    (spec : String) (job : WrappedJob) :
    SchedOp.exec ext c d os (.cronAddJob spec job) =
        (.ok d.cron.nextID, { d with cron := d.cron.addJob job }, os) ∨
      SchedOp.exec ext c d os (.cronAddJob spec job) = (.error c.text, d, os) := by
  simp only [SchedOp.exec]
  split
  · exact .inl rfl
  · exact .inr rfl

/-- `RunningInstance.stop` leaves the scheduler alone. -/
theorem stopRunning_sched (ext : Externals) (c : Choice) (d : Scheduler) (os : Processes)
    (e : EntryID) (log : Int) : (SchedOp.exec ext c d os (.stopRunning e log)).2.1 = d := by
  simp only [SchedOp.exec]
  split <;> rfl

/-- An entry after an operation was there before, or has just been added. -/
theorem entry_cases {ext : Externals} {s s' : State} {o : Op} {c : Choice} {r : o.Res} {x : Entry}
    (hexec : exec ext o c s = some (r, s')) (hx : x ∈ s'.sched.cron.entries) :
    x ∈ s.sched.cron.entries ∨
      (∃ spec, o = .sched (.cronAddJob spec x.job)) ∧ x.id = s.sched.cron.nextID := by
  cases o with
  | db o =>
    obtain ⟨-, -, rfl⟩ := exec_db hexec
    exact .inl hx
  | world o =>
    obtain ⟨-, -, rfl⟩ := exec_world hexec
    exact .inl hx
  | run o =>
    obtain ⟨-, d, os, hrun, rfl⟩ := exec_run hexec
    rw [(RunOp.exec_schedule hrun).1] at hx
    exact .inl hx
  | sched o =>
    obtain ⟨-, -, rfl⟩ := exec_sched hexec
    cases o with
    | cronAddJob spec job =>
      rcases addJob_cases ext c s.sched s.os spec job with hok | herror
      · rw [hok] at hx
        rcases List.mem_append.mp hx with hold | hnew
        · exact .inl hold
        · rw [List.mem_singleton.mp hnew]
          exact .inr ⟨⟨spec, rfl⟩, rfl⟩
      · rw [herror] at hx
        exact .inl hx
    | cronRemove e => exact .inl (List.mem_of_mem_filter hx)
    | stopRunning e log =>
      rw [stopRunning_sched] at hx
      exact .inl hx
    | _ => exact .inl hx

/-- Every allowed operation keeps the schedule well formed. -/
theorem Wellformed.op {ext : Externals} {s s' : State} {L : Nat → Option Local} {ℓ : Local}
    {o : Op} {c : Choice} {r : o.Res} (h : Wellformed s.sched.cron s.sched.taskList (stages L))
    (hℓ : L tid = some ℓ) (hallowed : Allowed ℓ o) (hexec : exec ext o c s = some (r, s')) :
    Wellformed s'.sched.cron s'.sched.taskList
      (stages (Function.update L tid (some (next ℓ o r)))) := by
  have hstage := stages_of_some hℓ
  -- operations that change neither the schedule nor the stage
  have hsame : s'.sched.cron = s.sched.cron → s'.sched.taskList = s.sched.taskList →
      (next ℓ o r).stage = ℓ.stage → Wellformed s'.sched.cron s'.sched.taskList
        (stages (Function.update L tid (some (next ℓ o r)))) := by
    intro hcron hlist hst
    rw [hcron, hlist, stages_update, hst, ← hstage, Function.update_eq_self]
    exact h
  by_cases ho : ∀ d, o ≠ .sched d
  · obtain ⟨hcron, hlist, hst⟩ := schedule_same hexec ho ℓ
    exact hsame hcron hlist hst
  · push Not at ho
    obtain ⟨o, rfl⟩ := ho
    obtain ⟨-, rfl, rfl⟩ := exec_sched hexec
    cases o with
    | taskListKeys => exact hsame rfl rfl rfl
    | runningInstances e => exact hsame rfl rfl rfl
    | stopRunning e log =>
      have hd := stopRunning_sched ext c s.sched s.os e log
      exact hsame (congrArg Scheduler.cron hd) (congrArg Scheduler.taskList hd) rfl
    | taskListGet t =>
      rw [stages_update]
      -- what the thread has found, or that it works on nothing
      cases hti : s.sched.taskList.lookup t with
      | none =>
        simp only [SchedOp.exec, next, hti, Stage.next]
        exact h.setStage (by simp [KnowsTarget, Stage.target])
          (by simp [HasRemoved, Stage.removed]) rfl
      | some ti =>
        simp only [SchedOp.exec, next, hti, Stage.next]
        refine h.setStage ?_ (by simp [HasRemoved, Stage.removed]) rfl
        intro t' ti' htarget
        cases htarget
        exact ⟨h.key_eq t ti hti, h.inst_lt t ti hti⟩
    | cronRemove e =>
      obtain ⟨t, ti, hfound, rfl⟩ := hallowed
      rw [stages_update]
      simp only [SchedOp.exec, next, Stage.next, hfound]
      have htarget : (stages L tid).target = some (t, ti) := by rw [hstage, hfound]; rfl
      -- `stop` removes the entry of the instance it has looked up, and so knows it is gone
      refine (h.remove ti.entryId).setStage ?_ ?_ rfl
      · intro t' ti' hσ
        cases hσ
        exact h.target_eq tid t ti htarget
      · intro ti' hσ x hx
        cases hσ
        simp only [Cron.remove, List.mem_filter, bne_iff_ne] at hx
        exact hx.2
    | taskListDelete k =>
      rw [stages_update]
      -- the delete in `stop`, and the one in `Manager.DeleteTask` after it
      rcases hallowed with ⟨t, ti, hstop, rfl⟩ | ⟨t, ti, hstop, rfl⟩
      · simp only [SchedOp.exec, next, Stage.next, hstop]
        refine (h.erase ti.taskInfo.id).setStage ?_ ?_ rfl
        · intro t' ti' hσ
          cases hσ
          exact h.target_eq tid t ti (by rw [hstage, hstop]; rfl)
        · intro ti' hσ
          cases hσ
          exact h.removed_gone tid ti (by rw [hstage, hstop]; rfl)
      · simp only [SchedOp.exec, next, Stage.next, hstop]
        exact (h.erase k).setStage (by simp [KnowsTarget, Stage.target])
          (by simp [HasRemoved, Stage.removed]) rfl
    | cronAddJob spec job =>
      obtain ⟨hidle, hrow, hjob⟩ := hallowed
      rcases addJob_cases ext c s.sched s.os spec job with hok | herror
      · rw [hok, stages_update]
        have hadded := h.addJob tid job.taskInfo
        rw [← hjob] at hadded
        exact hadded
      -- the schedule was refused
      · rw [herror] at hsame ⊢
        exact hsame rfl rfl rfl
    | taskListPut k ti =>
      obtain ⟨task, e, hadding, rfl, hinfo, rfl⟩ := hallowed
      rw [stages_update]
      simp only [SchedOp.exec, next, Stage.next]
      exact h.put (by rw [hstage, hadding]; rfl) hinfo

end Steps

/-! ## Before the first run -/

section StartUp

variable {ext : Externals}

/-- Operations that belong to no run (start-up can end the server). -/
def NotOfRun : Op → Prop
  | .run .crash => True
  | .run _ => False
  | _ => True

/-- No run has left a trace. -/
structure Untouched (s : State) : Prop where
  running : ∀ e, s.sched.running e = []
  locked : ∀ e, s.sched.locked e = false
  procs : s.os.procs = []

theorem Untouched.op {s s' : State} {o : Op} {c : Choice} {r : o.Res} (h : Untouched s)
    (ho : NotOfRun o) (hexec : exec ext o c s = some (r, s')) : Untouched s' := by
  cases o with
  | db o =>
    obtain ⟨-, -, rfl⟩ := exec_db hexec
    exact ⟨h.running, h.locked, h.procs⟩
  | world o =>
    obtain ⟨-, -, rfl⟩ := exec_world hexec
    exact ⟨h.running, h.locked, h.procs⟩
  | sched o =>
    obtain ⟨-, -, rfl⟩ := exec_sched hexec
    cases o with
    | cronAddJob spec job =>
      rcases addJob_cases ext c s.sched s.os spec job with hok | herror
      · rw [hok]
        exact ⟨h.running, h.locked, h.procs⟩
      · rw [herror]
        exact ⟨h.running, h.locked, h.procs⟩
    | stopRunning e log =>
      simp only [SchedOp.exec]
      split <;> exact ⟨h.running, h.locked, h.procs⟩
    | _ => exact ⟨h.running, h.locked, h.procs⟩
  | run o =>
    obtain ⟨-, d, os, hrun, rfl⟩ := exec_run hexec
    cases o with
    | crash =>
      cases hrun
      exact ⟨h.running, h.locked, h.procs⟩
    | _ => exact ho.elim

theorem notOfRun_of_startWork (o : Op) (h : StartWork o) : NotOfRun o := by
  cases o with
  | run o =>
    cases o with
    | crash => trivial
    | _ => exact h.elim
  | _ => trivial

/-- After start-up no run has left a trace. -/
theorem untouched_of_startedUp {s : State} (h : StartedUp ext AnyStep s) : Untouched s := by
  obtain ⟨db, now, hrun⟩ := h
  have hboot : Untouched (State.boot db now) := ⟨fun _ => rfl, fun _ => rfl, rfl⟩
  have hstart : Ensures ext AnyStep Gonitor.Task.start (fun _ => Untouched)
      (State.boot db now) := by
    refine (start_startWork.mono notOfRun_of_startWork).wp (fun o s ho hs => ⟨trivial, ?_⟩) hboot
    rintro r s' ⟨c, -, hexec⟩
    exact hs.op ho hexec
  exact hrun.post hstart

end StartUp

/-! ## Invariants on top of a well-formed schedule -/

section Reached

variable {ext : Externals} {C : StepCondition} {I : State → (Nat → Option Local) → Prop}

/-- Start-up leaves a sound schedule. -/
theorem healthy_of_startedUp {s : State} (h : StartedUp ext AnyStep s) :
    Healthy False (fun _ => False) s.view := by
  obtain ⟨db, now, hrun⟩ := h
  exact hrun.post (start_healthy False.elim db now)

/-- The local data of a new thread names no instance. -/
theorem Fresh.stage {s : State} {ℓ : Local} (h : Fresh s ℓ) : ℓ.stage = .idle := by
  rcases h with rfl | ⟨x, -, rfl⟩
  · rfl
  · rfl

theorem stages_spawn {s : State} {L : Nat → Option Local} {tid : Nat} {ℓ : Local}
    (hnone : L tid = none) (hfresh : Fresh s ℓ) :
    stages (Function.update L tid (some ℓ)) = stages L := by
  have hidle : stages L tid = .idle := by simp [stages, hnone]
  rw [stages_update, hfresh.stage, ← hidle, Function.update_eq_self]

/-- A run that is there after a thread has started was there before, or has just been fired. -/
theorem runs_spawn {s : State} {L : Nat → Option Local} {tid j : Nat} {ℓ : Local} {run : Run}
    (hfresh : Fresh s ℓ) (h : runs (Function.update L tid (some ℓ)) j = some run) :
    runs L j = some run ∨ ∃ x ∈ s.sched.cron.entries, run = Run.ofEntry x := by
  rw [runs_update] at h
  rcases update_eq_some h with ⟨-, hnew⟩ | ⟨-, hold⟩
  · rcases hfresh with rfl | ⟨x, hx, rfl⟩
    · cases hnew
    · cases hnew
      exact .inr ⟨x, hx, rfl⟩
  · exact .inl hold

/-- The invariant rule for invariants that rest on a well-formed schedule. -/
theorem Initial.invariant {p₀ p : ServerPool} (h₀ : Initial ext p₀)
    (h : (server ext).Reach (onOps C) p₀ p) (hstart : I p₀.shared fun _ => none)
    (hspawn : ∀ s L tid ℓ, Wellformed s.sched.cron s.sched.taskList (stages L) → I s L →
      L tid = none → Fresh s ℓ → I s (Function.update L tid (some ℓ)))
    (hop : ∀ s L tid ℓ o c r s', Wellformed s.sched.cron s.sched.taskList (stages L) → I s L →
      L tid = some ℓ → Allowed ℓ o → C s L tid o c → exec ext o c s = some (r, s') →
      I s' (Function.update L tid (some (next ℓ o r)))) :
    Wellformed p.shared.sched.cron p.shared.sched.taskList (stages (locals p)) ∧
      I p.shared (locals p) := by
  refine (reach_invariant (I := fun s L =>
    Wellformed s.sched.cron s.sched.taskList (stages L) ∧ I s L) ?_ ?_ h₀.disciplined ?_ h).2
  · rintro s L tid ℓ ⟨hw, hi⟩ hnone hfresh
    refine ⟨?_, hspawn s L tid ℓ hw hi hnone hfresh⟩
    rwa [stages_spawn hnone hfresh]
  · rintro s L tid ℓ o c r s' ⟨hw, hi⟩ hℓ hallowed hC hexec
    exact ⟨hw.op hℓ hallowed hexec, hop s L tid ℓ o c r s' hw hi hℓ hallowed hC hexec⟩
  · rw [h₀.locals_eq]
    exact ⟨Wellformed.of_sound (healthy_of_startedUp h₀.1).sound, hstart⟩

end Reached

/-! ## A pool to start from -/

/-- The pool after start-up on the database with one task, which is scheduled. -/
def oneTaskPool : ServerPool := ⟨oneTaskState, fun _ => none⟩

theorem oneTaskPool_initial : Initial plainExternals oneTaskPool :=
  ⟨oneTaskState_startedUp.anyStep, fun _ => rfl⟩

/-- The same with another row for the task. -/
def scheduledPool (row : Task) : ServerPool where
  shared := { oneTaskState with
    db := { emptyDatabase with task := Table.empty.create row 0 }
    sched := { Scheduler.init with
      cron := ⟨[⟨1, wrappedJob row⟩], 2⟩
      taskList := (∅ : AList (fun _ : Int => TaskInstance)).insert 1 ⟨1, row, 1⟩ } }
  threads _ := none

/-- A request to stop that task. -/
def stopRequest : Start := .request ⟨0, ""⟩ (.stopTask 1)

/-- A request to start it. -/
def startRequest : Start := .request ⟨0, ""⟩ (.startTask 1)

end Gonitor.Concurrent
