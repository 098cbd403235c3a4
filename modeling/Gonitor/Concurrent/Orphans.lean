import Gonitor.Concurrent.Invariants
import Gonitor.Requests.Guarantees

/-!
# One Cron Entry for a Task

`Manager.AddTask` tests `TaskList`, reads the row, calls `cron.AddJob` and writes `TaskList`
in separate steps, and no lock holds them together.  An entry that cron has and that
`TaskList` does not name is an *orphan*: it fires for ever, and no request can remove it.

Orphans come from writes to `TaskList` whose check has gone stale.  Where every write still
agrees with its check (`ActsOnChecked`), each entry is either listed or on its way into the
list (`EntriesHeld`).

## Main Results

- `one_entry_per_task`: without stale writes, a task has at most one entry and that entry is
  listed, once the requests have finished.
- `startTask_twice_leaves_orphan`: two interleaved `StartTask` requests leave an orphan.
-/

namespace Gonitor.Concurrent

open Gonitor.Model Gonitor.Server Gonitor.Requests Gonitor.Task AtomicProgram SoftDelete

variable {ext : Externals} {t : Int}

/-- The writes to `TaskList[t]` agree with what was checked: `start` lists an instance only
    where there is still none, and only the instance that `stop` has looked up is deleted. -/
def ActsOnChecked (t : Int) : StepCondition := fun s L tid o _ =>
  match o with
  | .sched (.taskListPut k _) => k = t → s.sched.taskList.lookup t = none
  | .sched (.taskListDelete k) => k = t → ∀ ti, s.sched.taskList.lookup t = some ti →
    (stages L tid).removed = some ti
  | _ => True

/-- Every thread has ended, or is neither in the middle of `start` nor of `stop`. -/
def Finished (p : ServerPool) : Prop :=
  ∀ tid th, p.threads tid = some th → th.prog.isDone = true ∨ th.loc.stage.isSettled = true

/-- Every entry of the task is the entry of its instance in `TaskList`. -/
def EntriesListed (s : State) (t : Int) : Prop :=
  ∀ x ∈ s.sched.cron.entries, x.job.taskInfo.id = t →
    ∃ ti, s.sched.taskList.lookup t = some ti ∧ ti.entryId = x.id

/-- The entries that run the task. -/
def entriesOf (s : State) (t : Int) : List Entry :=
  s.sched.cron.entries.filter fun x => x.job.taskInfo.id == t

/-! ## The invariant -/

/-- Every entry of the task is listed, or its thread is about to list it. -/
def EntriesHeld (t : Int) (s : State) (L : Nat → Option Local) : Prop :=
  ∀ x ∈ s.sched.cron.entries, x.job.taskInfo.id = t →
    (∃ ti, s.sched.taskList.lookup t = some ti ∧ ti.entryId = x.id) ∨
      ∃ tid, (stages L tid).pending = some (x.job.taskInfo, x.id)

section Held

variable {s s' : State} {L : Nat → Option Local} {tid : Nat} {ℓ ℓ' : Local}

/-- A thread without a pending entry moves; what the remaining entries are listed by stays. -/
theorem EntriesHeld.move (h : EntriesHeld t s L) (hnone : (stages L tid).pending = none)
    (hentries : ∀ x ∈ s'.sched.cron.entries, x ∈ s.sched.cron.entries ∧
      ∀ ti, s.sched.taskList.lookup t = some ti → ti.entryId = x.id →
        s'.sched.taskList.lookup t = some ti) :
    EntriesHeld t s' (Function.update L tid (some ℓ')) := by
  intro x hx hid
  obtain ⟨hmem, hlist⟩ := hentries x hx
  rcases h x hmem hid with ⟨ti, hti, he⟩ | ⟨j, hj⟩
  · exact .inl ⟨ti, hlist ti hti he, he⟩
  · refine .inr ⟨j, ?_⟩
    -- the thread that moves is not the one that holds the entry
    have hne : j ≠ tid := by
      rintro rfl
      rw [hnone] at hj
      cases hj
    rwa [stages_update, Function.update_of_ne hne]

/-- A thread keeps its stage, and the schedule stays as it is. -/
theorem EntriesHeld.same (h : EntriesHeld t s L) (hℓ : L tid = some ℓ)
    (hcron : s'.sched.cron = s.sched.cron) (hlist : s'.sched.taskList = s.sched.taskList)
    (hstage : ℓ'.stage = ℓ.stage) : EntriesHeld t s' (Function.update L tid (some ℓ')) := by
  have hstages : stages (Function.update L tid (some ℓ')) = stages L := by
    rw [stages_update, hstage, ← stages_of_some hℓ, Function.update_eq_self]
  unfold EntriesHeld
  rw [hstages, hcron, hlist]
  exact h

theorem pending_of_settled {σ : Stage} (h : σ.isSettled = true) : σ.pending = none := by
  cases σ with
  | adding taskInfo e => cases h
  | _ => rfl

/-- Writes that agree with their checks leave every entry held. -/
theorem EntriesHeld.op {o : Op} {c : Choice} {r : o.Res}
    (hw : Wellformed s.sched.cron s.sched.taskList (stages L)) (h : EntriesHeld t s L)
    (hℓ : L tid = some ℓ) (hallowed : Allowed ℓ o) (hchecked : ActsOnChecked t s L tid o c)
    (hexec : exec ext o c s = some (r, s')) :
    EntriesHeld t s' (Function.update L tid (some (next ℓ o r))) := by
  have hstage := stages_of_some hℓ
  by_cases ho : ∀ d, o ≠ .sched d
  · obtain ⟨hcron, hlist, hst⟩ := schedule_same hexec ho ℓ
    exact h.same hℓ hcron hlist hst
  · push Not at ho
    obtain ⟨o, rfl⟩ := ho
    obtain ⟨-, rfl, rfl⟩ := exec_sched hexec
    cases o with
    | taskListKeys => exact h.same hℓ rfl rfl rfl
    | runningInstances e => exact h.same hℓ rfl rfl rfl
    | stopRunning e log =>
      have hd := stopRunning_sched ext c s.sched s.os e log
      exact h.same hℓ (congrArg Scheduler.cron hd) (congrArg Scheduler.taskList hd) rfl
    | taskListGet k =>
      exact h.move (by rw [hstage]; exact pending_of_settled hallowed)
        fun x hx => ⟨hx, fun ti hti _ => hti⟩
    | cronRemove e =>
      obtain ⟨k, ti, hfound, rfl⟩ := hallowed
      exact h.move (by rw [hstage, hfound]; rfl)
        fun x hx => ⟨List.mem_of_mem_filter hx, fun ti hti _ => hti⟩
    | taskListDelete k =>
      refine h.move ?_ fun x hx => ⟨hx, fun ti hti he => ?_⟩
      · rw [hstage]
        rcases hallowed with ⟨j, ti, hstop, -⟩ | ⟨j, ti, hstop, -⟩ <;> rw [hstop] <;> rfl
      · rcases eq_or_ne t k with rfl | hne
        · -- the entry of the instance that is deleted has been removed before
          exact absurd he.symm (hw.removed_gone tid ti (hchecked rfl ti hti) x hx)
        · exact (AList.lookup_erase_ne hne).trans hti
    | cronAddJob spec job =>
      obtain ⟨hidle, -, -⟩ := hallowed
      rcases addJob_cases ext c s.sched s.os spec job with hok | herror
      · rw [hok]
        intro x hx hid
        simp only [Cron.addJob, List.mem_append, List.mem_singleton] at hx
        -- the new entry is held by the thread that has added it
        rcases hx with hold | rfl
        · exact h.move (by rw [hstage, hidle]; rfl) (fun x hx => ⟨hx, fun _ hti _ => hti⟩) x hold hid
        · refine .inr ⟨tid, ?_⟩
          rw [stages_update, Function.update_self]
          rfl
      · rw [herror]
        exact h.same hℓ rfl rfl rfl
    | taskListPut k ti =>
      obtain ⟨task, e, hadding, rfl, hinfo, rfl⟩ := hallowed
      intro x hx hid
      -- an entry that is listed stays listed, since the write found its place empty
      rcases h x hx hid with ⟨ti', hti', he⟩ | ⟨j, hj⟩
      · refine .inl ⟨ti', ?_, he⟩
        have hne : t ≠ task.id := by
          rintro rfl
          rw [hchecked rfl] at hti'
          cases hti'
        exact (AList.lookup_insert_ne hne).trans hti'
      · rcases eq_or_ne j tid with rfl | hne
        -- the entry that this thread held is listed now
        · rw [hstage, hadding] at hj
          simp only [Stage.pending, Option.some.injEq, Prod.mk.injEq] at hj
          obtain ⟨rfl, he⟩ := hj
          exact .inl ⟨ti, hid ▸ AList.lookup_insert _, he⟩
        · exact .inr ⟨j, by rwa [stages_update, Function.update_of_ne hne]⟩

/-- In a run without stale writes every entry is held. -/
theorem entriesHeld_of_reach {p₀ p : ServerPool} (h₀ : Initial ext p₀)
    (h : (server ext).Reach (onOps (ActsOnChecked t)) p₀ p) :
    Wellformed p.shared.sched.cron p.shared.sched.taskList (stages (locals p)) ∧
      EntriesHeld t p.shared (locals p) := by
  refine h₀.invariant h ?_ ?_ ?_
  · intro x hx hid
    -- start-up has no requests beside it, so its schedule is sound
    obtain ⟨t', ti, hti, he, hjob⟩ := (healthy_of_startedUp h₀.1).sound.entry_listed x hx
    have hkey := ((healthy_of_startedUp h₀.1).sound.key_eq t' ti hti).2
    rw [hjob] at hid
    obtain rfl : t' = t := hkey.symm.trans hid
    exact .inl ⟨ti, hti, he⟩
  · intro s L tid ℓ _ hi hnone hfresh
    unfold EntriesHeld
    rwa [stages_spawn hnone hfresh]
  · intro s L tid ℓ o c r s' hw hi hℓ hallowed hchecked hexec
    exact hi.op hw hℓ hallowed hchecked hexec

end Held

/-! ## The guarantee -/

/-- Threads that have finished have no pending entry. -/
theorem Finished.pending {p : ServerPool} (hfin : Finished p)
    (hd : (server ext).Disciplined Allowed Final p) (tid : Nat) :
    (stages (locals p) tid).pending = none := by
  cases hth : p.threads tid with
  | none => simp [stages, locals, hth, Stage.pending]
  | some th =>
    have hloc : locals p tid = some th.loc := by simp [locals, hth]
    rw [stages_of_some hloc]
    apply pending_of_settled
    -- a thread that has ended is settled, by the discipline
    rcases hfin tid th hth with hdone | hsettled
    · have hfollows := hd tid th hth
      obtain ⟨prog, loc⟩ := th
      cases prog with
      | pure a => exact hfollows.1
      | op o k => cases hdone
    · exact hsettled

/-- **One cron entry for a task**: where no write to `TaskList[t]` is stale, once the
    requests have finished there is at most one entry for the task, and it is listed. -/
theorem one_entry_per_task {p₀ p : ServerPool} (h₀ : Initial ext p₀)
    (h : (server ext).Reach (onOps (ActsOnChecked t)) p₀ p) (hfin : Finished p) :
    (entriesOf p.shared t).length ≤ 1 ∧ EntriesListed p.shared t := by
  obtain ⟨hw, hheld⟩ := entriesHeld_of_reach h₀ h
  have hd : (server ext).Disciplined Allowed Final p :=
    Reached.disciplined ⟨p₀, h₀, h.mono fun _ _ _ => trivial⟩
  have hlisted : EntriesListed p.shared t := by
    intro x hx hid
    rcases hheld x hx hid with hl | ⟨tid, hpending⟩
    · exact hl
    · rw [hfin.pending hd tid] at hpending
      cases hpending
  refine ⟨?_, hlisted⟩
  -- two entries would both be the entry of the one instance
  have hsame : ∀ x ∈ entriesOf p.shared t, ∀ y ∈ entriesOf p.shared t, x.id = y.id := by
    intro x hx y hy
    obtain ⟨hx, hxt⟩ := List.mem_filter.mp hx
    obtain ⟨hy, hyt⟩ := List.mem_filter.mp hy
    obtain ⟨ti, hti, hxe⟩ := hlisted x hx (by simpa using hxt)
    obtain ⟨ti', hti', hye⟩ := hlisted y hy (by simpa using hyt)
    rw [hti, Option.some.injEq] at hti'
    rw [← hxe, ← hye, hti']
  have hnodup : ((entriesOf p.shared t).map Entry.id).Nodup :=
    hw.entry_nodup.sublist (List.filter_sublist.map Entry.id)
  match hentries : entriesOf p.shared t with
  | [] => simp
  | [x] => simp
  | x :: y :: rest =>
    rw [hentries] at hsame hnodup
    have hxy := hsame x (by simp) y (by simp)
    simp [hxy] at hnodup

/-! ## Two `StartTask` requests -/

/-- A database with one task that is stopped. -/
def stoppedTaskDatabase : Database :=
  { emptyDatabase with task := Table.empty.create { oneTask with isDisable := true } 0 }

/-- The pool after start-up on that database. -/
def stoppedTaskPool : ServerPool := ⟨State.boot stoppedTaskDatabase 0, fun _ => none⟩

theorem stoppedTaskPool_initial : Initial plainExternals stoppedTaskPool :=
  ⟨⟨stoppedTaskDatabase, 0, .op ⟨{}, trivial, rfl⟩ (.pure _ _)⟩, fun _ => rfl⟩

/-- One such request alone leaves one entry, which is listed. -/
theorem one_entry_per_task_startTask :
    ∃ p, (server plainExternals).Reach (onOps (ActsOnChecked 1)) stoppedTaskPool p ∧ Finished p ∧
      entriesOf p.shared 1 ≠ [] ∧ (entriesOf p.shared 1).length ≤ 1 ∧ EntriesListed p.shared 1 := by
  have hrun : ∃ p, (server plainExternals).Reach (onOps (ActsOnChecked 1)) stoppedTaskPool p ∧
      Finished p ∧ entriesOf p.shared 1 ≠ [] := by
    -- the row is read, saved; `AddTask`: the list, the row, cron, the list; the audit entry
    refine ⟨_, .head ⟨.spawn 0 startRequest, trivial, rfl⟩ (.head ⟨.op 0 {}, ?_, rfl⟩
      (.head ⟨.op 0 {}, ?_, rfl⟩ (.head ⟨.op 0 {}, ?_, rfl⟩ (.head ⟨.op 0 {}, ?_, rfl⟩
      (.head ⟨.op 0 {}, ?_, rfl⟩ (.head ⟨.op 0 {}, ?_, rfl⟩ (.head ⟨.op 0 {}, ?_, rfl⟩
      .refl))))))), ?_, ?_⟩
    case refine_8 =>
      intro tid th hth
      rcases eq_or_ne tid 0 with rfl | hne
      · cases hth
        exact .inl rfl
      · simp [stoppedTaskPool, hne] at hth
    case refine_9 => exact List.cons_ne_nil _ _
    all_goals rintro _ _ _ ⟨⟩; first | trivial | exact fun _ => rfl
  obtain ⟨p, hreach, hfin, hsome⟩ := hrun
  exact ⟨p, hreach, hfin, hsome, one_entry_per_task stoppedTaskPool_initial hreach hfin⟩

/-- The second request comes to its end between the first one's test of `TaskList` and its
    call of `cron.AddJob`. -/
def twoStarts : List (Label Choice Start) :=
  [.spawn 0 startRequest, .spawn 1 startRequest] ++ List.replicate 4 (.op 0 {}) ++
    List.replicate 7 (.op 1 {}) ++ List.replicate 3 (.op 0 {})

/-- Two interleaved `StartTask` requests leave two entries, one of them an orphan. -/
theorem startTask_twice_leaves_orphan :
    ¬ ∀ p, Reached plainExternals p → Finished p →
      ∀ t, (entriesOf p.shared t).length ≤ 1 ∧ EntriesListed p.shared t := by
  intro hall
  have hrun : ∃ p, (server plainExternals).run twoStarts stoppedTaskPool = some p ∧
      Finished p ∧ (entriesOf p.shared 1).length = 2 := by
    refine ⟨_, rfl, ?_, rfl⟩
    intro tid th hth
    rcases eq_or_ne tid 0 with rfl | hne
    · cases hth
      exact .inl rfl
    · rcases eq_or_ne tid 1 with rfl | hne'
      · cases hth
        exact .inl rfl
      · simp [stoppedTaskPool, hne, hne'] at hth
  obtain ⟨p, hp, hfin, htwo⟩ := hrun
  have hone := (hall p ⟨stoppedTaskPool, stoppedTaskPool_initial, System.reach_of_run hp⟩ hfin 1).1
  rw [htwo] at hone
  exact absurd hone (by decide)

end Gonitor.Concurrent
