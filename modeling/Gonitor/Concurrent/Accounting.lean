import Gonitor.Concurrent.Phases
import Gonitor.Concurrent.Processes

/-!
# The Running Instances of a Task

`TaskList[t].RunningInstances` is what the pages show as the running count of a task.  A run is
put in by `run`, under its task id, after each start of its command.  It is taken out by the
deferred function of `ExecJobWrapper.Run`; `StartOnceTask` has no such function.  The map is new
whenever the task is scheduled again.

`AccountsFor` excludes the steps that make the map wrong: listing an instance while a run of the
task is registered, and the end of a registered run that nothing takes out.

## Main Results

- `running_instances_exact`: without such steps the map holds exactly the runs that have started
  a process and not finished their completion.
- `startOnceTask_stays_registered`: a run-once run stays in the map after its end.
-/

namespace Gonitor.Concurrent

open Gonitor.Model Gonitor.Server Gonitor.Requests Gonitor.Task AtomicProgram SoftDelete

variable {t : Int}

/-- The run of a task counts under the log row `l`: it has been through `addTaskRunningIns` and
    has not finished its completion. -/
def Run.Counted (run : Run) (t l : Int) : Prop :=
  run.task.id = t ∧ run.log = some l ∧ run.recorded = true ∧ run.phase ≠ .over

/-- A run of the task counts under `l`. -/
def CountedIn (run : Nat → Option Run) (t l : Int) : Prop :=
  ∃ j r, run j = some r ∧ r.Counted t l

/-- The run of the thread is not in the running instances of the task. -/
def NotRegistered (t : Int) (s : State) (L : Nat → Option Local) (tid : Nat) : Prop :=
  ∀ run l ti, runs L tid = some run → run.task.id = t → run.log = some l →
    s.sched.taskList.lookup t = some ti → l ∉ s.sched.running ti.entryId

/-- No instance of the task is listed while one of its runs counts; and where a run-once run
    ends, or the result handler of a run panics, the run is not registered. -/
def AccountsFor (t : Int) : StepCondition := fun s L tid o c =>
  match o with
  | .sched (.taskListPut k _) => k = t → ∀ l, ¬ CountedIn (runs L) t l
  | .db (.saveTaskLog _) =>
    (∀ run, runs L tid = some run → run.scheduled = true ∨ run.task.resultHandler.utf8ByteSize > 0) ∨
      NotRegistered t s L tid
  | .run (.resultHandler _) =>
    (c.fail = false ∧ ∀ run, runs L tid = some run → run.scheduled = true) ∨
      NotRegistered t s L tid
  | _ => True

/-! ## The invariant -/

/-- The running instances of the task are the runs that count; an entry without an instance has
    no running instances. -/
structure Accounted (t : Int) (s : State) (L : Nat → Option Local) : Prop where
  unused : ∀ e, s.sched.cron.nextID ≤ e → s.sched.running e = []
  pending : ∀ j task e, (stages L j).pending = some (task, e) → s.sched.running e = []
  nodup : ∀ e, (s.sched.running e).Nodup
  exact : ∀ ti, s.sched.taskList.lookup t = some ti →
    ∀ l, l ∈ s.sched.running ti.entryId ↔ CountedIn (runs L) t l

section Runs

variable {run : Nat → Option Run} {tid : Nat} {r r' : Run} {l : Int}

/-- Only the run of one thread has changed, and it counts as before. -/
theorem countedIn_update {a : Option Run}
    (h : (∃ r, a = some r ∧ r.Counted t l) ↔ ∃ r, run tid = some r ∧ r.Counted t l) :
    CountedIn (Function.update run tid a) t l ↔ CountedIn run t l := by
  constructor
  · rintro ⟨j, b, hb, hc⟩
    rcases update_eq_some hb with ⟨rfl, hself⟩ | ⟨-, hold⟩
    · exact ⟨j, h.mp ⟨b, hself, hc⟩⟩
    · exact ⟨j, b, hold, hc⟩
  · rintro ⟨j, b, hb, hc⟩
    rcases eq_or_ne j tid with rfl | hne
    · obtain ⟨r, ha, hr⟩ := h.mpr ⟨b, hb, hc⟩
      exact ⟨j, r, by rwa [Function.update_self], hr⟩
    · exact ⟨j, b, by rwa [Function.update_of_ne hne], hc⟩

/-- A run that has not been recorded does not count. -/
theorem Run.not_counted (h : r.recorded = false) : ¬ r.Counted t l := fun hc => by
  rw [hc.2.2.1] at h
  cases h

theorem RunsSound.not_recorded_of_early {s : State} (h : RunsSound s run) (hr : run tid = some r)
    (hearly : r.phase.isEarly = true) : r.recorded = false := by
  by_contra hne
  obtain ⟨l, pid, hl, -⟩ := (h.each tid r hr).recorded (by simpa using hne)
  rw [(h.each tid r hr).early hearly] at hl
  cases hl

end Runs

section Steps

variable {ext : Externals} {s s' : State} {L L' : Nat → Option Local} {tid : Nat} {ℓ : Local}
  {c : Choice}

/-- A step of a run: what has to be shown is what it does to the running instances. -/
theorem Accounted.runStep (h : Accounted t s L)
    (hw : Wellformed s.sched.cron s.sched.taskList (stages L))
    (hcron : s'.sched.cron = s.sched.cron) (hlist : s'.sched.taskList = s.sched.taskList)
    (hstages : stages L' = stages L)
    (hunlisted : ∀ e, (∀ k ti, s.sched.taskList.lookup k = some ti → ti.entryId ≠ e) →
      s'.sched.running e = s.sched.running e)
    (hnodup : ∀ e, (s'.sched.running e).Nodup)
    (hexact : ∀ ti, s.sched.taskList.lookup t = some ti →
      ∀ l, l ∈ s'.sched.running ti.entryId ↔ CountedIn (runs L') t l) : Accounted t s' L' where
  unused e he := by
    rw [hcron] at he
    -- an entry that does not exist yet is the entry of no instance
    refine (hunlisted e fun k ti hti heq => ?_).trans (h.unused e he)
    exact absurd (hw.inst_lt k ti hti) (Nat.not_lt.mpr (heq ▸ he))
  pending j task e hj := by
    rw [hstages] at hj
    exact (hunlisted e (hw.pending_free j task e hj)).trans (h.pending j task e hj)
  nodup := hnodup
  exact ti hti := hexact ti (hlist ▸ hti)

/-- The step changes no running instances, and the thread's run counts as before. -/
theorem Accounted.move (h : Accounted t s L)
    (hw : Wellformed s.sched.cron s.sched.taskList (stages L)) (hℓ : L tid = some ℓ) {ℓ' : Local}
    (hcron : s'.sched.cron = s.sched.cron) (hlist : s'.sched.taskList = s.sched.taskList)
    (hstage : ℓ'.stage = ℓ.stage) (hrunning : s'.sched.running = s.sched.running)
    (hcount : ∀ ti, s.sched.taskList.lookup t = some ti →
      (∀ l, l ∈ s.sched.running ti.entryId ↔ CountedIn (runs L) t l) →
      ∀ l, (∃ run, ℓ'.run = some run ∧ run.Counted t l) ↔ ∃ run, ℓ.run = some run ∧ run.Counted t l) :
    Accounted t s' (Function.update L tid (some ℓ')) := by
  refine h.runStep hw hcron hlist ?_ (fun e _ => by rw [hrunning]) (fun e => ?_) fun ti hti l => ?_
  · rw [stages_update, hstage, ← stages_of_some hℓ, Function.update_eq_self]
  · rw [hrunning]
    exact h.nodup e
  · rw [hrunning, h.exact ti hti l, runs_update]
    have hsame := hcount ti hti (h.exact ti hti) l
    rw [← runs_of_some hℓ] at hsame
    exact (countedIn_update hsame).symm

/-- The two runs count under the same log rows. -/
theorem Run.counted_iff (run run' : Run) (htask : run'.task = run.task) (hlog : run'.log = run.log)
    (hrec : run'.recorded = run.recorded) (hphase : run'.phase = .over ↔ run.phase = .over) (l : Int) :
    run'.Counted t l ↔ run.Counted t l := by
  unfold Run.Counted
  rw [htask, hlog, hrec, ne_eq, hphase]

/-- A run that is not registered does not count, when the invariant holds. -/
theorem NotRegistered.not_counted (hnot : NotRegistered t s L tid) {ti : TaskInstance}
    (hti : s.sched.taskList.lookup t = some ti)
    (hexact : ∀ l, l ∈ s.sched.running ti.entryId ↔ CountedIn (runs L) t l) {run : Run}
    (hrun : runs L tid = some run) (l : Int) : ¬ run.Counted t l := fun hc =>
  hnot run l ti hrun hc.1 hc.2.1 hti ((hexact l).mpr ⟨tid, run, hrun, hc⟩)

/-- The database operations. -/
theorem Accounted.dbOp (h : Accounted t s L)
    (hw : Wellformed s.sched.cron s.sched.taskList (stages L)) (hsound : RunsSound s (runs L))
    (hℓ : L tid = some ℓ) {o : DbOp} {r : o.Res} (hallowed : AllowedDb ℓ o)
    (hC : AccountsFor t s L tid (.db o) c) (hexec : exec ext (.db o) c s = some (r, s')) :
    Accounted t s' (Function.update L tid (some (next ℓ (.db o) r))) := by
  obtain ⟨hcron, hlist, hstage⟩ := schedule_same hexec (by simp) ℓ
  have hrunning : s'.sched.running = s.sched.running := by
    obtain ⟨-, -, rfl⟩ := exec_db hexec
    rfl
  refine h.move hw hℓ hcron hlist hstage hrunning fun ti hti hexact l => ?_
  have hruns := runs_of_some hℓ
  rw [show (next ℓ (.db o) r).run = _ from run_nextDb ℓ o r]
  cases hrun : ℓ.run with
  | none => simp
  | some run =>
    simp only [Option.map_some, Option.some.injEq, exists_eq_left']
    have hr : runs L tid = some run := hruns.trans hrun
    by_cases hcreate : ∃ row, o = .createTaskLog row
    · -- before the gate a run does not count, and right behind it neither
      obtain ⟨row, rfl⟩ := hcreate
      obtain ⟨run', hrun', hphase⟩ := hallowed
      obtain rfl : run = run' := Option.some.inj (hrun.symm.trans hrun')
      have hrec := hsound.not_recorded_of_early hr (by rw [hphase]; rfl)
      have hrec' : (run.logged (.createTaskLog row) r).recorded = false := by
        cases r with
        | error err => exact hrec
        | ok log =>
          simp only [Run.logged]
          split <;> exact hrec
      exact iff_of_false (Run.not_counted hrec') (Run.not_counted hrec)
    · by_cases hsave : ∃ row, o = .saveTaskLog row
      · obtain ⟨row, rfl⟩ := hsave
        obtain ⟨run', hrun', hphase, -⟩ := hallowed
        obtain rfl : run = run' := Option.some.inj (hrun.symm.trans hrun')
        have hgoing : run.phase ≠ .over := by
          rcases hphase with hp | hp | hp <;> rw [hp] <;> decide
        simp only [Run.logged]
        -- the run goes on to its completion; or it ends here, and then it was not registered
        rcases hC with hgoes | hnot
        · rw [if_pos (hgoes run hr)]
          exact run.counted_iff { run with phase := .completing } rfl rfl rfl
            (iff_of_false (by simp) hgoing) l
        · refine iff_of_false (fun hc => ?_) (hnot.not_counted hti hexact hr l)
          exact hnot.not_counted hti hexact hr l ⟨hc.1, hc.2.1, hc.2.2.1, hgoing⟩
      · cases o with
        | createTaskLog row => exact absurd ⟨row, rfl⟩ hcreate
        | saveTaskLog row => exact absurd ⟨row, rfl⟩ hsave
        | _ => exact Iff.rfl

/-- The operations on the schedule. -/
theorem Accounted.schedOp (h : Accounted t s L) (hℓ : L tid = some ℓ) {o : SchedOp} {r : o.Res}
    (hallowed : AllowedSched ℓ o) (hC : AccountsFor t s L tid (.sched o) c)
    (hexec : exec ext (.sched o) c s = some (r, s')) :
    Accounted t s' (Function.update L tid (some (next ℓ (.sched o) r))) := by
  have hruns : runs (Function.update L tid (some (next ℓ (.sched o) r))) = runs L := by
    rw [runs_update, show (next ℓ (.sched o) r).run = ℓ.run from rfl, ← runs_of_some hℓ,
      Function.update_eq_self]
  have hstage := stages_of_some hℓ
  -- operations after which no entry is pending that was not before
  have hkeep : s.sched.cron.nextID ≤ s'.sched.cron.nextID → s'.sched.running = s.sched.running →
      (∀ task e, (next ℓ (.sched o) r).stage.pending = some (task, e) →
        (stages L tid).pending = some (task, e) ∨ s.sched.running e = []) →
      (∀ ti, s'.sched.taskList.lookup t = some ti → s.sched.taskList.lookup t = some ti ∨
        (s.sched.running ti.entryId = [] ∧ ∀ l, ¬ CountedIn (runs L) t l)) →
      Accounted t s' (Function.update L tid (some (next ℓ (.sched o) r))) := by
    intro hnext hrunning hpending hlisted
    constructor
    case unused => exact fun e he => (congrFun hrunning e).trans (h.unused e (le_trans hnext he))
    case pending =>
      intro j task e hj
      rw [hrunning]
      rw [stages_update] at hj
      rcases eq_or_ne j tid with rfl | hne
      · rw [Function.update_self] at hj
        rcases hpending task e hj with hold | hempty
        · exact h.pending j task e hold
        · exact hempty
      · rw [Function.update_of_ne hne] at hj
        exact h.pending j task e hj
    case nodup => exact fun e => (congrFun hrunning e) ▸ h.nodup e
    case exact =>
      intro ti hti l
      rw [hrunning, hruns]
      rcases hlisted ti hti with hold | ⟨hempty, hnone⟩
      · exact h.exact ti hold l
      · rw [hempty]
        exact iff_of_false List.not_mem_nil (hnone l)
  have hsame : ∀ task e, ℓ.stage.pending = some (task, e) →
      (stages L tid).pending = some (task, e) ∨ s.sched.running e = [] :=
    fun task e hj => .inl (hstage ▸ hj)
  obtain ⟨-, rfl, rfl⟩ := exec_sched hexec
  cases o with
  | taskListKeys => exact hkeep (le_refl _) rfl hsame fun ti hti => .inl hti
  | runningInstances e => exact hkeep (le_refl _) rfl hsame fun ti hti => .inl hti
  | stopRunning e log =>
    have hd := stopRunning_sched ext c s.sched s.os e log
    refine hkeep (le_of_eq ?_) (congrArg Scheduler.running hd) hsame fun ti hti => .inl ?_
    · exact (congrArg (fun d : Scheduler => d.cron.nextID) hd).symm
    · rwa [← congrArg Scheduler.taskList hd]
  | taskListGet k =>
    refine hkeep (le_refl _) rfl (fun task e hj => ?_) fun ti hti => .inl hti
    simp only [SchedOp.exec, next] at hj
    cases hlookup : s.sched.taskList.lookup k <;> rw [hlookup] at hj <;> cases hj
  | cronRemove e =>
    obtain ⟨k, ti, hfound, rfl⟩ := hallowed
    refine hkeep (le_refl _) rfl (fun task e hj => ?_) fun ti hti => .inl hti
    simp only [next, Stage.next, hfound] at hj
    cases hj
  | taskListDelete k =>
    refine hkeep (le_refl _) rfl (fun task e hj => ?_) fun ti hti =>
      .inl (lookup_of_lookup_erase hti).2
    rcases hallowed with ⟨j, ti, hstop, -⟩ | ⟨j, ti, hstop, -⟩ <;>
      simp only [next, Stage.next, hstop] at hj <;> cases hj
  -- the entry that is pending now is a new one, and nothing is registered under it
  | cronAddJob spec job =>
    rcases addJob_cases ext c s.sched s.os spec job with hok | herror
    · rw [hok] at hkeep ⊢
      refine hkeep (Nat.le_succ _) rfl (fun task e hj => .inr ?_) fun ti hti => .inl hti
      cases hj
      exact h.unused _ (le_refl _)
    · rw [herror] at hkeep ⊢
      exact hkeep (le_refl _) rfl hsame fun ti hti => .inl hti
  | taskListPut k ti =>
    obtain ⟨task, e, hadding, rfl, hinfo, rfl⟩ := hallowed
    refine hkeep (le_refl _) rfl (fun task e hj => by cases hj) fun ti' hti' => ?_
    -- the new instance starts with an empty map: by the condition no run counts
    rcases eq_or_ne t task.id with rfl | hne
    · simp only [SchedOp.exec, AList.lookup_insert, Option.some.injEq] at hti'
      refine .inr ⟨?_, hC rfl⟩
      rw [← hti']
      exact h.pending tid task _ (by rw [hstage, hadding]; rfl)
    · exact .inl ((AList.lookup_insert_ne hne).symm.trans hti')

/-- What `register` does to the running instances of an entry. -/
theorem register_running (d : Scheduler) (taskId log : Int) (e : EntryID) :
    (∃ ti, d.taskList.lookup taskId = some ti ∧ ti.entryId = e ∧
      (d.register taskId log).running e = (d.running e).insert log) ∨
    ((∀ ti, d.taskList.lookup taskId = some ti → ti.entryId ≠ e) ∧
      (d.register taskId log).running e = d.running e) := by
  unfold Scheduler.register
  cases hti : d.taskList.lookup taskId with
  | none => exact .inr ⟨by simp, rfl⟩
  | some ti =>
    rcases eq_or_ne e ti.entryId with rfl | hne
    · exact .inl ⟨ti, rfl, rfl, by simp⟩
    · refine .inr ⟨?_, by simp [hne]⟩
      rintro ti' ⟨⟩
      exact hne.symm

/-- The step of `addTaskRunningIns`. -/
theorem Accounted.register (h : Accounted t s L)
    (hw : Wellformed s.sched.cron s.sched.taskList (stages L)) (hℓ : L tid = some ℓ) {run : Run}
    (hrun : ℓ.run = some run) {log pid : _} (hphase : run.phase = .attached pid)
    (hlog : run.log = some log) (hs' : s' = { s with
      clock := s.clock + c.elapsed
      sched := s.sched.register run.task.id log }) :
    Accounted t s' (Function.update L tid
      (some { ℓ with run := some { run with recorded := true } })) := by
  have hrunning : s'.sched.running = (s.sched.register run.task.id log).running := by rw [hs']
  have hsame : (s.sched.register run.task.id log).cron = s.sched.cron ∧
      (s.sched.register run.task.id log).taskList = s.sched.taskList := by
    unfold Scheduler.register
    split <;> exact ⟨rfl, rfl⟩
  have hr : runs L tid = some run := (runs_of_some hℓ).trans hrun
  refine h.runStep hw (by rw [hs']; exact hsame.1) (by rw [hs']; exact hsame.2) ?_ ?_ ?_ ?_
  · rw [stages_update, ← stages_of_some hℓ, Function.update_eq_self]
  · intro e he
    rw [hrunning]
    rcases register_running s.sched run.task.id log e with ⟨ti, hti, heq, -⟩ | ⟨-, hkeep⟩
    · exact absurd heq (he _ ti hti)
    · exact hkeep
  · intro e
    rw [hrunning]
    rcases register_running s.sched run.task.id log e with ⟨-, -, -, hins⟩ | ⟨-, hkeep⟩
    · rw [hins]
      exact (h.nodup e).insert
    · rw [hkeep]
      exact h.nodup e
  · intro ti hti l
    have hexact := h.exact ti hti l
    rw [hrunning, runs_update]
    have hover : run.phase ≠ .over := by rw [hphase]; simp
    by_cases hown : run.task.id = t ∧ l = log
    · -- the run counts from here on
      obtain ⟨htask, rfl⟩ := hown
      refine iff_of_true ?_ ⟨tid, _, Function.update_self .., htask, hlog, rfl, hover⟩
      rcases register_running s.sched run.task.id l ti.entryId with ⟨-, -, -, hins⟩ | ⟨hno, -⟩
      · rw [hins]
        exact List.mem_insert_self
      · exact absurd rfl (hno ti (htask ▸ hti))
    -- another task, or another run: it counts as before
    · have hcount : CountedIn (Function.update (runs L) tid
          (some { run with recorded := true })) t l ↔ CountedIn (runs L) t l := by
        refine countedIn_update ?_
        rw [hr]
        simp only [Option.some.injEq, exists_eq_left']
        refine iff_of_false (fun hc => ?_) fun hc => ?_
        · exact hown ⟨hc.1, Option.some.inj (hc.2.1.symm.trans hlog)⟩
        · exact hown ⟨hc.1, Option.some.inj (hc.2.1.symm.trans hlog)⟩
      rw [hcount, ← hexact]
      rcases register_running s.sched run.task.id log ti.entryId with ⟨ti', hti', heq, hins⟩ | ⟨-, hkeep⟩
      · have htask : run.task.id = t := hw.inst_unique _ ti' t ti hti' hti heq
        rw [hins, List.mem_insert_iff]
        exact or_iff_right fun heq => hown ⟨htask, heq⟩
      · rw [hkeep]

/-- The step of the deferred function that takes the run out. -/
theorem Accounted.forget (h : Accounted t s L)
    (hw : Wellformed s.sched.cron s.sched.taskList (stages L)) (hsound : RunsSound s (runs L))
    (hℓ : L tid = some ℓ) {run : Run} (hrun : ℓ.run = some run) {log : Int}
    (hlog : run.log = some log) {ti₀ : TaskInstance}
    (hti₀ : s.sched.taskList.lookup run.task.id = some ti₀) (hs' : s' = { s with
      clock := s.clock + c.elapsed
      sched := s.sched.forget ti₀ log }) :
    Accounted t s' (Function.update L tid
      (some { ℓ with run := some { run with phase := .over } })) := by
  have hrunning : ∀ e, s'.sched.running e =
      if e = ti₀.entryId then (s.sched.running e).filter (fun l => l != log)
      else s.sched.running e := by
    intro e
    rw [hs']
    simp only [Scheduler.forget, Function.update_apply]
    split
    · rename_i heq
      rw [heq]
    · rfl
  have hr : runs L tid = some run := (runs_of_some hℓ).trans hrun
  refine h.runStep hw (by rw [hs']; rfl) (by rw [hs']; rfl) ?_ ?_ ?_ ?_
  · rw [stages_update, ← stages_of_some hℓ, Function.update_eq_self]
  · intro e he
    rw [hrunning, if_neg fun heq => he _ ti₀ hti₀ heq.symm]
  · intro e
    rw [hrunning]
    split
    · exact (h.nodup e).filter _
    · exact h.nodup e
  · intro ti hti l
    rw [runs_update, hrunning]
    -- the run leaves the map of its task at the moment it ceases to count
    by_cases hown : run.task.id = t ∧ l = log
    · obtain ⟨htask, rfl⟩ := hown
      obtain rfl : ti = ti₀ := by
        rw [← htask, hti₀, Option.some.injEq] at hti
        exact hti.symm
      rw [if_pos rfl]
      refine iff_of_false (by simp) ?_
      rintro ⟨j, a, ha, hc⟩
      rcases update_eq_some ha with ⟨-, ⟨⟩⟩ | ⟨hne, hold⟩
      · exact hc.2.2.2 rfl
      -- no other run has this name
      · exact hne (hsound.log_unique j tid a run l hold hr hc.2.1 hlog)
    · have hcount : CountedIn (Function.update (runs L) tid
          (some { run with phase := .over })) t l ↔ CountedIn (runs L) t l := by
        refine countedIn_update ?_
        rw [hr]
        simp only [Option.some.injEq, exists_eq_left']
        refine iff_of_false (fun hc => hc.2.2.2 rfl) fun hc => ?_
        exact hown ⟨hc.1, Option.some.inj (hc.2.1.symm.trans hlog)⟩
      rw [hcount, ← h.exact ti hti l]
      split
      · rename_i heq
        have htask : run.task.id = t := hw.inst_unique _ ti₀ t ti hti₀ hti heq.symm
        rw [List.mem_filter, and_iff_left]
        simpa using fun heq => hown ⟨htask, heq⟩
      · rfl

/-- All other operations of a run leave the running instances alone. -/
theorem exec_running {o : RunOp} {d d' : Scheduler} {os os' : Processes} {r : o.Res}
    (hexec : o.exec c d os = some (r, d', os')) (hregister : ∀ k l, o ≠ .addTaskRunningIns k l)
    (hunregister : ∀ k l, o ≠ .unregister k l) : d'.running = d.running := by
  cases o with
  | addTaskRunningIns k l => exact absurd rfl (hregister k l)
  | unregister k l => exact absurd rfl (hunregister k l)
  | startProcess task log command args =>
    simp only [RunOp.exec] at hexec
    split at hexec
    · cases hexec
      rfl
    · split at hexec <;> cases hexec
      rfl
  | waitReturn log timeout =>
    simp only [RunOp.exec] at hexec
    split at hexec <;> cases hexec
    rfl
  | tryAcquire e =>
    simp only [RunOp.exec] at hexec
    split at hexec <;> cases hexec <;> rfl
  | acquire e =>
    simp only [RunOp.exec] at hexec
    split at hexec <;> cases hexec
    rfl
  | _ =>
    cases hexec
    rfl

/-- They leave what the run is registered under. -/
theorem advance_names (run : Run) {o : RunOp} (r : o.Res)
    (hregister : ∀ k l, o ≠ .addTaskRunningIns k l) :
    (run.advance o r).log = run.log ∧ (run.advance o r).recorded = run.recorded := by
  unfold Run.advance
  split <;> first | exact ⟨rfl, rfl⟩ | exact absurd rfl (hregister _ _)

/-- The run goes on, or has ended before. -/
theorem Accounted.goesOn (h : Accounted t s L)
    (hw : Wellformed s.sched.cron s.sched.taskList (stages L)) (hℓ : L tid = some ℓ) {ℓ' : Local}
    (hcron : s'.sched.cron = s.sched.cron) (hlist : s'.sched.taskList = s.sched.taskList)
    (hstage : ℓ'.stage = ℓ.stage) (hrunning : s'.sched.running = s.sched.running) {run run' : Run}
    (hrun : ℓ.run = some run) (hrun' : ℓ'.run = some run') (htask : run'.task = run.task)
    (hlog : run'.log = run.log) (hrec : run'.recorded = run.recorded)
    (hphase : run'.phase = .over ↔ run.phase = .over) :
    Accounted t s' (Function.update L tid (some ℓ')) := by
  refine h.move hw hℓ hcron hlist hstage hrunning fun ti hti hexact l => ?_
  rw [hrun, hrun']
  simp only [Option.some.injEq, exists_eq_left']
  exact run.counted_iff run' htask hlog hrec hphase l

/-- The run ends, and it is not registered. -/
theorem Accounted.ends (h : Accounted t s L)
    (hw : Wellformed s.sched.cron s.sched.taskList (stages L)) (hℓ : L tid = some ℓ) {ℓ' : Local}
    (hcron : s'.sched.cron = s.sched.cron) (hlist : s'.sched.taskList = s.sched.taskList)
    (hstage : ℓ'.stage = ℓ.stage) (hrunning : s'.sched.running = s.sched.running) {run run' : Run}
    (hrun : ℓ.run = some run) (hrun' : ℓ'.run = some run') (hover : run'.phase = .over)
    (hnot : NotRegistered t s L tid ∨ run.recorded = false) :
    Accounted t s' (Function.update L tid (some ℓ')) := by
  refine h.move hw hℓ hcron hlist hstage hrunning fun ti hti hexact l => ?_
  rw [hrun, hrun']
  simp only [Option.some.injEq, exists_eq_left']
  refine iff_of_false (fun hc => hc.2.2.2 hover) ?_
  rcases hnot with hnot | hrec
  · exact hnot.not_counted hti hexact ((runs_of_some hℓ).trans hrun) l
  · exact Run.not_counted hrec

/-- A run that comes to its end by one of these operations is not registered. -/
theorem notRegistered_of_end (hsound : RunsSound s (runs L)) (hℓ : L tid = some ℓ) {o : RunOp}
    {r : o.Res} {run : Run} (hrun : ℓ.run = some run) (hallowed : AllowedRun ℓ o)
    (hC : AccountsFor t s L tid (.run o) c) {d : Scheduler} {os : Processes}
    (hexec : o.exec c s.sched s.os = some (r, d, os)) (hunregister : ∀ k l, o ≠ .unregister k l)
    (hgoing : run.phase ≠ .over) (hover : (run.advance o r).phase = .over) :
    NotRegistered t s L tid ∨ run.recorded = false := by
  have hr : runs L tid = some run := (runs_of_some hℓ).trans hrun
  cases o with
  | unregister k l => exact absurd rfl (hunregister k l)
  | startProcess task log command args => cases r <;> cases hover
  | waitReturn log timeout =>
    cases r with
    | exited stdout =>
      simp only [Run.advance] at hover
      split at hover <;> cases hover
    | failed err stderr => cases hover
    | timedOut => cases hover
  | taskAssertResult output jsCode => cases r <;> cases hover
  | resultHandler code =>
    cases hexec
    rcases hC with ⟨hok, hscheduled⟩ | hnot
    · -- a scheduled run whose handler does not panic goes on to its completion
      simp [Run.advance, hok, hscheduled run hr] at hover
    · exact .inl hnot
  | isRegistered k log =>
    obtain ⟨run₀, hrun₀, hphase, -, hlog, rfl⟩ := hallowed
    obtain rfl : run = run₀ := Option.some.inj (hrun.symm.trans hrun₀)
    simp only [RunOp.exec, Option.some.injEq, Prod.mk.injEq] at hexec
    obtain ⟨hfound, -, -⟩ := hexec
    -- where the run is not found, it is not registered
    left
    intro run' l ti hrun' htask hl hlookup hmem
    obtain rfl : run = run' := Option.some.inj (hr.symm.trans hrun')
    rw [hlog, Option.some.injEq] at hl
    rw [htask, hlookup, hl] at hfound
    simp only [Option.map_some, hmem, decide_true] at hfound
    rw [← hfound] at hover
    cases hover
  | tryAcquire e =>
    obtain ⟨run₀, hrun₀, hphase, -, -⟩ := hallowed
    obtain rfl : run = run₀ := Option.some.inj (hrun.symm.trans hrun₀)
    -- a firing that is skipped has started nothing
    exact .inr (hsound.not_recorded_of_early hr (by rw [hphase]; rfl))
  -- the others leave the phase of the run, or take it to one that is not the last
  | addTaskRunningIns k l => exact absurd hover hgoing
  | acquire e => exact absurd hover hgoing
  | release e => exact absurd hover hgoing
  | crash => exact absurd hover hgoing
  | _ => cases hover

/-- The step of a run-once request that makes its run, which does not count yet. -/
theorem Accounted.runOnce (h : Accounted t s L)
    (hw : Wellformed s.sched.cron s.sched.taskList (stages L)) (hℓ : L tid = some ℓ) {ℓ' : Local}
    (hcron : s'.sched.cron = s.sched.cron) (hlist : s'.sched.taskList = s.sched.taskList)
    (hstage : ℓ'.stage = ℓ.stage) (hrunning : s'.sched.running = s.sched.running) {task : Task}
    (hnone : ℓ.run = none) (hrun' : ℓ'.run = some (Run.once task)) :
    Accounted t s' (Function.update L tid (some ℓ')) := by
  refine h.move hw hℓ hcron hlist hstage hrunning fun ti hti hexact l => ?_
  rw [hnone, hrun']
  refine iff_of_false ?_ (by simp)
  rintro ⟨run, hrun, hc⟩
  cases hrun
  exact Run.not_counted rfl hc

/-- The operations of a run. -/
theorem Accounted.runOp (h : Accounted t s L)
    (hw : Wellformed s.sched.cron s.sched.taskList (stages L)) (hsound : RunsSound s (runs L))
    (hℓ : L tid = some ℓ) {o : RunOp} {r : o.Res} (hallowed : AllowedRun ℓ o)
    (hC : AccountsFor t s L tid (.run o) c) (hexec : exec ext (.run o) c s = some (r, s')) :
    Accounted t s' (Function.update L tid (some (next ℓ (.run o) r))) := by
  obtain ⟨hcron, hlist, hstage⟩ := schedule_same hexec (by simp) ℓ
  obtain ⟨-, d, os, hrunop, hs'⟩ := exec_run hexec
  by_cases hregister : ∃ k l, o = .addTaskRunningIns k l
  · obtain ⟨k, log, rfl⟩ := hregister
    obtain ⟨run, hrun, ⟨pid, hphase⟩, hlog, rfl⟩ := hallowed
    cases hrunop
    have hℓ' : next ℓ (.run (.addTaskRunningIns run.task.id log)) () =
        { ℓ with run := some { run with recorded := true } } := by
      simp only [next, nextRun, hrun, Option.map_some, Run.advance]
    rw [hℓ']
    exact h.register hw hℓ hrun hphase hlog hs'
  by_cases hunregister : ∃ k l, o = .unregister k l
  · obtain ⟨k, log, rfl⟩ := hunregister
    obtain ⟨run, hrun, hphase, -, hlog, rfl⟩ := hallowed
    have hadvance : (next ℓ (.run (.unregister run.task.id log)) r).run =
        some { run with phase := .over } := by
      simp only [next, nextRun, hrun, Option.map_some, Run.advance]
    simp only [RunOp.exec] at hrunop
    split at hrunop
    · rename_i hti
      cases hrunop
      -- the task has left the list between the two reads
      refine h.ends hw hℓ hcron hlist hstage (by rw [hs']) hrun hadvance rfl (.inl ?_)
      intro run' l ti hrun' htask _ hlookup
      obtain rfl : run = run' :=
        Option.some.inj (((runs_of_some hℓ).trans hrun).symm.trans hrun')
      rw [← htask, hti] at hlookup
      cases hlookup
    · rename_i ti hti
      cases hrunop
      have hℓ' : next ℓ (.run (.unregister run.task.id log)) true =
          { ℓ with run := some { run with phase := .over } } := by
        simp only [next, nextRun, hrun, Option.map_some, Run.advance]
      rw [hℓ']
      exact h.forget hw hsound hℓ hrun hlog hti hs'
  simp only [not_exists] at hregister hunregister
  have hrunning : s'.sched.running = s.sched.running := by
    rw [hs']
    exact exec_running hrunop hregister hunregister
  cases hrun : ℓ.run with
  | none =>
    obtain ⟨task, hrun'⟩ := run_of_none hallowed hrun r
    exact h.runOnce hw hℓ hcron hlist hstage hrunning hrun hrun'
  | some run =>
    have hrun' := nextRun_some hallowed hrun r
    obtain ⟨hlog, hrec⟩ := advance_names run r hregister
    by_cases hover : (run.advance o r).phase = .over ∧ run.phase ≠ .over
    · exact h.ends hw hℓ hcron hlist hstage hrunning hrun hrun' hover.1
        (notRegistered_of_end hsound hℓ hrun hallowed hC hrunop hunregister hover.2 hover.1)
    · refine h.goesOn hw hℓ hcron hlist hstage hrunning hrun hrun'
        (advance_same run o r).task hlog hrec ⟨fun hended => ?_, ?_⟩
      · by_contra hgoing
        exact hover ⟨hended, hgoing⟩
      · exact over_step (phaseStep_advance hallowed hrun r)

/-- **Every operation keeps the account**, where the condition is met. -/
theorem Accounted.op (h : Accounted t s L)
    (hw : Wellformed s.sched.cron s.sched.taskList (stages L)) (hsound : RunsSound s (runs L))
    (hℓ : L tid = some ℓ) {o : Op} {r : o.Res} (hallowed : Allowed ℓ o)
    (hC : AccountsFor t s L tid o c) (hexec : exec ext o c s = some (r, s')) :
    Accounted t s' (Function.update L tid (some (next ℓ o r))) := by
  cases o with
  | db o => exact h.dbOp hw hsound hℓ hallowed hC hexec
  | sched o => exact h.schedOp hℓ hallowed hC hexec
  | run o => exact h.runOp hw hsound hℓ hallowed hC hexec
  | world o =>
    obtain ⟨hcron, hlist, hstage⟩ := schedule_same hexec (by simp) ℓ
    obtain ⟨-, -, rfl⟩ := exec_world hexec
    exact h.move hw hℓ hcron hlist hstage rfl fun _ _ _ _ => Iff.rfl

theorem Accounted.spawn (h : Accounted t s L) (hnone : L tid = none) (hfresh : Fresh s ℓ) :
    Accounted t s (Function.update L tid (some ℓ)) where
  unused := h.unused
  pending := by
    rw [stages_spawn hnone hfresh]
    exact h.pending
  nodup := h.nodup
  exact ti hti l := by
    rw [h.exact ti hti l, runs_update]
    refine (countedIn_update ?_).symm
    have hnorun : runs L tid = none := by simp [runs, hnone]
    rw [hnorun]
    refine iff_of_false ?_ (by simp)
    rintro ⟨r, hr, hc⟩
    rcases hfresh with rfl | ⟨x, -, rfl⟩
    · cases hr
    · cases hr
      exact Run.not_counted rfl hc

/-- Before the first run. -/
theorem Accounted.start (h : Untouched s) : Accounted t s fun _ => none where
  unused e _ := h.running e
  pending _ _ e _ := h.running e
  nodup e := by simp [h.running e]
  exact ti _ l := by
    rw [h.running]
    refine iff_of_false List.not_mem_nil ?_
    rintro ⟨j, r, hr, -⟩
    cases hr

end Steps

/-! ## The guarantee -/

section Guarantee

variable {ext : Externals} {p₀ p : ServerPool}

/-- A run of the task with this log row has started a process and not finished its completion. -/
def StartedUnfinished (p : ServerPool) (t l : Int) : Prop :=
  ∃ j run, runOf p j = some run ∧ run.task.id = t ∧ run.log = some l ∧
    (∃ x ∈ p.shared.os.procs, x.log = l) ∧ run.phase ≠ .over

/-- No run of the task is between its first `cmd.Start` and `addTaskRunningIns`. -/
def NoneStarting (p : ServerPool) (t : Int) : Prop :=
  ∀ j run, runOf p j = some run → run.task.id = t → run.phase.child ≠ none → run.recorded = true

/-- The running instances of the task are its started, unfinished runs, each once. -/
def RunningInstancesExact (p : ServerPool) (t : Int) : Prop :=
  ∀ ti, p.shared.sched.taskList.lookup t = some ti →
    (p.shared.sched.running ti.entryId).Nodup ∧
      ∀ l, l ∈ p.shared.sched.running ti.entryId ↔ StartedUnfinished p t l

theorem accounted_of_reach (h₀ : Initial ext p₀)
    (h : (server ext).Reach (onOps (AccountsFor t)) p₀ p) :
    RunsSound p.shared (runs (locals p)) ∧ Accounted t p.shared (locals p) := by
  have huntouched := untouched_of_startedUp h₀.1
  refine (h₀.invariant (I := fun s L => RunsSound s (runs L) ∧ Accounted t s L) h ?_ ?_ ?_).2
  · exact ⟨RunsSound.start huntouched, Accounted.start huntouched⟩
  · rintro s L tid ℓ - ⟨hsound, hi⟩ hnone hfresh
    exact ⟨hsound.spawn hnone hfresh, hi.spawn hnone hfresh⟩
  · rintro s L tid ℓ o c r s' hw ⟨hsound, hi⟩ hℓ hallowed hC hexec
    exact ⟨hsound.op hℓ hallowed hexec, hi.op hw hsound hℓ hallowed hC hexec⟩

/-- **The running instances are exact** in every state of a run whose steps all account for the
    runs of the task, unless a run is just being registered. -/
theorem running_instances_exact (h₀ : Initial ext p₀)
    (h : (server ext).Reach (onOps (AccountsFor t)) p₀ p) (hnone : NoneStarting p t) :
    RunningInstancesExact p t := by
  obtain ⟨hsound, hacc⟩ := accounted_of_reach h₀ h
  intro ti hti
  refine ⟨hacc.nodup _, fun l => (hacc.exact ti hti l).trans ?_⟩
  constructor
  -- what is registered has started a process
  · rintro ⟨j, run, hrun, htask, hlog, hrec, hover⟩
    obtain ⟨l', -, hlog', -, x, hx, hxl⟩ := (hsound.each j run hrun).recorded hrec
    rw [hlog, Option.some.injEq] at hlog'
    exact ⟨j, run, hrun, htask, hlog, ⟨x, hx, hxl.trans hlog'.symm⟩, hover⟩
  · rintro ⟨j, run, hrun, htask, hlog, ⟨x, hx, hxl⟩, hover⟩
    refine ⟨j, run, hrun, htask, hlog, ?_, hover⟩
    -- a run that has started a process is recorded, or is just being registered
    rcases (hsound.each j run hrun).proc_recorded x hx (hxl ▸ hlog) with hrec | ⟨pid, hpid⟩
    · exact hrec
    · exact hnone j run hrun htask (by simp [hpid])

/-! ## Two runs -/

/-- A scheduled run inside its attempt is counted. -/
theorem running_instances_exact_inside :
    ∃ p, (server plainExternals).Reach (onOps (AccountsFor 1)) oneTaskPool p ∧
      StartedUnfinished p 1 1 ∧ RunningInstancesExact p 1 := by
  have hrun : ∃ p, (server plainExternals).Reach (onOps (AccountsFor 1)) oneTaskPool p ∧
      StartedUnfinished p 1 1 ∧ NoneStarting p 1 := by
    -- the gate passes, the command is started, the run registered
    refine ⟨_, .head ⟨.spawn 0 (.fire 1), trivial, rfl⟩ (.head ⟨.op 0 {}, ?_, rfl⟩
      (.head ⟨.op 0 {}, ?_, rfl⟩ (.head ⟨.op 0 {}, ?_, rfl⟩ (.head ⟨.op 0 { pid := 7 }, ?_, rfl⟩
      (.head ⟨.op 0 {}, ?_, rfl⟩ (.head ⟨.op 0 {}, ?_, rfl⟩ .refl)))))), ?_, ?_⟩
    case refine_7 =>
      exact ⟨0, _, rfl, rfl, rfl, ⟨⟨7, 1, false⟩, List.mem_singleton_self _, rfl⟩, by decide⟩
    case refine_8 =>
      intro j run hrun _ _
      rcases eq_or_ne j 0 with rfl | hne
      · cases hrun
        rfl
      · simp [runOf, runs, locals, oneTaskPool, hne] at hrun
    all_goals
      rintro _ _ _ ⟨⟩
      trivial
  obtain ⟨p, hreach, hstarted, hnone⟩ := hrun
  exact ⟨p, hreach, hstarted, running_instances_exact oneTaskPool_initial hreach hnone⟩

/-- A `StartOnceTask` request, from its arrival to its response. -/
def onceToItsEnd : List (Label Choice Start) :=
  .spawn 0 (.request ⟨0, ""⟩ (.startOnceTask 1)) :: List.replicate 13 (.op 0 { pid := 7 })

/-- A run-once run stays in the running instances after its end. -/
theorem startOnceTask_stays_registered :
    ¬ ∀ p, Reached plainExternals p → ∀ t, RunningInstancesExact p t := by
  intro hall
  have hrun : ∃ p, (server plainExternals).run onceToItsEnd oneTaskPool = some p ∧
      (∃ ti, p.shared.sched.taskList.lookup 1 = some ti ∧ 1 ∈ p.shared.sched.running ti.entryId) ∧
      ∀ j run, runOf p j = some run → run.phase = .over := by
    refine ⟨_, rfl, ⟨_, rfl, List.mem_singleton_self _⟩, fun j run hrun => ?_⟩
    rcases eq_or_ne j 0 with rfl | hne
    · cases hrun
      rfl
    · simp [runOf, runs, locals, oneTaskPool, hne] at hrun
  obtain ⟨p, hp, ⟨ti, hti, hreg⟩, hover⟩ := hrun
  have hexact := hall p ⟨_, oneTaskPool_initial, System.reach_of_run hp⟩ 1 ti hti
  obtain ⟨j, run, hj, -, -, -, hgoing⟩ := (hexact.2 1).mp hreg
  exact hgoing (hover j run hj)

end Guarantee

end Gonitor.Concurrent
