import Gonitor.Concurrent.Phases

/-!
# The Completion of a Run

The deferred function of `ExecJobWrapper.Run` reads `Manager.TaskList[id].RunningInstances`
without testing whether the task is still in `TaskList`.  Where it is not, the read goes
through a nil pointer; under the strategies Skip and Delay no `Recover` is installed and the
panic ends the server.

## Main Results

- `completion_panics_iff`: no completion panics where the task is only taken off the list while
  none of its scheduled runs is in flight, and runs only begin while it is listed; in a single run,
  exactly when each completion comes after the task has been listed and before it is taken off.
- `completion_panics_after_stop`: a run that is stopped in flight panics at its end.
-/

namespace Gonitor.Concurrent

open Gonitor.Model Gonitor.Server Gonitor.Requests Gonitor.Task AtomicProgram SoftDelete

variable {ext : Externals} {t : Int} {p₀ p q : ServerPool}

/-! ## The reads of the deferred function -/

/-- The operation reads the running instances of the task in the deferred function. -/
def ReadsEntry (t : Int) (o : RunOp) : Prop :=
  ∃ log, o = .isRegistered t log ∨ o = .unregister t log

/-- The answer of a read that has gone through a nil pointer. -/
def panicked : (o : RunOp) → o.Res → Bool
  | .isRegistered _ _, none => true
  | .unregister _ _, false => true
  | _, _ => false

/-- The step is a read of the deferred function, for the task, and panics. -/
def Panics (ext : Externals) (t : Int) (q : ServerPool) (l : Label Choice Start) : Prop :=
  ∃ tid c o r s', l = .op tid c ∧ AtOp q tid (.run o) ∧ ReadsEntry t o ∧
    exec ext (.run o) c q.shared = some (r, s') ∧ panicked o r = true

/-- The read panics exactly where the task is not in `TaskList`. -/
theorem panicked_iff {s s' : State} {o : RunOp} {c : Choice} {r : o.Res} (ho : ReadsEntry t o)
    (hexec : exec ext (.run o) c s = some (r, s')) :
    panicked o r = true ↔ s.sched.taskList.lookup t = none := by
  obtain ⟨-, d, os, hrun, -⟩ := exec_run hexec
  obtain ⟨log, rfl | rfl⟩ := ho
  · simp only [RunOp.exec, Option.some.injEq, Prod.mk.injEq] at hrun
    obtain ⟨rfl, -, -⟩ := hrun
    -- the membership test in the map of running instances
    cases s.sched.taskList.lookup t with
    | none => exact iff_of_true rfl rfl
    | some ti =>
      refine iff_of_false ?_ (by simp)
      simp [panicked]
  -- the delete from it
  · simp only [RunOp.exec] at hrun
    split at hrun
    · rename_i hnone
      cases hrun
      exact iff_of_true rfl hnone
    · rename_i ti hti
      cases hrun
      exact iff_of_false (by simp [panicked]) (by simp [hti])

/-! ## The writes to `TaskList` -/

/-- What the operation writes to `TaskList[t]`: an instance (`true`), or its deletion. -/
def listWrite (t : Int) : Op → Option Bool
  | .sched (.taskListPut k _) => if k = t then some true else none
  | .sched (.taskListDelete k) => if k = t then some false else none
  | _ => none

theorem listed_after_op {s s' : State} {o : Op} {c : Choice} {r : o.Res}
    (hexec : exec ext o c s = some (r, s')) :
    (s'.sched.taskList.lookup t).isSome =
      (listWrite t o).getD (s.sched.taskList.lookup t).isSome := by
  by_cases ho : ∀ d, o ≠ .sched d
  · rw [(schedule_same hexec ho .init).2.1]
    cases o with
    | sched o => exact absurd rfl (ho o)
    | _ => rfl
  · push Not at ho
    obtain ⟨o, rfl⟩ := ho
    obtain ⟨-, -, rfl⟩ := exec_sched hexec
    cases o with
    | taskListPut k ti =>
      simp only [SchedOp.exec, listWrite]
      rcases eq_or_ne k t with rfl | hne
      · rw [if_pos rfl, AList.lookup_insert]
        rfl
      · rw [if_neg hne, AList.lookup_insert_ne hne.symm]
        rfl
    | taskListDelete k =>
      simp only [SchedOp.exec, listWrite]
      rcases eq_or_ne k t with rfl | hne
      · rw [if_pos rfl, AList.lookup_erase]
        rfl
      · rw [if_neg hne, AList.lookup_erase_ne hne.symm]
        rfl
    | cronAddJob spec job =>
      rcases addJob_cases ext c s.sched s.os spec job with hok | herror
      · rw [hok]
        rfl
      · rw [herror]
        rfl
    | stopRunning e log =>
      rw [show (SchedOp.exec ext c s.sched s.os (.stopRunning e log)).2.1 = s.sched from
        stopRunning_sched ext c s.sched s.os e log]
      rfl
    | _ => rfl

/-- What a step writes to `TaskList[t]`. -/
def stepWrite (t : Int) : ServerPool × Label Choice Start → Option Bool
  | (q, .op tid _) =>
    match q.threads tid with
    | some ⟨.op o _, _⟩ => listWrite t o
    | _ => none
  | (_, .spawn _ _) => none

/-- After these steps the task is listed: the last of them that writes `TaskList[t]` writes an
    instance, or none does and it was listed at the start. -/
def ListedAfter (t : Int) (p₀ : ServerPool) (past : List (ServerPool × Label Choice Start)) : Prop :=
  past.foldl (fun listed x => (stepWrite t x).getD listed)
    (p₀.shared.sched.taskList.lookup t).isSome = true

/-- What the steps so far have written decides whether the task is in `TaskList`. -/
theorem listed_iff {ls : List (Label Choice Start)} {l : Label Choice Start}
    {before after : List (ServerPool × Label Choice Start)}
    (h : (server ext).steps ls p₀ = before ++ (q, l) :: after) :
    (q.shared.sched.taskList.lookup t).isSome = true ↔ ListedAfter t p₀ before := by
  unfold ListedAfter
  have hbefore := System.before_step (P := fun (q : ServerPool) past =>
    (q.shared.sched.taskList.lookup t).isSome = past.foldl
      (fun listed x => (stepWrite t x).getD listed) (p₀.shared.sched.taskList.lookup t).isSome)
    ?_ (show _ = List.foldl _ _ [] from rfl) h
  · rw [hbefore, List.nil_append]
  intro q l q' past hq hstep
  rw [List.foldl_append, List.foldl_cons, List.foldl_nil, ← hq]
  rcases System.step_cases hstep with ⟨tid, x, th, rfl, -, -, rfl⟩ |
    ⟨tid, c, o, k, ℓ, r, s', rfl, hth, hexec, rfl⟩
  · rfl
  · simp only [stepWrite, hth]
    exact listed_after_op hexec

/-! ## Runs in flight -/

/-- The task is only taken off `TaskList` while none of its scheduled runs is in flight, and its
    scheduled runs only begin while it is listed. -/
def StopsBetweenRuns (t : Int) : StepCondition := fun s L _ o _ =>
  match o with
  | .sched (.taskListDelete k) => k = t → ∀ j run, runs L j = some run → run.scheduled = true →
    run.task.id = t → ¬ run.InFlight
  | .run (.newRunningInstance task true) => task.id = t →
    (s.sched.taskList.lookup t).isSome = true
  | _ => True

/-- While a scheduled run of the task is in flight, the task is listed. -/
def ListedInFlight (t : Int) (s : State) (L : Nat → Option Local) : Prop :=
  ∀ j run, runs L j = some run → run.scheduled = true → run.task.id = t → run.InFlight →
    (s.sched.taskList.lookup t).isSome = true

theorem ListedInFlight.op {s s' : State} {L : Nat → Option Local} {tid : Nat} {ℓ : Local} {o : Op}
    {c : Choice} {r : o.Res} (h : ListedInFlight t s L) (hℓ : L tid = some ℓ)
    (hallowed : Allowed ℓ o) (hC : StopsBetweenRuns t s L tid o c)
    (hexec : exec ext o c s = some (r, s')) :
    ListedInFlight t s' (Function.update L tid (some (next ℓ o r))) := by
  intro j run' hrun' hscheduled htask hflight
  -- before the step the task was listed, and the step does not take it off
  have hlisted : (s.sched.taskList.lookup t).isSome = true ∧ listWrite t o ≠ some false := by
    -- the run was in flight before the step, or begins by it
    have hold : (∃ run, runs L j = some run ∧ run.scheduled = true ∧ run.task.id = t ∧
        run.InFlight) ∨ ∃ task, o = .run (.newRunningInstance task true) ∧ task.id = t := by
      rcases runs_step hℓ hallowed hrun' with ⟨run, hrun, hsame, hstep⟩ | ⟨-, task, -, rfl⟩
      · have htask' : run.task.id = t := hsame.task ▸ htask
        rcases inFlight_step hflight hstep with hin | hbegin
        · exact .inl ⟨run, hrun, hsame.scheduled ▸ hscheduled, htask', hin⟩
        · exact .inr ⟨run.task, hbegin, htask'⟩
      · cases hscheduled
    -- by the condition, no step takes the task off while the run is in flight
    rcases hold with ⟨run, hrun, hsch, htask', hin⟩ | ⟨task, rfl, htask'⟩
    · refine ⟨h j run hrun hsch htask' hin, fun hdelete => ?_⟩
      unfold listWrite at hdelete
      split at hdelete
      · split at hdelete <;> cases hdelete
      · split at hdelete
        · rename_i hkey
          exact hC hkey j run hrun hsch htask' hin
        · cases hdelete
      · cases hdelete
    · exact ⟨hC htask', by simp [listWrite]⟩
  rw [listed_after_op hexec]
  cases hwrite : listWrite t o with
  | none => exact hlisted.1
  | some listed =>
    cases listed with
    | true => rfl
    | false => exact absurd hwrite hlisted.2

theorem listedInFlight_of_reach (h₀ : Initial ext p₀)
    (h : (server ext).Reach (onOps (StopsBetweenRuns t)) p₀ p) :
    ListedInFlight t p.shared (locals p) := by
  refine (h₀.invariant (I := ListedInFlight t) h ?_ ?_ ?_).2
  · intro j run hrun
    cases hrun
  · intro s L tid ℓ _ hi hnone hfresh j run hrun hscheduled htask hflight
    rcases runs_spawn hfresh hrun with hold | ⟨x, -, rfl⟩
    · exact hi j run hold hscheduled htask hflight
    · -- a run that has just been fired is not yet in flight
      exact absurd rfl hflight.1
  · intro s L tid ℓ o c r s' _ hi hℓ hallowed hC hexec
    exact hi.op hℓ hallowed hC hexec

/-! ## When completions panic -/

/-- No step of the run is a completion of the task that panics. -/
def NeverPanics (ext : Externals) (t : Int) (ls : List (Label Choice Start)) (p₀ : ServerPool) : Prop :=
  ∀ q l, (q, l) ∈ (server ext).steps ls p₀ → ¬ Panics ext t q l

/-- Each read of a completion of the task comes after the task has been listed, and before it is
    taken off the list. -/
def CompletesWhileListed (ext : Externals) (t : Int) (ls : List (Label Choice Start))
    (p₀ : ServerPool) : Prop :=
  ∀ before q tid c o after, (server ext).steps ls p₀ = before ++ (q, .op tid c) :: after →
    AtOp q tid (.run o) → ReadsEntry t o → ListedAfter t p₀ before

/-- **When completions panic.**  From start-up on, no completion of the task panics as long as stops
    fall between its runs.  In a single run, none panics if and only if each comes while the task is
    listed, counting the writes before it. -/
theorem completion_panics_iff (h₀ : Initial ext p₀) :
    (∀ p, (server ext).Reach (onOps (StopsBetweenRuns t)) p₀ p → ∀ l, ¬ Panics ext t p l) ∧
    ∀ ls p, (server ext).run ls p₀ = some p →
      (NeverPanics ext t ls p₀ ↔ CompletesWhileListed ext t ls p₀) := by
  constructor
  · rintro p hreach l ⟨tid, c, o, r, s', rfl, hat, hreads, hexec, hpanics⟩
    -- the run that reads is in flight, so its task is listed
    have hd : (server ext).Disciplined Allowed Final p :=
      Reached.disciplined ⟨p₀, h₀, hreach.mono fun _ _ _ => trivial⟩
    obtain ⟨ℓ, hℓ, hallowed⟩ := allowed_of_atOp hd hat
    have hflight : ∃ run, ℓ.run = some run ∧ run.scheduled = true ∧ run.task.id = t ∧
        run.InFlight := by
      obtain ⟨log, rfl | rfl⟩ := hreads
      · obtain ⟨run, hrun, hphase, hscheduled, -, htask⟩ := hallowed
        exact ⟨run, hrun, hscheduled, htask.symm, by simp [Run.InFlight, hphase]⟩
      · obtain ⟨run, hrun, hphase, hscheduled, -, htask⟩ := hallowed
        exact ⟨run, hrun, hscheduled, htask.symm, by simp [Run.InFlight, hphase]⟩
    obtain ⟨run, hrun, hscheduled, htask, hin⟩ := hflight
    have hlisted := listedInFlight_of_reach h₀ hreach tid run ((runs_of_some hℓ).trans hrun)
      hscheduled htask hin
    rw [(panicked_iff hreads hexec).mp hpanics] at hlisted
    cases hlisted
  · intro ls p hrun
    constructor
    -- a read that is performed and does not panic finds the task listed
    · intro hnever before q tid c o after hsplit hat hreads
      have hmem : (q, .op tid c) ∈ (server ext).steps ls p₀ := by simp [hsplit]
      obtain ⟨q', hstep⟩ := System.step_of_mem_steps hrun hmem
      obtain ⟨ℓ, r, -, hexec, -⟩ := step_atOp hat hstep
      rw [← listed_iff hsplit, Option.isSome_iff_ne_none, ne_eq, ← panicked_iff hreads hexec]
      exact fun hpanics => hnever q _ hmem ⟨tid, c, o, r, _, rfl, hat, hreads, hexec, hpanics⟩
    -- a read that comes while the task is listed does not panic
    · rintro hlisted q l hmem ⟨tid, c, o, r, s', rfl, hat, hreads, hexec, hpanics⟩
      obtain ⟨before, after, hsplit⟩ := List.append_of_mem hmem
      have hsome := (listed_iff hsplit).mpr (hlisted before q tid c o after hsplit hat hreads)
      rw [(panicked_iff hreads hexec).mp hpanics] at hsome
      cases hsome

/-! ## Two completions -/

/-- A run that nobody stops does not panic at its end. -/
theorem completion_panics_iff_undisturbed :
    ∃ p, AtOp p 0 (.run (.isRegistered 1 1)) ∧ ∀ l, ¬ Panics plainExternals 1 p l := by
  have hrun : ∃ p, (server plainExternals).Reach (onOps (StopsBetweenRuns 1)) oneTaskPool p ∧
      AtOp p 0 (.run (.isRegistered 1 1)) := by
    -- the gate, the attempt with its child, and the save of the log row
    refine ⟨_, .head ⟨.spawn 0 (.fire 1), trivial, rfl⟩ (.head ⟨.op 0 {}, ?_, rfl⟩
      (.head ⟨.op 0 {}, ?_, rfl⟩ (.head ⟨.op 0 {}, ?_, rfl⟩ (.head ⟨.op 0 { pid := 7 }, ?_, rfl⟩
      (.head ⟨.op 0 {}, ?_, rfl⟩ (.head ⟨.op 0 {}, ?_, rfl⟩ (.head ⟨.op 0 {}, ?_, rfl⟩
      (.head ⟨.op 0 {}, ?_, rfl⟩ (.head ⟨.op 0 {}, ?_, rfl⟩ (.head ⟨.op 0 {}, ?_, rfl⟩
      .refl)))))))))), ⟨_, _, rfl⟩⟩
    all_goals
      rintro _ _ _ ⟨⟩
      first | trivial | exact fun _ => rfl
  obtain ⟨p, hreach, hat⟩ := hrun
  exact ⟨p, hat, (completion_panics_iff oneTaskPool_initial).1 p hreach⟩

/-- The job of the entry fires and starts its command; a `StopTask` request is served; then the
    run comes to its end. -/
def stoppedInFlight : List (Label Choice Start) :=
  .spawn 0 (.fire 1) :: List.replicate 6 (.op 0 { pid := 7 }) ++
    .spawn 1 stopRequest :: List.replicate 9 (.op 1 {}) ++ List.replicate 4 (.op 0 {})

/-- A run that is stopped in flight panics at its end. -/
theorem completion_panics_after_stop :
    ¬ ∀ p, Reached plainExternals p → ∀ t l, ¬ Panics plainExternals t p l := by
  intro hall
  have hrun : ∃ p, (server plainExternals).run stoppedInFlight oneTaskPool = some p ∧
      Panics plainExternals 1 p (.op 0 {}) :=
    ⟨_, rfl, 0, {}, .isRegistered 1 1, none, _, rfl, ⟨_, _, rfl⟩, ⟨1, .inl rfl⟩, rfl, rfl⟩
  obtain ⟨p, hp, hpanics⟩ := hrun
  exact hall p ⟨_, oneTaskPool_initial, System.reach_of_run hp⟩ 1 _ hpanics

end Gonitor.Concurrent
