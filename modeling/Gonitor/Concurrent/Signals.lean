import Gonitor.Concurrent.Processes

/-!
# Whom `stop` Signals

`taskInstance.stop` goes through the registered runs and kills the process in the handle of
each.  The handle is set after `cmd.Start` and never cleared, so it can name a process that
has long been reaped, and whose id the system may have given to another one.

## Main Results

- `stop_signals_own_child_iff`: the signal goes to a child of the run that has not been waited
  for exactly while the run is inside the attempt that its handle belongs to.
- `stop_signals_reaped_process`: a run-once run stays registered after its end, and is signalled.
-/

namespace Gonitor.Concurrent

open Gonitor.Model Gonitor.Server Gonitor.Requests Gonitor.Task AtomicProgram SoftDelete

variable {ext : Externals} {p p' : ServerPool} {tid : Nat} {c : Choice} {e : EntryID} {log : Int}

/-- The step from `p` to `p'` signals a child that the run of this log row has started and not
    yet waited for. -/
def SignalsOwnChild (p p' : ServerPool) (log : Int) : Prop :=
  ∃ pid, p'.shared.os.signals = (log, pid) :: p.shared.os.signals ∧
    ∃ x ∈ p.shared.os.procs, x.log = log ∧ x.pid = pid ∧ x.reaped = false

/-- The stop falls into an attempt of the run of this log row: after its `cmd.Start`, with
    `ri.Process` set for it, and before its `cmd.Wait` has reaped the child. -/
def InsideAttempt (p : ServerPool) (log : Int) : Prop :=
  ∃ j run pid, runOf p j = some run ∧ run.log = some log ∧ run.phase.child = some pid ∧
    p.shared.os.handles.lookup log = some pid

/-- What a registered run is signalled by. -/
theorem step_stopRunning (hat : AtOp p tid (.sched (.stopRunning e log)))
    (hreg : log ∈ p.shared.sched.running e) (hstep : (server ext).step (.op tid c) p = some p') :
    p'.shared.os.signals = (p.shared.os.target log).toList ++ p.shared.os.signals := by
  obtain ⟨ℓ, r, -, hexec, -⟩ := step_atOp hat hstep
  obtain ⟨-, -, hs'⟩ := exec_sched hexec
  rw [hs']
  simp only [SchedOp.exec, if_pos hreg]

/-- **Whom `stop` signals**: the process is a child of that very run which has not been waited
    for if and only if the run is inside the attempt of its handle. -/
theorem stop_signals_own_child_iff (hp : Reached ext p)
    (hat : AtOp p tid (.sched (.stopRunning e log))) (hreg : log ∈ p.shared.sched.running e)
    (hstep : (server ext).step (.op tid c) p = some p') :
    SignalsOwnChild p p' log ↔ InsideAttempt p log := by
  obtain ⟨p₀, h₀, hreach⟩ := hp
  have hsound : RunsSound p.shared (runs (locals p)) :=
    runsSound_of_reach h₀ (reach_anyOp hreach)
  have hsignals := step_stopRunning hat hreg hstep
  constructor
  · rintro ⟨pid, hsent, x, hx, hxl, hxp, hfree⟩
    -- the signal names the process of the handle
    have htarget : p.shared.os.handles.lookup log = some pid := by
      rw [hsignals, Processes.target] at hsent
      cases hhandle : p.shared.os.handles.lookup log with
      | none =>
        rw [hhandle] at hsent
        exact absurd hsent (by simp)
      | some pid' =>
        rw [hhandle] at hsent
        simpa using hsent
    -- an unreaped process belongs to a run that is inside its attempt
    obtain ⟨j, run, hj, hl, hchild⟩ := hsound.proc_run x hx hfree
    exact ⟨j, run, pid, hj, hxl ▸ hl, hxp ▸ hchild, htarget⟩
  -- the child of a run inside its attempt has not been reaped
  · rintro ⟨j, run, pid, hj, hl, hchild, hhandle⟩
    refine ⟨pid, ?_, _, (hsound.each j run hj).child_proc pid log hchild hl, rfl, rfl, rfl⟩
    rw [hsignals, Processes.target, hhandle]
    rfl

/-! ## Two stops -/

/-- The job of the entry fires and starts its command; a `StopTask` request reads the row, looks
    the instance up, removes the entry and reads the registered runs. -/
def signalInsideAttempt : List (Label Choice Start) :=
  .spawn 0 (.fire 1) :: List.replicate 6 (.op 0 { pid := 7 }) ++
    .spawn 1 stopRequest :: List.replicate 4 (.op 1 {})

/-- A run that is inside an attempt is signalled rightly. -/
theorem stop_signals_own_child_inside : ∃ p p', Reached plainExternals p ∧
    AtOp p 1 (.sched (.stopRunning 1 1)) ∧
    (server plainExternals).step (.op 1 {}) p = some p' ∧ SignalsOwnChild p p' 1 := by
  have hrun : ∃ p p', (server plainExternals).run signalInsideAttempt oneTaskPool = some p ∧
      AtOp p 1 (.sched (.stopRunning 1 1)) ∧ 1 ∈ p.shared.sched.running 1 ∧
      (server plainExternals).step (.op 1 {}) p = some p' ∧ InsideAttempt p 1 :=
    ⟨_, _, rfl, ⟨_, _, rfl⟩, List.mem_singleton_self _, rfl, 0, _, 7, rfl, rfl, rfl, rfl⟩
  obtain ⟨p, p', hp, hat, hreg, hstep, hinside⟩ := hrun
  have hreached : Reached plainExternals p := ⟨_, oneTaskPool_initial, System.reach_of_run hp⟩
  exact ⟨p, p', hreached, hat, hstep,
    (stop_signals_own_child_iff hreached hat hreg hstep).mpr hinside⟩

/-- A `StartOnceTask` request comes to its end; then a `StopTask` request does as above. -/
def signalAfterOnce : List (Label Choice Start) :=
  .spawn 0 (.request ⟨0, ""⟩ (.startOnceTask 1)) :: List.replicate 13 (.op 0 { pid := 7 }) ++
    .spawn 1 stopRequest :: List.replicate 4 (.op 1 {})

/-- The process of a run-once run is signalled after it has been waited for. -/
theorem stop_signals_reaped_process :
    ¬ ∀ p p' tid c e log, Reached plainExternals p → AtOp p tid (.sched (.stopRunning e log)) →
      log ∈ p.shared.sched.running e → (server plainExternals).step (.op tid c) p = some p' →
      SignalsOwnChild p p' log := by
  intro hall
  have hrun : ∃ p p', (server plainExternals).run signalAfterOnce oneTaskPool = some p ∧
      AtOp p 1 (.sched (.stopRunning 1 1)) ∧ 1 ∈ p.shared.sched.running 1 ∧
      (server plainExternals).step (.op 1 {}) p = some p' ∧
      p.shared.os.procs = [⟨7, 1, true⟩] :=
    ⟨_, _, rfl, ⟨_, _, rfl⟩, List.mem_singleton_self _, rfl, rfl⟩
  obtain ⟨p, p', hp, hat, hreg, hstep, hprocs⟩ := hrun
  obtain ⟨pid, -, x, hx, -, -, hfree⟩ := hall p p' 1 {} 1 1
    ⟨_, oneTaskPool_initial, System.reach_of_run hp⟩ hat hreg hstep
  rw [hprocs, List.mem_singleton] at hx
  rw [hx] at hfree
  cases hfree

end Gonitor.Concurrent
