import Gonitor.Concurrent.Invariants

/-!
# Runs and Their Processes

The id of its log row is the name of a run: its key in `RunningInstances`, the key of its
process handle, the mark of its children.  This file ties the four stores that use that name
to the place in the code where the run is.

`RunsSound` is an invariant of every run of the pool, without any condition on the steps.  A
step moves one run at a time; `RunsSound.move` says what has to be shown for that run, and
what for the stores.
-/

namespace Gonitor.Concurrent

open Gonitor.Model Gonitor.Server Gonitor.Requests Gonitor.Task AtomicProgram SoftDelete

/-! ## Runs and children -/

/-- The child that is there and has not been reaped. -/
def Phase.child : Phase → Option Nat
  | .started pid | .attached pid => some pid
  | _ => none

/-- Before the gate. -/
def Phase.isEarly : Phase → Bool
  | .fired | .begun => true
  | _ => false

/-- What a run knows of the stores. -/
structure Run.Sound (run : Run) (os : Processes) (nextLog : Int) : Prop where
  log_lt : ∀ l, run.log = some l → l < nextLog
  early : run.phase.isEarly = true → run.log = none
  child_proc : ∀ pid l, run.phase.child = some pid → run.log = some l →
    ⟨pid, l, false⟩ ∈ os.procs
  handle : ∀ pid l, run.phase = .attached pid → run.log = some l → os.handles.lookup l = some pid
  recorded : run.recorded = true → ∃ l pid, run.log = some l ∧ os.handles.lookup l = some pid ∧
    ∃ x ∈ os.procs, x.log = l
  proc_recorded : ∀ x ∈ os.procs, run.log = some x.log →
    run.recorded = true ∨ ∃ pid, run.phase.child = some pid

/-- Log rows name runs; children that have not been reaped belong to runs that are there;
    what is registered has started a process. -/
structure RunsSound (s : State) (run : Nat → Option Run) : Prop where
  each : ∀ tid r, run tid = some r → r.Sound s.os s.db.taskLog.nextId
  log_unique : ∀ tid tid' r r' l, run tid = some r → run tid' = some r' →
    r.log = some l → r'.log = some l → tid = tid'
  proc_lt : ∀ x ∈ s.os.procs, x.log < s.db.taskLog.nextId
  proc_run : ∀ x ∈ s.os.procs, x.reaped = false →
    ∃ tid r, run tid = some r ∧ r.log = some x.log ∧ r.phase.child = some x.pid
  registered : ∀ e l, l ∈ s.sched.running e →
    ∃ tid r, run tid = some r ∧ r.log = some l ∧ r.recorded = true

section Steps

variable {s s' : State} {run : Nat → Option Run} {tid : Nat} {r r' : Run}

/-- Only the run itself can be registered under its name. -/
theorem RunsSound.owner_recorded (h : RunsSound s run) (hr : run tid = some r) {e : EntryID}
    {l : Int} (hl : l ∈ s.sched.running e) (hrl : r.log = some l) : r.recorded = true := by
  obtain ⟨j, a, hj, hal, hrec⟩ := h.registered e l hl
  obtain rfl := h.log_unique j tid a r l hj hr hal hrl
  rw [hr, Option.some.injEq] at hj
  exact hj ▸ hrec

/-- A child that carries the name of the run, and has not been reaped, is its child. -/
theorem RunsSound.owner_child (h : RunsSound s run) (hr : run tid = some r) {x : Proc}
    (hx : x ∈ s.os.procs) (hfree : x.reaped = false) (hrl : r.log = some x.log) :
    r.phase.child = some x.pid := by
  obtain ⟨j, a, hj, hal, hpid⟩ := h.proc_run x hx hfree
  obtain rfl := h.log_unique j tid a r x.log hj hr hal hrl
  rw [hr, Option.some.injEq] at hj
  exact hj ▸ hpid

/-- A run stays sound when nothing happens to what carries its name. -/
theorem Run.Sound.of_same {os os' : Processes} {n n' : Int} (h : r.Sound os n) (hn : n ≤ n')
    (hprocs : ∀ x, r.log = some x.log → (x ∈ os'.procs ↔ x ∈ os.procs))
    (hhandles : ∀ l, r.log = some l → os'.handles.lookup l = os.handles.lookup l) :
    r.Sound os' n' where
  log_lt l hl := lt_of_lt_of_le (h.log_lt l hl) hn
  early := h.early
  child_proc pid l hpid hl := (hprocs ⟨pid, l, false⟩ hl).mpr (h.child_proc pid l hpid hl)
  handle pid l hpid hl := (hhandles l hl).trans (h.handle pid l hpid hl)
  recorded hrec := by
    obtain ⟨l, pid, hl, hhandle, x, hx, hxl⟩ := h.recorded hrec
    exact ⟨l, pid, hl, (hhandles l hl).trans hhandle, x, (hprocs x (hxl ▸ hl)).mpr hx, hxl⟩
  proc_recorded x hx hl := h.proc_recorded x ((hprocs x hl).mp hx) hl

/-- One run moves and keeps its log row; the stores only change where they carry its name. -/
theorem RunsSound.move (h : RunsSound s run) (hr : run tid = some r) (hlog : r'.log = r.log)
    (hnext : s.db.taskLog.nextId ≤ s'.db.taskLog.nextId)
    (hprocs : ∀ x, r.log ≠ some x.log → (x ∈ s'.os.procs ↔ x ∈ s.os.procs))
    (hhandles : ∀ l, r.log ≠ some l → s'.os.handles.lookup l = s.os.handles.lookup l)
    (hrunning : ∀ e l, l ∈ s'.sched.running e → l ∈ s.sched.running e ∨ r.log = some l)
    (hregister : ∀ e l, l ∈ s'.sched.running e → r.log = some l → r'.recorded = true)
    (hsound : r'.Sound s'.os s'.db.taskLog.nextId)
    (hchild : ∀ x ∈ s'.os.procs, x.reaped = false → r.log = some x.log →
      r'.phase.child = some x.pid) :
    RunsSound s' (Function.update run tid (some r')) := by
  have hself : Function.update run tid (some r') tid = some r' := Function.update_self ..
  constructor
  case each =>
    intro j a ha
    rcases update_eq_some ha with ⟨-, ⟨⟩⟩ | ⟨hne, hj⟩
    · exact hsound
    -- another run carries another name, and nothing happens to it
    · have hdiff : ∀ l, a.log = some l → r.log ≠ some l := fun l hl hrl =>
        hne (h.log_unique j tid a r l hj hr hl hrl)
      exact (h.each j a hj).of_same hnext
        (fun x hx => hprocs x (hdiff x.log hx)) fun l hl => hhandles l (hdiff l hl)
  case log_unique =>
    intro j j' a a' l ha ha' hl hl'
    rcases update_eq_some ha with ⟨rfl, ⟨⟩⟩ | ⟨hne, hj⟩ <;>
      rcases update_eq_some ha' with ⟨rfl, ⟨⟩⟩ | ⟨hne', hj'⟩
    · rfl
    · exact h.log_unique _ j' r a' l hr hj' (hlog ▸ hl) hl'
    · exact h.log_unique j _ a r l hj hr hl (hlog ▸ hl')
    · exact h.log_unique j j' a a' l hj hj' hl hl'
  case proc_lt =>
    intro x hx
    refine lt_of_lt_of_le ?_ hnext
    by_cases hl : r.log = some x.log
    · exact (h.each tid r hr).log_lt _ hl
    · exact h.proc_lt x ((hprocs x hl).mp hx)
  case proc_run =>
    intro x hx hfree
    by_cases hl : r.log = some x.log
    -- a process of the run itself, and one of another run
    · exact ⟨tid, r', hself, hlog.trans hl, hchild x hx hfree hl⟩
    · obtain ⟨j, a, hj, hal, hpid⟩ := h.proc_run x ((hprocs x hl).mp hx) hfree
      have hne : j ≠ tid := by
        rintro rfl
        rw [hr, Option.some.injEq] at hj
        exact hl (hj ▸ hal)
      exact ⟨j, a, by rwa [Function.update_of_ne hne], hal, hpid⟩
  case registered =>
    intro e l hl
    by_cases hrl : r.log = some l
    · exact ⟨tid, r', hself, hlog.trans hrl, hregister e l hl hrl⟩
    · obtain ⟨j, a, hj, hal, hrec⟩ := h.registered e l ((hrunning e l hl).resolve_right hrl)
      have hne : j ≠ tid := by
        rintro rfl
        rw [hr, Option.some.injEq] at hj
        exact hrl (hj ▸ hal)
      exact ⟨j, a, by rwa [Function.update_of_ne hne], hal, hrec⟩

/-- The stores as far as `RunsSound` looks at them. -/
structure SameStores (s s' : State) : Prop where
  nextLog : s.db.taskLog.nextId ≤ s'.db.taskLog.nextId
  procs : s'.os.procs = s.os.procs
  handles : s'.os.handles = s.os.handles
  running : ∀ e l, l ∈ s'.sched.running e → l ∈ s.sched.running e

/-- A step of a run from a place without a child to a place without a child. -/
structure Run.QuietTo (r r' : Run) : Prop where
  log : r'.log = r.log
  recorded : r'.recorded = r.recorded
  before : r.phase.child = none
  after : r'.phase.child = none
  early : r'.phase.isEarly = true → r.phase.isEarly = true

theorem Run.Sound.quiet {os : Processes} {n : Int} (h : r.Sound os n) (hq : r.QuietTo r') :
    r'.Sound os n where
  log_lt l hl := h.log_lt l (hq.log ▸ hl)
  early hearly := hq.log.trans (h.early (hq.early hearly))
  child_proc pid l hpid := by
    rw [hq.after] at hpid
    cases hpid
  handle pid l hphase := by
    have hnone := hq.after
    rw [hphase] at hnone
    cases hnone
  recorded hrec := by
    rw [hq.log]
    exact h.recorded (hq.recorded ▸ hrec)
  proc_recorded x hx hl := by
    rcases h.proc_recorded x hx (hq.log ▸ hl) with hrec | ⟨pid, hpid⟩
    · exact .inl (hq.recorded.trans hrec)
    · rw [hq.before] at hpid
      cases hpid

theorem RunsSound.quiet (h : RunsSound s run) (hr : run tid = some r) (hq : r.QuietTo r')
    (hs : SameStores s s') : RunsSound s' (Function.update run tid (some r')) := by
  refine h.move hr hq.log hs.nextLog (fun x _ => ?_) (fun l _ => ?_) (fun e l hl => ?_) ?_ ?_ ?_
  · rw [hs.procs]
  · rw [hs.handles]
  · exact .inl (hs.running e l hl)
  · exact fun e l hl hrl => hq.recorded.trans (h.owner_recorded hr (hs.running e l hl) hrl)
  · refine ((h.each tid r hr).quiet hq).of_same hs.nextLog (fun x _ => ?_) fun l _ => ?_
    · rw [hs.procs]
    · rw [hs.handles]
  · intro x hx hfree hl
    have hpid := h.owner_child hr (hs.procs ▸ hx) hfree hl
    rw [hq.before] at hpid
    cases hpid

/-- The stores stay, and the runs too. -/
theorem RunsSound.same (h : RunsSound s run) (hs : SameStores s s') : RunsSound s' run where
  each j a hj := (h.each j a hj).of_same hs.nextLog
    (fun x _ => by rw [hs.procs]) fun l _ => by rw [hs.handles]
  log_unique := h.log_unique
  proc_lt x hx := lt_of_lt_of_le (h.proc_lt x (hs.procs ▸ hx)) hs.nextLog
  proc_run x hx := h.proc_run x (hs.procs ▸ hx)
  registered e l hl := h.registered e l (hs.running e l hl)

/-- A new run, which has no log row yet. -/
theorem RunsSound.new (h : RunsSound s run) (hnone : run tid = none) (hlog : r.log = none)
    (hrec : r.recorded = false) : RunsSound s (Function.update run tid (some r)) := by
  -- the thread had no run, so the runs of before are still there
  have hold : ∀ j a, run j = some a → Function.update run tid (some r) j = some a := by
    intro j a hj
    have hne : j ≠ tid := by
      rintro rfl
      rw [hnone] at hj
      cases hj
    rwa [Function.update_of_ne hne]
  have hother : ∀ j a l, Function.update run tid (some r) j = some a → a.log = some l →
      run j = some a := by
    intro j a l ha hl
    rcases update_eq_some ha with ⟨-, ⟨⟩⟩ | ⟨-, hj⟩
    · rw [hlog] at hl
      cases hl
    · exact hj
  constructor
  case each =>
    refine forall_update (P := fun _ (a : Option Run) =>
      ∀ b, a = some b → b.Sound s.os s.db.taskLog.nextId) ?_ fun j _ => h.each j
    rintro b ⟨⟩
    refine ⟨?_, fun _ => hlog, ?_, ?_, ?_, ?_⟩ <;> simp [hlog, hrec]
  case log_unique =>
    exact fun j j' a a' l ha ha' hl hl' =>
      h.log_unique j j' a a' l (hother j a l ha hl) (hother j' a' l ha' hl') hl hl'
  case proc_lt => exact h.proc_lt
  case proc_run =>
    intro x hx hfree
    obtain ⟨j, a, hj, hrest⟩ := h.proc_run x hx hfree
    exact ⟨j, a, hold j a hj, hrest⟩
  case registered =>
    intro e l hl
    obtain ⟨j, a, hj, hrest⟩ := h.registered e l hl
    exact ⟨j, a, hold j a hj, hrest⟩

/-- The log row of a run is inserted: from here on the run has a name. -/
theorem RunsSound.named (h : RunsSound s run) (hr : run tid = some r) (hphase : r.phase = .begun)
    (hlog : r'.log = some s.db.taskLog.nextId) (hrec : r'.recorded = r.recorded)
    (hchild : r'.phase.child = none) (hearly : r'.phase.isEarly = false)
    (hnext : s'.db.taskLog.nextId = s.db.taskLog.nextId + 1) (hos : s'.os = s.os)
    (hsched : s'.sched = s.sched) : RunsSound s' (Function.update run tid (some r')) := by
  -- before the gate the run had no name, so nothing belongs to it
  have hnone : r.log = none := (h.each tid r hr).early (by rw [hphase]; rfl)
  have hunrecorded : r'.recorded = false := by
    rw [hrec]
    by_contra hne
    obtain ⟨l, pid, hl, -⟩ := (h.each tid r hr).recorded (by simpa using hne)
    rw [hnone] at hl
    cases hl
  -- a run that has a name is another one
  have hold : ∀ j a l, run j = some a → a.log = some l →
      Function.update run tid (some r') j = some a := by
    intro j a l hj hl
    have hne : j ≠ tid := by
      rintro rfl
      rw [hr, Option.some.injEq] at hj
      rw [← hj, hnone] at hl
      cases hl
    rwa [Function.update_of_ne hne]
  -- and its name is new
  have hfresh : ∀ j a, run j = some a → a.log ≠ some s.db.taskLog.nextId := fun j a hj hl =>
    absurd ((h.each j a hj).log_lt _ hl) (Int.lt_irrefl _)
  constructor
  case each =>
    rw [hnext, hos]
    intro j a ha
    rcases update_eq_some ha with ⟨-, ⟨⟩⟩ | ⟨-, hj⟩
    · constructor
      case log_lt =>
        intro l hl
        rw [hlog, Option.some.injEq] at hl
        omega
      case early => simp [hearly]
      case child_proc => simp [hchild]
      case handle =>
        intro pid l hatt
        simp [hatt, Phase.child] at hchild
      case recorded => simp [hunrecorded]
      case proc_recorded =>
        intro x hx hl
        rw [hlog, Option.some.injEq] at hl
        exact absurd (h.proc_lt x hx) (by omega)
    · exact (h.each j a hj).of_same (by omega) (fun _ _ => Iff.rfl) fun _ _ => rfl
  case log_unique =>
    intro j j' a a' l ha ha' hl hl'
    rcases update_eq_some ha with ⟨rfl, ⟨⟩⟩ | ⟨-, hj⟩ <;>
      rcases update_eq_some ha' with ⟨rfl, ⟨⟩⟩ | ⟨-, hj'⟩
    · rfl
    · exact absurd (hl'.trans (hl.symm.trans hlog)) (hfresh j' a' hj')
    · exact absurd (hl.trans (hl'.symm.trans hlog)) (hfresh j a hj)
    · exact h.log_unique j j' a a' l hj hj' hl hl'
  case proc_lt =>
    intro x hx
    rw [hos] at hx
    have := h.proc_lt x hx
    omega
  case proc_run =>
    intro x hx hfree
    rw [hos] at hx
    obtain ⟨j, a, hj, hal, hpid⟩ := h.proc_run x hx hfree
    exact ⟨j, a, hold j a _ hj hal, hal, hpid⟩
  case registered =>
    intro e l hl
    rw [hsched] at hl
    obtain ⟨j, a, hj, hal, hrec⟩ := h.registered e l hl
    exact ⟨j, a, hold j a _ hj hal, hal, hrec⟩

end Steps

/-! ## The operations -/

section Operations

variable {ext : Externals} {s s' : State} {L : Nat → Option Local} {tid : Nat} {ℓ : Local}
  {c : Choice} {run : Run}

/-- A step that changes neither the run nor the stores. -/
theorem RunsSound.still (h : RunsSound s (runs L)) (hℓ : L tid = some ℓ) {ℓ' : Local}
    (hrun : ℓ'.run = ℓ.run) (hs : SameStores s s') :
    RunsSound s' (runs (Function.update L tid (some ℓ'))) := by
  rw [runs_update, hrun, ← runs_of_some hℓ, Function.update_eq_self]
  exact h.same hs

/-- Every statement that is not about log rows leaves that table as it is. -/
theorem taskLog_other (o : DbOp)
    (ho : ∀ row, o ≠ .createTaskLog row ∧ o ≠ .saveTaskLog row ∧ o ≠ .createReportLog row)
    (now : Time) (d : Database) : (o.exec c now d).2.taskLog = d.taskLog := by
  have hkeep : ∀ {α : Type} (r : Option (α × Database)),
      (∀ a d', r = some (a, d') → d'.taskLog = d.taskLog) →
      (statement c d r).2.taskLog = d.taskLog := fun r hr =>
    statement_keeps (I := fun d' : Database => d'.taskLog = d.taskLog) rfl hr
  cases o with
  | createTaskLog row => exact absurd rfl (ho row).1
  | saveTaskLog row => exact absurd rfl (ho row).2.1
  | createReportLog row => exact absurd rfl (ho row).2.2
  | createTask _ | deleteTask _ | beginTx | deleteNode _ | createNodeEvent _ | createUser _
  | deleteUser _ | deleteUserTokens _ | createUserToken _ | createOperationLog _ =>
    exact hkeep _ fun a d' hd => by cases hd; rfl
  | saveTask row =>
    refine hkeep _ fun a d' hsave => ?_
    obtain ⟨t, -, hd⟩ := Option.map_eq_some_iff.mp hsave
    cases hd
    rfl
  | saveUser row =>
    refine hkeep _ fun a d' hsave => ?_
    obtain ⟨t, -, hd⟩ := Option.map_eq_some_iff.mp hsave
    cases hd
    rfl
  | createNode row =>
    refine hkeep _ fun a d' hd => ?_
    split at hd
    · cases hd
      rfl
    · cases hd
  | saveNode row =>
    refine hkeep _ fun a d' hd => ?_
    split at hd
    · obtain ⟨t, -, hd⟩ := Option.map_eq_some_iff.mp hd
      cases hd
      rfl
    · cases hd
  | commitTx =>
    simp only [DbOp.exec]
    split <;> rfl
  | _ => rfl

/-- The next log row's id never goes back. -/
theorem taskLog_nextId (o : DbOp) (now : Time) (d : Database) :
    d.taskLog.nextId ≤ (o.exec c now d).2.taskLog.nextId := by
  have hkeep : ∀ {α : Type} (r : Option (α × Database)),
      (∀ a d', r = some (a, d') → d.taskLog.nextId ≤ d'.taskLog.nextId) →
      d.taskLog.nextId ≤ (statement c d r).2.taskLog.nextId := fun r hr =>
    statement_keeps (I := fun d' : Database => d.taskLog.nextId ≤ d'.taskLog.nextId) le_rfl hr
  have hcreate : ∀ {α : Type} (a : α) (row : TaskLog),
      d.taskLog.nextId ≤ (statement c d (some (a, { d with
        taskLog := d.taskLog.create row now }))).2.taskLog.nextId := fun a row =>
    hkeep _ fun a d' hd => by
      cases hd
      exact Int.le_add_one le_rfl
  cases o with
  | createTaskLog row => exact hcreate _ row
  | createReportLog row => exact hcreate _ row
  | saveTaskLog row =>
    refine hkeep _ fun a d' hsave => ?_
    obtain ⟨t, ht, hd⟩ := Option.map_eq_some_iff.mp hsave
    cases hd
    exact le_of_eq (Table.nextId_save ht).symm
  | _ =>
    refine le_of_eq (congrArg _ (taskLog_other _ ?_ now d)).symm
    intro row
    refine ⟨?_, ?_, ?_⟩ <;> rintro ⟨⟩

/-- `cmd.Start` has returned a child. -/
theorem RunsSound.startProcess (h : RunsSound s (runs L)) (hr : runs L tid = some run) {log : Int}
    {pid : Nat} (hphase : run.phase = .ready) (hlog : run.log = some log) {s' : State}
    (hs' : s' = { s with
      clock := s.clock + c.elapsed
      os := { s.os with procs := ⟨pid, log, false⟩ :: s.os.procs } }) :
    RunsSound s' (Function.update (runs L) tid
      (some { run with attempts := run.attempts + 1, phase := .started pid })) := by
  have hsound := h.each tid run hr
  -- the one new process carries the name of the run
  have hmem : ∀ x, x ∈ s'.os.procs ↔ x = ⟨pid, log, false⟩ ∨ x ∈ s.os.procs := by
    intro x
    rw [hs']
    exact List.mem_cons
  refine h.move hr rfl (le_of_eq (by rw [hs'])) ?_ ?_ ?_ ?_ ?_ ?_
  · intro x hx
    have hne : x ≠ ⟨pid, log, false⟩ := by
      rintro rfl
      exact hx hlog
    rw [hmem, or_iff_right hne]
  · intro l _
    rw [hs']
  · intro e l hl
    rw [hs'] at hl
    exact .inl hl
  · intro e l hl hrl
    rw [hs'] at hl
    have hrec : run.recorded = true := h.owner_recorded hr hl hrl
    exact hrec
  · constructor
    case log_lt => rw [hs']; exact hsound.log_lt
    case early => simp [Phase.isEarly]
    case child_proc =>
      intro pid' l hpid hl
      rw [hlog, Option.some.injEq] at hl
      simp only [Phase.child, Option.some.injEq] at hpid
      rw [hmem, hpid, hl]
      exact .inl rfl
    case handle => simp
    case recorded =>
      intro hrec
      obtain ⟨l, pid', hl, hhandle, x, hx, hxl⟩ := hsound.recorded hrec
      refine ⟨l, pid', hl, ?_, x, (hmem x).mpr (.inr hx), hxl⟩
      rw [hs']
      exact hhandle
    case proc_recorded => exact fun _ _ _ => .inr ⟨pid, rfl⟩
  · intro x hx hfree hl
    rcases (hmem x).mp hx with rfl | hold
    · rfl
    · -- before an attempt there is no child
      have hpid := h.owner_child hr hold hfree hl
      rw [hphase] at hpid
      cases hpid

/-- `ri.Process` is set. -/
theorem RunsSound.setProcess (h : RunsSound s (runs L)) (hr : runs L tid = some run) {log : Int}
    {pid : Nat} (hphase : run.phase = .started pid) (hlog : run.log = some log) {s' : State}
    (hs' : s' = { s with
      clock := s.clock + c.elapsed
      os := { s.os with handles := s.os.handles.insert log pid } }) :
    RunsSound s' (Function.update (runs L) tid (some { run with phase := .attached pid })) := by
  have hsound := h.each tid run hr
  have hprocs : s'.os.procs = s.os.procs := by rw [hs']
  -- the handle of the run is its child, and the other handles stay
  have hself : s'.os.handles.lookup log = some pid := by
    rw [hs']
    exact AList.lookup_insert _
  refine h.move hr rfl (le_of_eq (by rw [hs'])) ?_ ?_ ?_ ?_ ?_ ?_
  · intro x _
    rw [hprocs]
  · intro l hl
    rw [hs']
    exact AList.lookup_insert_ne fun heq => hl (heq ▸ hlog)
  · intro e l hl
    rw [hs'] at hl
    exact .inl hl
  · intro e l hl hrl
    rw [hs'] at hl
    have hrec : run.recorded = true := h.owner_recorded hr hl hrl
    exact hrec
  · constructor
    case log_lt => rw [hs']; exact hsound.log_lt
    case early => simp [Phase.isEarly]
    case child_proc =>
      intro pid' l hpid hl
      rw [hprocs]
      exact hsound.child_proc pid' l (by rw [hphase]; exact hpid) hl
    case handle =>
      intro pid' l hpid hl
      cases hpid
      rw [hlog, Option.some.injEq] at hl
      exact hl ▸ hself
    case recorded =>
      intro hrec
      obtain ⟨l, pid', hl, -, x, hx, hxl⟩ := hsound.recorded hrec
      rw [hlog, Option.some.injEq] at hl
      exact ⟨log, pid, hlog, hself, x, hprocs ▸ hx, hxl.trans hl.symm⟩
    case proc_recorded => exact fun _ _ _ => .inr ⟨pid, rfl⟩
  · intro x hx hfree hl
    rw [hprocs] at hx
    have hpid := h.owner_child hr hx hfree hl
    rw [hphase] at hpid
    exact hpid

/-- What is registered afterwards was registered before, or is the run's own name. -/
theorem mem_register {d : Scheduler} {taskId log : Int} {e : EntryID} {l : Int}
    (h : l ∈ (d.register taskId log).running e) : l ∈ d.running e ∨ l = log := by
  unfold Scheduler.register at h
  split at h
  · exact .inl h
  · rename_i ti hti
    dsimp only at h
    rcases eq_or_ne e ti.entryId with rfl | hne
    · rw [Function.update_self, List.mem_insert_iff] at h
      exact h.symm
    · rw [Function.update_of_ne hne] at h
      exact .inl h

theorem mem_forget {d : Scheduler} {ti : TaskInstance} {log : Int} {e : EntryID} {l : Int}
    (h : l ∈ (d.forget ti log).running e) : l ∈ d.running e := by
  rcases eq_or_ne e ti.entryId with rfl | hne
  · simp only [Scheduler.forget, Function.update_self] at h
    exact List.mem_of_mem_filter h
  · simpa only [Scheduler.forget, Function.update_of_ne hne] using h

/-- The run is registered with the instance of its task, if there is one. -/
theorem RunsSound.register (h : RunsSound s (runs L)) (hr : runs L tid = some run) {taskId log : Int}
    {pid : Nat} (hphase : run.phase = .attached pid) (hlog : run.log = some log) {s' : State}
    (hs' : s' = { s with
      clock := s.clock + c.elapsed
      sched := s.sched.register taskId log }) :
    RunsSound s' (Function.update (runs L) tid (some { run with recorded := true })) := by
  have hsound := h.each tid run hr
  have hos : s'.os = s.os := by rw [hs']
  -- the child that is registered is there
  have hproc := hsound.child_proc pid log (by rw [hphase]; rfl) hlog
  refine h.move hr rfl (le_of_eq (by rw [hs'])) ?_ ?_ ?_ (fun _ _ _ _ => rfl) ?_ ?_
  · intro x _
    rw [hos]
  · intro l _
    rw [hos]
  · intro e l hl
    rw [hs'] at hl
    rcases mem_register hl with hold | rfl
    · exact .inl hold
    · exact .inr hlog
  · rw [hos, show s'.db.taskLog.nextId = s.db.taskLog.nextId by rw [hs']]
    exact ⟨hsound.log_lt, hsound.early, hsound.child_proc, hsound.handle,
      fun _ => ⟨log, pid, hlog, hsound.handle pid log hphase hlog, _, hproc, rfl⟩,
      fun _ _ _ => .inl rfl⟩
  · intro x hx hfree hl
    rw [hos] at hx
    exact h.owner_child hr hx hfree hl

/-- `cmd.Wait` has reaped the child. -/
theorem RunsSound.reap (h : RunsSound s (runs L)) (hr : runs L tid = some run) {log : Int}
    (hrec : run.recorded = true) (hlog : run.log = some log) {s' : State}
    (hs' : s' = { s with
      clock := s.clock + c.elapsed
      os := { s.os with
        procs := s.os.procs.map fun p => if p.log = log then { p with reaped := true } else p } }) :
    RunsSound s' (Function.update (runs L) tid (some { run with phase := .draining })) := by
  have hsound := h.each tid run hr
  have hmem : ∀ x, x ∈ s'.os.procs ↔
      ∃ y ∈ s.os.procs, (if y.log = log then { y with reaped := true } else y) = x := by
    intro x
    rw [hs']
    exact List.mem_map
  -- what carries another name is not reaped
  have hother : ∀ x, x.log ≠ log → (x ∈ s'.os.procs ↔ x ∈ s.os.procs) := by
    intro x hx
    rw [hmem]
    constructor
    · rintro ⟨y, hy, rfl⟩
      split at hx
      · rename_i hyl
        exact absurd hyl hx
      · rename_i hyl
        rwa [if_neg hyl]
    · exact fun hxs => ⟨x, hxs, if_neg hx⟩
  refine h.move hr rfl (le_of_eq (by rw [hs'])) ?_ ?_ ?_ (fun _ _ _ _ => hrec) ?_ ?_
  · intro x hx
    exact hother x fun heq => hx (heq ▸ hlog)
  · intro l _
    rw [hs']
  · intro e l hl
    rw [hs'] at hl
    exact .inl hl
  · constructor
    case log_lt => rw [hs']; exact hsound.log_lt
    case early => simp [Phase.isEarly]
    case child_proc => simp [Phase.child]
    case handle => simp
    case recorded =>
      intro _
      obtain ⟨l, pid, hl, hhandle, x, hx, hxl⟩ := hsound.recorded hrec
      rw [hlog, Option.some.injEq] at hl
      refine ⟨log, pid, hlog, ?_, { x with reaped := true }, ?_, hxl.trans hl.symm⟩
      · rw [hs', hl]
        exact hhandle
      · exact (hmem _).mpr ⟨x, hx, if_pos (hxl.trans hl.symm)⟩
    case proc_recorded => exact fun _ _ _ => .inl hrec
  · intro x hx hfree hl
    rw [hlog, Option.some.injEq] at hl
    -- no process of the run is left unreaped
    obtain ⟨y, -, rfl⟩ := (hmem x).mp hx
    split at hfree
    · cases hfree
    · rename_i hyl
      rw [if_neg hyl] at hl
      exact absurd hl.symm hyl

/-- The operations of a run that concern no child and make no run. -/
def quietOp : RunOp → Bool
  | .newRunningInstance _ scheduled => scheduled
  | .startProcess _ _ _ _ | .setProcess _ _ | .addTaskRunningIns _ _ | .reap _ => false
  | _ => true

/-- Where they are allowed there is a run, and it has no child. -/
theorem allowed_quiet {o : RunOp} (ho : quietOp o = true) (hallowed : AllowedRun ℓ o) :
    ∃ run, ℓ.run = some run ∧ run.phase.child = none ∧
      (∀ r, nextRun ℓ.run o r = some (run.advance o r)) := by
  have hplace : ∃ run, ℓ.run = some run ∧ run.phase.child = none := by
    cases o with
    | newRunningInstance task scheduled =>
      cases ho
      obtain ⟨run, hrun, hphase, -⟩ := hallowed
      exact ⟨run, hrun, by rw [hphase]; rfl⟩
    | startProcess task log command args => cases ho
    | setProcess log pid => cases ho
    | addTaskRunningIns taskId log => cases ho
    | reap log => cases ho
    | waitReturn log timeout =>
      obtain ⟨run, hrun, hphase, -⟩ := hallowed
      exact ⟨run, hrun, by rw [hphase]; rfl⟩
    | isRegistered taskId log =>
      obtain ⟨run, hrun, hphase, -⟩ := hallowed
      exact ⟨run, hrun, by rw [hphase]; rfl⟩
    | unregister taskId log =>
      obtain ⟨run, hrun, hphase, -⟩ := hallowed
      exact ⟨run, hrun, by rw [hphase]; rfl⟩
    | tryAcquire e =>
      obtain ⟨run, hrun, hphase, -⟩ := hallowed
      exact ⟨run, hrun, by rw [hphase]; rfl⟩
    | acquire e =>
      obtain ⟨run, hrun, hphase, -⟩ := hallowed
      exact ⟨run, hrun, by rw [hphase]; rfl⟩
    | release e =>
      obtain ⟨run, hrun, hphase, -⟩ := hallowed
      exact ⟨run, hrun, by rw [hphase]; rfl⟩
    | taskAssertResult output jsCode =>
      obtain ⟨run, hrun, hphase⟩ := hallowed
      exact ⟨run, hrun, by rw [hphase]; rfl⟩
    | sleep duration =>
      obtain ⟨run, hrun, hphase, -⟩ := hallowed
      exact ⟨run, hrun, by rw [hphase]; rfl⟩
    | resultHandler code =>
      obtain ⟨run, hrun, hphase⟩ := hallowed
      exact ⟨run, hrun, by rw [hphase]; rfl⟩
    | crash =>
      obtain ⟨run, hrun, hphase⟩ := hallowed
      exact ⟨run, hrun, by rw [hphase]; rfl⟩
  obtain ⟨run, hrun, hchild⟩ := hplace
  refine ⟨run, hrun, hchild, fun r => ?_⟩
  rw [hrun]
  cases o with
  | newRunningInstance task scheduled =>
    cases ho
    rfl
  | _ => rfl

/-- They leave the run without a child. -/
theorem advance_quiet {o : RunOp} (ho : quietOp o = true) (hallowed : AllowedRun ℓ o)
    (hrun : ℓ.run = some run) (r : o.Res) : run.QuietTo (run.advance o r) := by
  obtain ⟨run', hrun', hchild, -⟩ := allowed_quiet ho hallowed
  obtain rfl : run = run' := Option.some.inj (hrun.symm.trans hrun')
  have hover : ∀ phase : Phase, phase.child = none → phase.isEarly = false →
      run.QuietTo { run with phase := phase } := fun phase hnone hlate =>
    ⟨rfl, rfl, hchild, hnone, fun hearly => by rw [hlate] at hearly; cases hearly⟩
  have hlock : ∀ locked, run.QuietTo { run with locked := locked } := fun locked =>
    ⟨rfl, rfl, hchild, hchild, fun hearly => hearly⟩
  cases o with
  | newRunningInstance task scheduled =>
    cases ho
    obtain ⟨run', hrun', hphase, -⟩ := hallowed
    obtain rfl : run = run' := Option.some.inj (hrun.symm.trans hrun')
    exact ⟨rfl, rfl, hchild, rfl, fun _ => by rw [hphase]; rfl⟩
  | startProcess task log command args => cases ho
  | setProcess log pid => cases ho
  | addTaskRunningIns taskId log => cases ho
  | reap log => cases ho
  | waitReturn log timeout =>
    cases r with
    | exited stdout =>
      simp only [Run.advance]
      split
      · exact hover .asserting rfl rfl
      · exact hover .passed rfl rfl
    | failed err stderr => exact hover .failed rfl rfl
    | timedOut => exact hover .failed rfl rfl
  | isRegistered taskId log =>
    cases r with
    | none => exact hover .over rfl rfl
    | some registered =>
      cases registered with
      | false => exact hover .over rfl rfl
      | true => exact hover .deleting rfl rfl
  | unregister taskId log => exact hover .over rfl rfl
  | tryAcquire e =>
    cases r with
    | true => exact hlock true
    | false => exact hover .over rfl rfl
  | acquire e => exact hlock true
  | release e => exact hlock false
  | taskAssertResult output jsCode =>
    cases r with
    | true => exact hover .passed rfl rfl
    | false => exact hover .failed rfl rfl
  | sleep duration => exact hover .ready rfl rfl
  | resultHandler code =>
    simp only [Run.advance]
    split
    · exact hover .completing rfl rfl
    · exact hover .over rfl rfl
  | crash => exact ⟨rfl, rfl, hchild, hchild, fun hearly => hearly⟩

/-- They only take names out of `RunningInstances`. -/
theorem exec_quiet {o : RunOp} (ho : quietOp o = true) {d d' : Scheduler} {os os' : Processes}
    {r : o.Res} (hexec : o.exec c d os = some (r, d', os')) :
    os'.procs = os.procs ∧ os'.handles = os.handles ∧
      ∀ e l, l ∈ d'.running e → l ∈ d.running e := by
  cases o with
  | startProcess task log command args => cases ho
  | setProcess log pid => cases ho
  | addTaskRunningIns taskId log => cases ho
  | reap log => cases ho
  | waitReturn log timeout =>
    simp only [RunOp.exec] at hexec
    split at hexec
    · cases hexec
    · cases hexec
      exact ⟨rfl, rfl, fun _ _ hl => hl⟩
  | unregister taskId log =>
    simp only [RunOp.exec] at hexec
    split at hexec
    · cases hexec
      exact ⟨rfl, rfl, fun _ _ hl => hl⟩
    · cases hexec
      exact ⟨rfl, rfl, fun _ _ hl => mem_forget hl⟩
  | tryAcquire e =>
    simp only [RunOp.exec] at hexec
    split at hexec
    · cases hexec
      exact ⟨rfl, rfl, fun _ _ hl => hl⟩
    · cases hexec
      exact ⟨rfl, rfl, fun _ _ hl => hl⟩
  | acquire e =>
    simp only [RunOp.exec] at hexec
    split at hexec
    · cases hexec
    · cases hexec
      exact ⟨rfl, rfl, fun _ _ hl => hl⟩
  | _ =>
    cases hexec
    exact ⟨rfl, rfl, fun _ _ hl => hl⟩

/-- The operations of a run keep the stores tied to the runs. -/
theorem RunsSound.runOp (h : RunsSound s (runs L)) (hℓ : L tid = some ℓ) {o : RunOp} {r : o.Res}
    (hallowed : AllowedRun ℓ o) {d : Scheduler} {os : Processes}
    (hexec : o.exec c s.sched s.os = some (r, d, os))
    (hs' : s' = { s with clock := s.clock + c.elapsed, sched := d, os := os }) :
    RunsSound s' (runs (Function.update L tid (some (next ℓ (.run o) r)))) := by
  have hruns := runs_of_some hℓ
  rw [runs_update]
  by_cases ho : quietOp o = true
  · obtain ⟨run, hrun, hchild, hnext⟩ := allowed_quiet ho hallowed
    obtain ⟨hprocs, hhandles, hrunning⟩ := exec_quiet ho hexec
    rw [show (next ℓ (.run o) r).run = _ from hnext r]
    refine h.quiet (hruns.trans hrun) (advance_quiet ho hallowed hrun r) ?_
    subst hs'
    exact ⟨le_refl _, hprocs, hhandles, hrunning⟩
  · -- the operations that make a run, and those that concern its child
    have hrun' : ∀ run, ℓ.run = some run → (next ℓ (.run o) r).run = nextRun (some run) o r :=
      fun run hrun => by rw [← hrun]; rfl
    cases o with
    | newRunningInstance task scheduled =>
      obtain rfl : scheduled = false := by simpa [quietOp] using ho
      cases hexec
      refine RunsSound.same (h.new (hruns.trans hallowed) rfl rfl) ?_
      subst hs'
      exact ⟨le_refl _, rfl, rfl, fun _ _ hl => hl⟩
    | startProcess task log command args =>
      obtain ⟨run, hrun, hphase, hlog, -, -⟩ := hallowed
      rw [hrun' run hrun]
      simp only [RunOp.exec] at hexec
      split at hexec
      · cases hexec
        refine h.quiet (hruns.trans hrun) ⟨rfl, rfl, by rw [hphase]; rfl, rfl, ?_⟩ ?_
        · exact fun hearly => by cases hearly
        · subst hs'
          exact ⟨le_refl _, rfl, rfl, fun _ _ hl => hl⟩
      · split at hexec
        · cases hexec
          exact h.startProcess (hruns.trans hrun) hphase hlog hs'
        · cases hexec
    | setProcess log pid =>
      obtain ⟨run, hrun, hphase, hlog⟩ := hallowed
      rw [hrun' run hrun]
      cases hexec
      exact h.setProcess (hruns.trans hrun) hphase hlog hs'
    | addTaskRunningIns taskId log =>
      obtain ⟨run, hrun, ⟨pid, hphase⟩, hlog, -⟩ := hallowed
      rw [hrun' run hrun]
      cases hexec
      exact h.register (hruns.trans hrun) hphase hlog hs'
    | reap log =>
      obtain ⟨run, hrun, -, hlog, hrec⟩ := hallowed
      rw [hrun' run hrun]
      cases hexec
      exact h.reap (hruns.trans hrun) hrec hlog hs'
    | _ => exact absurd rfl ho

/-- Only the log row of a run gives it a name. -/
theorem RunsSound.dbOp (h : RunsSound s (runs L)) (hℓ : L tid = some ℓ) {o : DbOp} {r : o.Res}
    (hallowed : AllowedDb ℓ o) (hr : r = (o.exec c (s.clock + c.elapsed) s.db).1)
    (hs' : s' = { s with
      clock := s.clock + c.elapsed
      db := (o.exec c (s.clock + c.elapsed) s.db).2 }) :
    RunsSound s' (runs (Function.update L tid (some (next ℓ (.db o) r)))) := by
  have hruns := runs_of_some hℓ
  have hrun' : ∀ run, ℓ.run = some run → (next ℓ (.db o) r).run = some (run.logged o r) := by
    intro run hrun
    rw [show (next ℓ (.db o) r).run = _ from run_nextDb ℓ o r, hrun]
    rfl
  have hstores : s.db.taskLog.nextId ≤ s'.db.taskLog.nextId → SameStores s s' := by
    intro hnext
    subst hs'
    exact ⟨hnext, rfl, rfl, fun _ _ hl => hl⟩
  -- the run goes on to a place without a child
  have hover : ∀ run phase, ℓ.run = some run → run.phase.child = none → phase.child = none →
      phase.isEarly = false → s.db.taskLog.nextId ≤ s'.db.taskLog.nextId →
      RunsSound s' (Function.update (runs L) tid (some { run with phase := phase })) := by
    intro run phase hrun hbefore hafter hlate hnext
    refine h.quiet (hruns.trans hrun) ⟨rfl, rfl, hbefore, hafter, fun hearly => ?_⟩ (hstores hnext)
    rw [hlate] at hearly
    cases hearly
  by_cases ho : ∃ row, o = .createTaskLog row
  · obtain ⟨row, rfl⟩ := ho
    obtain ⟨run, hrun, hphase⟩ := hallowed
    rw [runs_update, hrun' run hrun]
    have hchild : run.phase.child = none := by rw [hphase]; rfl
    have hcases : (r = .ok (s.db.taskLog.inserted row (s.clock + c.elapsed)) ∧
        s'.db.taskLog.nextId = s.db.taskLog.nextId + 1) ∨
        (∃ err, r = .error err) ∧ s'.db.taskLog.nextId = s.db.taskLog.nextId := by
      subst hs' hr
      simp only [DbOp.exec, statement]
      split
      · exact .inr ⟨⟨_, rfl⟩, rfl⟩
      · exact .inl ⟨rfl, rfl⟩
    rcases hcases with ⟨rfl, hnext⟩ | ⟨⟨err, rfl⟩, hnext⟩
    · simp only [Run.logged]
      split
      -- the gate lets the run pass: its log row is its name
      · exact h.named (hruns.trans hrun) hphase
          (congrArg some (Table.rowId_inserted s.db.taskLog row _)) rfl rfl rfl hnext
          (by rw [hs']) (by rw [hs'])
      · exact hover run .over hrun hchild rfl rfl (by omega)
    · exact hover run .over hrun hchild rfl rfl (le_of_eq hnext.symm)
  · have hnext : s.db.taskLog.nextId ≤ s'.db.taskLog.nextId := by
      rw [hs']
      exact taskLog_nextId o _ _
    -- the other statements move no run
    by_cases hsave : ∃ row, o = .saveTaskLog row
    · obtain ⟨row, rfl⟩ := hsave
      obtain ⟨run, hrun, hphase, -⟩ := hallowed
      rw [runs_update, hrun' run hrun]
      have hchild : run.phase.child = none := by rcases hphase with h | h | h <;> rw [h] <;> rfl
      simp only [Run.logged]
      split
      · exact hover run .completing hrun hchild rfl rfl hnext
      · exact hover run .over hrun hchild rfl rfl hnext
    · refine h.still hℓ ?_ (hstores hnext)
      rw [show (next ℓ (.db o) r).run = _ from run_nextDb ℓ o r]
      cases ℓ.run with
      | none => rfl
      | some run =>
        cases o with
        | createTaskLog row => exact absurd ⟨row, rfl⟩ ho
        | saveTaskLog row => exact absurd ⟨row, rfl⟩ hsave
        | _ => rfl

/-- **Every operation keeps the stores tied to the runs.** -/
theorem RunsSound.op (h : RunsSound s (runs L)) (hℓ : L tid = some ℓ) {o : Op} {r : o.Res}
    (hallowed : Allowed ℓ o) (hexec : exec ext o c s = some (r, s')) :
    RunsSound s' (runs (Function.update L tid (some (next ℓ o r)))) := by
  cases o with
  | db o =>
    obtain ⟨-, hr, hs'⟩ := exec_db hexec
    exact h.dbOp hℓ hallowed hr hs'
  | run o =>
    obtain ⟨-, d, os, hrun, hs'⟩ := exec_run hexec
    exact h.runOp hℓ hallowed hrun hs'
  | world o =>
    obtain ⟨-, -, rfl⟩ := exec_world hexec
    exact h.still hℓ rfl ⟨le_refl _, rfl, rfl, fun _ _ hl => hl⟩
  | sched o =>
    obtain ⟨-, rfl, rfl⟩ := exec_sched hexec
    refine h.still hℓ rfl ?_
    cases o with
    | cronAddJob spec job =>
      rcases addJob_cases ext c s.sched s.os spec job with hok | herror
      · rw [hok]
        exact ⟨le_refl _, rfl, rfl, fun _ _ hl => hl⟩
      · rw [herror]
        exact ⟨le_refl _, rfl, rfl, fun _ _ hl => hl⟩
    | stopRunning e log =>
      simp only [SchedOp.exec]
      split <;> exact ⟨le_refl _, rfl, rfl, fun _ _ hl => hl⟩
    | _ => exact ⟨le_refl _, rfl, rfl, fun _ _ hl => hl⟩

end Operations

/-! ## Every run of the pool -/

section Reached

variable {ext : Externals}

/-- No run has been there yet. -/
theorem RunsSound.start {s : State} (h : Untouched s) : RunsSound s fun _ => none where
  each := by simp
  log_unique := by simp
  proc_lt := by simp [h.procs]
  proc_run := by simp [h.procs]
  registered := by simp [h.running]

theorem RunsSound.spawn {s : State} {L : Nat → Option Local} {tid : Nat} {ℓ : Local}
    (h : RunsSound s (runs L)) (hnone : L tid = none) (hfresh : Fresh s ℓ) :
    RunsSound s (runs (Function.update L tid (some ℓ))) := by
  have hnorun : runs L tid = none := by simp [runs, hnone]
  rw [runs_update]
  rcases hfresh with rfl | ⟨x, -, rfl⟩
  · rw [show Local.init.run = runs L tid from hnorun.symm, Function.update_eq_self]
    exact h
  · exact h.new hnorun rfl rfl

/-- In every pool reached, the stores are tied to the runs. -/
theorem runsSound_of_reach {C : StepCondition} {p₀ p : ServerPool} (h₀ : Initial ext p₀)
    (h : (server ext).Reach (onOps C) p₀ p) : RunsSound p.shared (runs (locals p)) := by
  refine (h₀.invariant (I := fun s L => RunsSound s (runs L)) h ?_ ?_ ?_).2
  · exact RunsSound.start (untouched_of_startedUp h₀.1)
  · intro s L tid ℓ _ hi hnone hfresh
    exact hi.spawn hnone hfresh
  · intro s L tid ℓ o c r s' _ hi hℓ hallowed _ hexec
    exact hi.op hℓ hallowed hexec

end Reached

end Gonitor.Concurrent
