import Gonitor.Concurrent.Invariants

/-!
# How a Run Goes On

`PhaseStep` lists the ways a run can go from one place to the next, with what the discipline
knows at that moment: a run begins with its lock in hand, an attempt of a scheduled run is one
of those it has left, and a run completes when it has none left.  `run_step` says that a thread
takes its run along one of them.

- `noAttemptLeft_step`: a run without an attempt left never gets one.
- `inFlight_step`: a run that is in flight was in flight before, or is just beginning.
-/

namespace Gonitor.Concurrent

open Gonitor.Model Gonitor.Server Gonitor.Requests Gonitor.Task AtomicProgram SoftDelete

/-- Between `cmd.Start` and the end of the attempt. -/
def Phase.inAttempt : Phase → Bool
  | .started _ | .attached _ | .draining | .asserting => true
  | _ => false

/-- One step of a run, by an operation of its thread: its new place and its new number of
    attempts. -/
inductive PhaseStep (run : Run) : Op → Phase → Nat → Prop
  | stay {o : Op} : PhaseStep run o run.phase run.attempts
  | begin : run.phase = .fired → (run.chain ≠ .recover → run.locked = true) →
      PhaseStep run (.run (.newRunningInstance run.task true)) .begun run.attempts
  | skip {o : Op} : run.phase = .fired → PhaseStep run o .over run.attempts
  | pass {o : Op} : run.phase = .begun → PhaseStep run o .ready run.attempts
  | refuse {o : Op} : run.phase = .begun → PhaseStep run o .over run.attempts
  | launch {o : Op} (pid : Nat) : run.phase = .ready →
      (run.scheduled = true → run.attempts < run.limit) →
      PhaseStep run o (.started pid) (run.attempts + 1)
  | launchFails {o : Op} : run.phase = .ready → (run.scheduled = true → run.attempts < run.limit) →
      PhaseStep run o .failed (run.attempts + 1)
  | work {o : Op} {phase : Phase} : run.phase.inAttempt = true → phase.inAttempt = true →
      PhaseStep run o phase run.attempts
  | succeed {o : Op} : run.phase.inAttempt = true → PhaseStep run o .passed run.attempts
  | fail {o : Op} : run.phase.inAttempt = true → PhaseStep run o .failed run.attempts
  | retry {o : Op} : run.phase = .failed → run.scheduled = true →
      PhaseStep run o .ready run.attempts
  | complete {o : Op} {phase : Phase} :
      run.phase = .passed ∨ run.phase = .ready ∨ run.phase = .failed →
      (run.scheduled = true → run.NoAttemptLeft) → phase = .completing ∨ phase = .over →
      PhaseStep run o phase run.attempts
  | finish {o : Op} {phase : Phase} : run.phase = .completing ∨ run.phase = .deleting →
      phase = .completing ∨ phase = .deleting ∨ phase = .over → PhaseStep run o phase run.attempts

/-- What never changes in a run. -/
structure Run.SameRun (run run' : Run) : Prop where
  task : run'.task = run.task
  scheduled : run'.scheduled = run.scheduled
  chain : run'.chain = run.chain
  entry : run'.entry = run.entry

section Step

variable {ℓ : Local} {run run' : Run}

theorem Run.SameRun.refl (run : Run) : run.SameRun run := ⟨rfl, rfl, rfl, rfl⟩

theorem logged_same (run : Run) (o : DbOp) (r : o.Res) : run.SameRun (run.logged o r) := by
  unfold Run.logged
  split
  · split <;> exact ⟨rfl, rfl, rfl, rfl⟩
  all_goals exact ⟨rfl, rfl, rfl, rfl⟩

theorem advance_same (run : Run) (o : RunOp) (r : o.Res) : run.SameRun (run.advance o r) := by
  unfold Run.advance
  split <;> exact ⟨rfl, rfl, rfl, rfl⟩

/-- A database operation takes the run along `PhaseStep`. -/
theorem phaseStep_logged {o : DbOp} (hallowed : AllowedDb ℓ o) (hrun : ℓ.run = some run) (r : o.Res) :
    PhaseStep run (.db o) (run.logged o r).phase (run.logged o r).attempts := by
  cases o with
  | createTaskLog row =>
    obtain ⟨run', hrun', hphase⟩ := hallowed
    obtain rfl : run = run' := Option.some.inj (hrun.symm.trans hrun')
    -- the insert fails, or the row is that of a run that is skipped
    cases r with
    | error err => exact .refuse hphase
    | ok log =>
      simp only [Run.logged]
      split
      · exact .pass hphase
      · exact .refuse hphase
  | saveTaskLog row =>
    obtain ⟨run', hrun', hphase, hleft⟩ := hallowed
    obtain rfl : run = run' := Option.some.inj (hrun.symm.trans hrun')
    simp only [Run.logged]
    split
    -- a scheduled run goes on to its deferred function, a run-once run ends
    · exact .complete hphase hleft (.inl rfl)
    · exact .complete hphase hleft (.inr rfl)
  | _ => exact .stay

/-- An operation of the run takes it along `PhaseStep`. -/
theorem phaseStep_advance {o : RunOp} (hallowed : AllowedRun ℓ o) (hrun : ℓ.run = some run)
    (r : o.Res) : PhaseStep run (.run o) (run.advance o r).phase (run.advance o r).attempts := by
  -- the run that the discipline speaks of is this one
  have hself : ∀ {P : Run → Prop}, ℓ.HasRun P → P run := by
    rintro P ⟨run', hrun', h⟩
    rw [hrun, Option.some.injEq] at hrun'
    exact hrun' ▸ h
  cases o with
  | newRunningInstance task scheduled =>
    cases scheduled with
    | true =>
      obtain ⟨hphase, rfl, hlocked⟩ := hself hallowed
      exact .begin hphase hlocked
    | false =>
      -- a run-once run only begins in a thread without a run
      have hnone : ℓ.run = none := hallowed
      rw [hrun] at hnone
      cases hnone
  | startProcess task log command args =>
    obtain ⟨hphase, -, -, hlimit⟩ := hself hallowed
    cases r with
    | ok pid => exact .launch pid hphase hlimit
    | error err => exact .launchFails hphase hlimit
  | setProcess log pid =>
    obtain ⟨hphase, -⟩ := hself hallowed
    exact .work (by rw [hphase]; rfl) rfl
  | addTaskRunningIns taskId log => exact .stay
  | reap log =>
    obtain ⟨⟨pid, hphase⟩, -⟩ := hself hallowed
    exact .work (by rw [hphase]; rfl) rfl
  | waitReturn log timeout =>
    obtain ⟨hphase, -⟩ := hself hallowed
    have hin : run.phase.inAttempt = true := by rw [hphase]; rfl
    cases r with
    | timedOut => exact .fail hin
    | failed err stderr => exact .fail hin
    | exited stdout =>
      simp only [Run.advance]
      split
      -- with a script the output is still to be asserted
      · exact .work hin rfl
      · exact .succeed hin
  | taskAssertResult output jsCode =>
    have hphase := hself hallowed
    have hin : run.phase.inAttempt = true := by rw [hphase]; rfl
    cases r with
    | true => exact .succeed hin
    | false => exact .fail hin
  | sleep duration =>
    obtain ⟨hphase, hscheduled⟩ := hself hallowed
    exact .retry hphase hscheduled
  | resultHandler code =>
    refine .finish (.inl (hself hallowed)) ?_
    simp only [Run.advance]
    split
    · exact .inl rfl
    · exact .inr (.inr rfl)
  | isRegistered taskId log =>
    obtain ⟨hphase, -⟩ := hself hallowed
    cases r with
    | none => exact .finish (.inl hphase) (.inr (.inr rfl))
    | some registered =>
      cases registered with
      | false => exact .finish (.inl hphase) (.inr (.inr rfl))
      | true => exact .finish (.inl hphase) (.inr (.inl rfl))
  | unregister taskId log =>
    obtain ⟨hphase, -⟩ := hself hallowed
    exact .finish (.inr hphase) (.inr (.inr rfl))
  | tryAcquire e =>
    obtain ⟨hphase, -⟩ := hself hallowed
    cases r with
    | true => exact .stay
    | false => exact .skip hphase
  | acquire e => exact .stay
  | release e => exact .stay
  | crash => exact .stay

/-- Only a run-once run replaces what the thread had, and it had nothing. -/
theorem nextRun_some {o : RunOp} (hallowed : AllowedRun ℓ o) (hrun : ℓ.run = some run)
    (r : o.Res) : nextRun ℓ.run o r = some (run.advance o r) := by
  rw [hrun]
  cases o with
  | newRunningInstance task scheduled =>
    cases scheduled with
    | true => rfl
    | false =>
      have hnone : ℓ.run = none := hallowed
      rw [hrun] at hnone
      cases hnone
  | _ => rfl

/-- A thread without a run makes one for a `StartOnceTask` request. -/
theorem run_of_none {o : RunOp} (hallowed : AllowedRun ℓ o) (hnone : ℓ.run = none) (r : o.Res) :
    ∃ task, (next ℓ (.run o) r).run = some (Run.once task) := by
  have hno : ∀ {P : Run → Prop}, ¬ ℓ.HasRun P := by
    rintro P ⟨run, hrun, -⟩
    rw [hnone] at hrun
    cases hrun
  cases o with
  | newRunningInstance task scheduled =>
    cases scheduled with
    | true => exact absurd hallowed hno
    | false => exact ⟨task, rfl⟩
  | _ => exact absurd hallowed hno

/-- **How a run goes on**: a thread takes its run along one step; a thread without a run only
    gets one for a `StartOnceTask` request. -/
theorem run_step {o : Op} {r : o.Res} (hallowed : Allowed ℓ o)
    (hnext : (next ℓ o r).run = some run') :
    (∃ run, ℓ.run = some run ∧ run.SameRun run' ∧ PhaseStep run o run'.phase run'.attempts) ∨
      (ℓ.run = none ∧ ∃ task, o = .run (.newRunningInstance task false) ∧ run' = Run.once task) := by
  cases hrun : ℓ.run with
  | some run =>
    refine .inl ⟨run, rfl, ?_⟩
    cases o with
    | db o =>
      rw [show (next ℓ (.db o) r).run = _ from run_nextDb ℓ o r, hrun] at hnext
      cases hnext
      exact ⟨logged_same run o r, phaseStep_logged hallowed hrun r⟩
    | run o =>
      have hadvance := (nextRun_some hallowed hrun r).symm.trans hnext
      cases hadvance
      exact ⟨advance_same run o r, phaseStep_advance hallowed hrun r⟩
    | sched o =>
      rw [show (next ℓ (.sched o) r).run = ℓ.run from rfl, hrun] at hnext
      cases hnext
      exact ⟨.refl _, .stay⟩
    | world o =>
      rw [show (next ℓ (.world o) r).run = ℓ.run from rfl, hrun] at hnext
      cases hnext
      exact ⟨.refl _, .stay⟩
  | none =>
    refine .inr ⟨rfl, ?_⟩
    cases o with
    | db o =>
      rw [show (next ℓ (.db o) r).run = _ from run_nextDb ℓ o r, hrun] at hnext
      cases hnext
    | run o =>
      cases o with
      | newRunningInstance task scheduled =>
        cases scheduled with
        | true =>
          rw [show (next ℓ _ r).run = ℓ.run.map _ from rfl, hrun] at hnext
          cases hnext
        | false =>
          cases hnext
          exact ⟨task, rfl, rfl⟩
      | _ =>
        rw [show (next ℓ _ r).run = ℓ.run.map _ from rfl, hrun] at hnext
        cases hnext
    | sched o =>
      rw [show (next ℓ (.sched o) r).run = ℓ.run from rfl, hrun] at hnext
      cases hnext
    | world o =>
      rw [show (next ℓ (.world o) r).run = ℓ.run from rfl, hrun] at hnext
      cases hnext

/-- A thread does not lose its run. -/
theorem run_persists (hrun : ℓ.run = some run) (o : Op) (r : o.Res) :
    ∃ run', (next ℓ o r).run = some run' := by
  cases o with
  | db o => exact ⟨_, (run_nextDb ℓ o r).trans (by rw [hrun]; rfl)⟩
  | sched o => exact ⟨run, hrun⟩
  | world o => exact ⟨run, hrun⟩
  | run o =>
    cases o with
    | newRunningInstance task scheduled =>
      cases scheduled with
      | true => exact ⟨_, congrArg (Option.map _) hrun⟩
      | false => exact ⟨_, rfl⟩
    | _ => exact ⟨_, congrArg (Option.map _) hrun⟩

/-! ### In the pool -/

section Pool

variable {L : Nat → Option Local} {tid j : Nat} {o : Op} {r : o.Res}

/-- A run that is there after an operation was there before and has gone on by one step, or has
    just been made for a `StartOnceTask` request. -/
theorem runs_step (hℓ : L tid = some ℓ) (hallowed : Allowed ℓ o)
    (h : runs (Function.update L tid (some (next ℓ o r))) j = some run') :
    (∃ run, runs L j = some run ∧ run.SameRun run' ∧ PhaseStep run o run'.phase run'.attempts) ∨
      (runs L j = none ∧ ∃ task, o = .run (.newRunningInstance task false) ∧ run' = Run.once task) := by
  rw [runs_update] at h
  rcases update_eq_some h with ⟨rfl, hnext⟩ | ⟨-, hold⟩
  · rw [runs_of_some hℓ]
    exact run_step hallowed hnext
  · -- the run of another thread stays as it is
    exact .inl ⟨run', hold, .refl _, .stay⟩

/-- No run is lost. -/
theorem runs_persist (hℓ : L tid = some ℓ) (h : runs L j = some run) (r : o.Res) :
    ∃ run', runs (Function.update L tid (some (next ℓ o r))) j = some run' := by
  rw [runs_update]
  rcases eq_or_ne j tid with rfl | hne
  · rw [Function.update_self]
    exact run_persists ((runs_of_some hℓ).symm.trans h) o r
  · exact ⟨run, (Function.update_of_ne hne ..).trans h⟩

end Pool

end Step

/-! ## What follows for a run -/

section Consequences

variable {run run' : Run} {o : Op}

theorem Run.SameRun.limit (h : run.SameRun run') : run'.limit = run.limit := by
  rw [Run.limit, Run.limit, h.task]

/-- A scheduled run without an attempt left never gets one. -/
theorem noAttemptLeft_step (hleft : run.NoAttemptLeft) (hscheduled : run.scheduled = true)
    (hsame : run.SameRun run') (hstep : PhaseStep run o run'.phase run'.attempts) :
    run'.NoAttemptLeft := by
  -- outside its last places, it has used up its attempts
  have hused : run.phase ≠ .passed → run.phase ≠ .completing → run.phase ≠ .deleting →
      run.phase ≠ .over → run.limit ≤ run.attempts := by
    intro h₁ h₂ h₃ h₄
    rcases hleft with h | h | h | h | h
    · exact h
    · exact absurd h h₁
    · exact absurd h h₂
    · exact absurd h h₃
    · exact absurd h h₄
  have hworking : run.phase.inAttempt = true → run.limit ≤ run.attempts := by
    intro hin
    apply hused <;> intro heq <;> rw [heq] at hin <;> cases hin
  unfold Run.NoAttemptLeft
  rw [hsame.limit]
  generalize run'.phase = phase at hstep ⊢
  generalize run'.attempts = attempts at hstep ⊢
  cases hstep with
  | stay => exact hleft
  | «begin» hphase => exact .inl (hused (by simp [hphase]) (by simp [hphase]) (by simp [hphase])
      (by simp [hphase]))
  | skip => simp
  | pass hphase => exact .inl (hused (by simp [hphase]) (by simp [hphase]) (by simp [hphase])
      (by simp [hphase]))
  | refuse => simp
  -- an attempt begins only below the limit
  | launch pid hphase hlimit =>
    have := hused (by simp [hphase]) (by simp [hphase]) (by simp [hphase]) (by simp [hphase])
    exact absurd (hlimit hscheduled) (by omega)
  | launchFails hphase hlimit =>
    have := hused (by simp [hphase]) (by simp [hphase]) (by simp [hphase]) (by simp [hphase])
    exact absurd (hlimit hscheduled) (by omega)
  | work hin => exact .inl (hworking hin)
  | succeed => simp
  | fail hin => exact .inl (hworking hin)
  | retry hphase => exact .inl (hused (by simp [hphase]) (by simp [hphase]) (by simp [hphase])
      (by simp [hphase]))
  | complete _ _ hphase =>
    rcases hphase with rfl | rfl <;> simp
  | finish _ hphase =>
    rcases hphase with rfl | rfl | rfl <;> simp

/-- It starts no command: the next attempt is one that it does not have. -/
theorem not_startProcess_of_noAttemptLeft {ℓ : Local} {task : Task} {log : Int} {command : String}
    {args : List String} (hrun : ℓ.run = some run) (hleft : run.NoAttemptLeft)
    (hscheduled : run.scheduled = true) :
    ¬ Allowed ℓ (.run (.startProcess task log command args)) := by
  rintro ⟨run', hrun', hphase, -, -, hlimit⟩
  obtain rfl : run = run' := Option.some.inj (hrun.symm.trans hrun')
  have := hlimit hscheduled
  -- in its last places a run is not before an attempt
  rcases hleft with h | h | h | h | h
  · omega
  all_goals
    rw [hphase] at h
    cases h

/-- A run is at its first place only if it was there before. -/
theorem fired_step {run run' : Run} {o : Op} (hstep : PhaseStep run o run'.phase run'.attempts)
    (hfired : run'.phase = .fired) : run.phase = .fired ∧ run'.attempts = run.attempts := by
  generalize run'.phase = phase at hstep hfired
  generalize run'.attempts = attempts at hstep ⊢
  cases hstep with
  | stay => exact ⟨hfired, rfl⟩
  | work _ hin =>
    rw [hfired] at hin
    cases hin
  | complete _ _ hphase => rcases hphase with rfl | rfl <;> cases hfired
  | finish _ hphase => rcases hphase with rfl | rfl | rfl <;> cases hfired
  | _ => cases hfired

/-- A run that has ended does not go on. -/
theorem over_step {run run' : Run} {o : Op} (hstep : PhaseStep run o run'.phase run'.attempts)
    (hover : run.phase = .over) : run'.phase = .over := by
  have hwaits : ∀ {phase : Phase}, run.phase = phase → phase ≠ .over → run'.phase = .over := by
    intro phase hphase hne
    exact absurd (hphase.symm.trans hover) hne
  have hworks : run.phase.inAttempt = true → run'.phase = .over := by
    intro hin
    rw [hover] at hin
    cases hin
  generalize run'.phase = phase at hstep hwaits hworks ⊢
  generalize run'.attempts = attempts at hstep
  cases hstep with
  | stay => exact hover
  | «begin» hphase => exact hwaits hphase nofun
  | skip hphase => rfl
  | pass hphase => exact hwaits hphase nofun
  | refuse hphase => rfl
  | launch pid hphase => exact hwaits hphase nofun
  | launchFails hphase => exact hwaits hphase nofun
  | work hin => exact hworks hin
  | succeed hin => exact hworks hin
  | fail hin => exact hworks hin
  | retry hphase => exact hwaits hphase nofun
  | complete hphase =>
    rcases hphase with h | h | h <;> exact hwaits h nofun
  | finish hphase =>
    rcases hphase with h | h <;> exact hwaits h nofun

/-- The run has begun and has not ended. -/
def Run.InFlight (run : Run) : Prop := run.phase ≠ .fired ∧ run.phase ≠ .over

/-- A run that is in flight was so before, or has just begun. -/
theorem inFlight_step (hflight : run'.InFlight) (hstep : PhaseStep run o run'.phase run'.attempts) :
    run.InFlight ∨ o = .run (.newRunningInstance run.task true) := by
  unfold Run.InFlight at hflight ⊢
  -- inside an attempt a run is in flight
  have hworking : run.phase.inAttempt = true → run.phase ≠ .fired ∧ run.phase ≠ .over := by
    intro hin
    constructor <;> intro heq <;> rw [heq] at hin <;> cases hin
  generalize run'.phase = phase at hstep hflight ⊢
  generalize run'.attempts = attempts at hstep
  cases hstep with
  | stay => exact .inl hflight
  | «begin» => exact .inr rfl
  | skip => exact absurd rfl hflight.2
  | pass hphase => simp [hphase]
  | refuse => exact absurd rfl hflight.2
  | launch pid hphase => simp [hphase]
  | launchFails hphase => simp [hphase]
  | work hin => exact .inl (hworking hin)
  | succeed hin => exact .inl (hworking hin)
  | fail hin => exact .inl (hworking hin)
  | retry hphase => simp [hphase]
  | complete hphase => rcases hphase with h | h | h <;> simp [h]
  | finish hphase => rcases hphase with h | h <;> simp [h]

end Consequences

end Gonitor.Concurrent
