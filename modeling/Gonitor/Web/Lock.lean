import Gonitor.Framework.AtomicProgram
import Gonitor.Framework.LabelledTraces
import Mathlib.Data.PNat.Basic
import Mathlib.Logic.Function.Basic

/-!
# The Distributed Lock

`web/component/lock`: objects that share one key in Redis.  Whoever gets the key starts a goroutine that
renews it (`checkLockIsRelease`); a release deletes the key and sends on a channel that the goroutine
receives from.  The goroutine makes that channel anew in every round, and the mutex of the object is held
over a whole renewal and over a whole release.

A step is one command that Redis executes, one access to a field of the object, or one operation on its
mutex or its channel.  Time is counted in milliseconds.  Of `Block` there is only the `SetNX` of its
passes, as the rest is waiting.
-/

namespace Gonitor.Web.Lock

open LabelledTraces
open AtomicProgram (update_eq_some)

/-! ## Objects, goroutines and calls -/

/-- An object of `type lock`, by its number, which is also its `requestId`. -/
abbrev Obj := Nat

/-- A channel, with the object that it has been made for. -/
structure Chan where
  obj : Obj
  id : Nat
  deriving DecidableEq

/-- The key in Redis.  The number of the `SetNX` that has set it is not part of it. -/
structure Lease where
  requestId : Obj
  deadline : Nat
  grant : Nat
  deriving DecidableEq

/-- Where `checkLockIsRelease` is: at the top of its loop, ahead of its `select` or in it, with the
    deadline of `checkCxt` and with the channel that it receives from, or in `done`. -/
inductive RoutinePc
  | round
  | made (deadline : Nat)
  | selecting (ch : Option Chan) (deadline : Nat)
  | locking
  | checking
  | extending
  | unlocking (isContinue : Bool)
  deriving DecidableEq

/-- The goroutine holds the mutex. -/
def RoutinePc.locked : RoutinePc → Bool
  | .checking | .extending | .unlocking _ => true
  | _ => false

structure Routine where
  obj : Obj
  pc : RoutinePc
  deriving DecidableEq

/-- Where `Release` or `ForceRelease` is: the channel is evaluated before the send blocks. -/
inductive CallPc
  | locking
  | deleting
  | evaluating
  | sending (ch : Option Chan)
  | unlocking
  deriving DecidableEq

/-- The call holds the mutex. -/
def CallPc.locked : CallPc → Bool
  | .locking => false
  | _ => true

/-- A call of `ForceRelease`, or of `Release`. -/
structure Call where
  obj : Obj
  force : Bool
  pc : CallPc
  deriving DecidableEq

/-- Who holds a mutex. -/
inductive Owner
  | routine (g : Nat)
  | call (c : Nat)
  deriving DecidableEq

structure State where
  now : Nat := 0
  key : Option Lease := none
  grants : Nat := 0
  channels : Nat := 0
  checkCancel : Obj → Option Chan := fun _ => none
  mu : Obj → Option Owner := fun _ => none
  routines : Nat → Option Routine := fun _ => none
  calls : Nat → Option Call := fun _ => none

/-- How a command ends: with an answer, or with an error, after Redis has executed it or without
    that. -/
inductive Reply
  | answered
  | lost
  | failed
  deriving DecidableEq

/-- What happens in a step. -/
inductive Label
  | setNX (j : Obj) (g : Nat) (reply : Reply)
  | make (g : Nat)
  | enter (g : Nat)
  | timer (g : Nat)
  | lock (g : Nat)
  | exist (g : Nat) (reply : Reply)
  | expire (g : Nat) (reply : Reply)
  | unlock (g : Nat)
  | call (c : Nat) (j : Obj) (force : Bool)
  | lockCall (c : Nat)
  | delete (c : Nat) (reply : Reply)
  | evaluate (c : Nat)
  | send (c g : Nat)
  | unlockCall (c : Nat)
  | tick
  | die (j : Obj)

/-! ## Steps -/

/-- The field `expiration` of the objects, in milliseconds. -/
abbrev Expirations := Obj → ℕ+

/-- The argument of `EXPIRE`, in milliseconds: the client sends whole seconds, without the fraction, and
    one for less than a second.  `SetNX` sends milliseconds. -/
def formatSec (expiration : Nat) : Nat :=
  if expiration < 1000 then 1000 else expiration / 1000 * 1000

theorem formatSec_pos (expiration : Nat) : 0 < formatSec expiration := by
  unfold formatSec
  split <;> omega

theorem formatSec_le (expiration : Nat) : formatSec expiration ≤ max expiration 1000 := by
  unfold formatSec
  split <;> omega

namespace State

variable (expiration : Expirations) (s : State)

def setRoutine (g : Nat) (r : Option Routine) : State :=
  { s with routines := Function.update s.routines g r }

def setCall (c : Nat) (k : Option Call) : State := { s with calls := Function.update s.calls c k }

def setMu (j : Obj) (owner : Option Owner) : State := { s with mu := Function.update s.mu j owner }

/-- The key is set for an object. -/
def grant (j : Obj) : State :=
  { s with key := some ⟨j, s.now + expiration j, s.grants⟩, grants := s.grants + 1 }

/-- `SetNX`, and `go lk.checkLockIsRelease()` after it. -/
def setNX (j : Obj) (g : Nat) (reply : Reply) : State :=
  match s.key, reply with
  | none, .answered => (s.grant expiration j).setRoutine g (some ⟨j, .round⟩)
  | none, .lost => s.grant expiration j
  | _, _ => s

/-- `lk.checkCancel = make(chan bool)`, with the timer that has been started ahead of it. -/
def make (g : Nat) (j : Obj) : State :=
  { s with
    channels := s.channels + 1
    checkCancel := Function.update s.checkCancel j (some ⟨j, s.channels⟩) }.setRoutine g
      (some ⟨j, .made (s.now + (expiration j - expiration j / 10))⟩)

/-- `Expire`, which does not look at the value of the key. -/
def extend (j : Obj) : State :=
  { s with key := s.key.map fun lease => { lease with deadline := s.now + formatSec (expiration j) } }

/-- `Del`, or the script of `Release`. -/
def delete (j : Obj) (force : Bool) : State :=
  { s with key := s.key.filter fun lease => !force && lease.requestId != j }

/-- The script of `Release` has deleted the key. -/
def holds (j : Obj) : Bool := s.key.any fun lease => lease.requestId == j

/-- A millisecond passes. -/
def tick : State :=
  { s with now := s.now + 1, key := s.key.filter fun lease => s.now + 1 < lease.deadline }

/-- So many milliseconds pass. -/
def wait (n : Nat) : State :=
  { s with now := s.now + n, key := s.key.filter fun lease => n == 0 || s.now + n < lease.deadline }

/-- The process of an object dies. -/
def die (j : Obj) : State :=
  { s with
    mu := Function.update s.mu j none
    routines := fun g => (s.routines g).filter fun r => r.obj != j
    calls := fun c => (s.calls c).filter fun k => k.obj != j }

/-! ### Fields after an update -/

variable {expiration s} {g g' c c' : Nat} {i j : Obj} {r : Option Routine} {k : Option Call}
  {owner : Option Owner} {force : Bool}

@[simp, grind =] theorem routines_setRoutine :
    (s.setRoutine g r).routines g' = if g' = g then r else s.routines g' := Function.update_apply ..

@[simp, grind =] theorem routines_setCall : (s.setCall c k).routines g = s.routines g := rfl

@[simp, grind =] theorem routines_setMu : (s.setMu j owner).routines g = s.routines g := rfl

@[simp, grind =] theorem routines_grant : (s.grant expiration j).routines g = s.routines g := rfl

@[simp, grind =] theorem routines_make : (s.make expiration g j).routines g' =
    if g' = g then some ⟨j, .made (s.now + (expiration j - expiration j / 10))⟩
    else s.routines g' := Function.update_apply ..

@[simp, grind =] theorem routines_extend : (s.extend expiration j).routines g = s.routines g := rfl

@[simp, grind =] theorem routines_delete : (s.delete j force).routines g = s.routines g := rfl

@[simp, grind =] theorem routines_tick : s.tick.routines g = s.routines g := rfl

@[simp, grind =] theorem routines_die_eq_some {r : Routine} :
    (s.die j).routines g = some r ↔ s.routines g = some r ∧ r.obj ≠ j := by
  simp [die, Option.filter_eq_some_iff]

@[simp, grind =] theorem calls_setCall :
    (s.setCall c k).calls c' = if c' = c then k else s.calls c' := Function.update_apply ..

@[simp, grind =] theorem calls_setRoutine : (s.setRoutine g r).calls c = s.calls c := rfl

@[simp, grind =] theorem calls_setMu : (s.setMu j owner).calls c = s.calls c := rfl

@[simp, grind =] theorem calls_grant : (s.grant expiration j).calls c = s.calls c := rfl

@[simp, grind =] theorem calls_make : (s.make expiration g j).calls c = s.calls c := rfl

@[simp, grind =] theorem calls_extend : (s.extend expiration j).calls c = s.calls c := rfl

@[simp, grind =] theorem calls_delete : (s.delete j force).calls c = s.calls c := rfl

@[simp, grind =] theorem calls_tick : s.tick.calls c = s.calls c := rfl

@[simp, grind =] theorem calls_die_eq_some {k : Call} :
    (s.die j).calls c = some k ↔ s.calls c = some k ∧ k.obj ≠ j := by
  simp [die, Option.filter_eq_some_iff]

@[simp, grind =] theorem mu_setMu : (s.setMu j owner).mu i = if i = j then owner else s.mu i :=
  Function.update_apply ..

@[simp, grind =] theorem checkCancel_setRoutine : (s.setRoutine g r).checkCancel i = s.checkCancel i := rfl

@[simp, grind =] theorem checkCancel_setCall : (s.setCall c k).checkCancel i = s.checkCancel i := rfl

@[simp, grind =] theorem checkCancel_setMu : (s.setMu j owner).checkCancel i = s.checkCancel i := rfl

@[simp, grind =] theorem checkCancel_grant : (s.grant expiration j).checkCancel i = s.checkCancel i := rfl

@[simp, grind =] theorem checkCancel_extend : (s.extend expiration j).checkCancel i = s.checkCancel i := rfl

@[simp, grind =] theorem checkCancel_delete : (s.delete j force).checkCancel i = s.checkCancel i := rfl

@[simp, grind =] theorem checkCancel_tick : s.tick.checkCancel i = s.checkCancel i := rfl

@[simp, grind =] theorem checkCancel_die : (s.die j).checkCancel i = s.checkCancel i := rfl

@[simp, grind =] theorem checkCancel_make : (s.make expiration g j).checkCancel i =
    if i = j then some ⟨j, s.channels⟩ else s.checkCancel i := Function.update_apply ..

@[simp, grind =] theorem mu_die : (s.die j).mu i = if i = j then none else s.mu i :=
  Function.update_apply ..

end State

open State in
/-- One step. -/
def step (expiration : Expirations) : Label → State → Option State
  | .setNX j g reply, s =>
    if s.routines g = none then some (s.setNX expiration j g reply) else none
  | .make g, s =>
    match s.routines g with
    | some ⟨j, .round⟩ => some (s.make expiration g j)
    | _ => none
  | .enter g, s =>
    match s.routines g with
    | some ⟨j, .made deadline⟩ => some (s.setRoutine g (some ⟨j, .selecting (s.checkCancel j) deadline⟩))
    | _ => none
  | .timer g, s =>
    match s.routines g with
    | some ⟨j, .selecting _ deadline⟩ =>
      if deadline ≤ s.now then some (s.setRoutine g (some ⟨j, .locking⟩)) else none
    | _ => none
  | .lock g, s =>
    match s.routines g with
    | some ⟨j, .locking⟩ =>
      if s.mu j = none then
        some ((s.setMu j (some (.routine g))).setRoutine g (some ⟨j, .checking⟩))
      else none
    | _ => none
  | .exist g reply, s =>
    match s.routines g with
    | some ⟨j, .checking⟩ =>
      if reply = .answered ∧ s.key.isSome then some (s.setRoutine g (some ⟨j, .extending⟩))
      else some (s.setRoutine g (some ⟨j, .unlocking false⟩))
    | _ => none
  | .expire g reply, s =>
    match s.routines g with
    | some ⟨j, .extending⟩ =>
      let s' := if reply = .failed then s else s.extend expiration j
      some (s'.setRoutine g (some ⟨j, .unlocking (decide (reply = .answered) && s.key.isSome)⟩))
    | _ => none
  | .unlock g, s =>
    match s.routines g with
    | some ⟨j, .unlocking isContinue⟩ =>
      some ((s.setMu j none).setRoutine g (if isContinue then some ⟨j, .round⟩ else none))
    | _ => none
  | .call c j force, s =>
    if s.calls c = none then some (s.setCall c (some ⟨j, force, .locking⟩)) else none
  | .lockCall c, s =>
    match s.calls c with
    | some ⟨j, force, .locking⟩ =>
      if s.mu j = none then
        some ((s.setMu j (some (.call c))).setCall c (some ⟨j, force, .deleting⟩))
      else none
    | _ => none
  | .delete c reply, s =>
    match s.calls c with
    | some ⟨j, force, .deleting⟩ =>
      let s' := if reply = .failed then s else s.delete j force
      -- without an answer, the type assertion of `Release` panics, and the mutex is unlocked
      let sends := force || (decide (reply = .answered) && s.holds j)
      some (s'.setCall c (some ⟨j, force, if sends then .evaluating else .unlocking⟩))
    | _ => none
  | .evaluate c, s =>
    match s.calls c with
    | some ⟨j, force, .evaluating⟩ => some (s.setCall c (some ⟨j, force, .sending (s.checkCancel j)⟩))
    | _ => none
  | .send c g, s =>
    match s.calls c, s.routines g with
    | some ⟨j, force, .sending (some ch)⟩, some ⟨_, .selecting (some ch') _⟩ =>
      if ch = ch' then some ((s.setCall c (some ⟨j, force, .unlocking⟩)).setRoutine g none) else none
    | _, _ => none
  | .unlockCall c, s =>
    match s.calls c with
    | some ⟨j, _, .unlocking⟩ => some ((s.setMu j none).setCall c none)
    | _ => none
  | .tick, s => some s.tick
  | .die j, s => some (s.die j)

/-! ## What a step can do -/

/-- The steps, each with what it needs. -/
inductive Step (expiration : Expirations) (s : State) : Label → State → Prop
  | setNX {j : Obj} {g : Nat} (reply : Reply) : s.routines g = none →
      Step expiration s (.setNX j g reply) (s.setNX expiration j g reply)
  | make {g : Nat} {j : Obj} : s.routines g = some ⟨j, .round⟩ →
      Step expiration s (.make g) (s.make expiration g j)
  | enter {g : Nat} {j : Obj} {deadline : Nat} : s.routines g = some ⟨j, .made deadline⟩ →
      Step expiration s (.enter g)
        (s.setRoutine g (some ⟨j, .selecting (s.checkCancel j) deadline⟩))
  | timer {g : Nat} {j : Obj} {ch : Option Chan} {deadline : Nat} :
      s.routines g = some ⟨j, .selecting ch deadline⟩ → deadline ≤ s.now →
      Step expiration s (.timer g) (s.setRoutine g (some ⟨j, .locking⟩))
  | lock {g : Nat} {j : Obj} : s.routines g = some ⟨j, .locking⟩ → s.mu j = none →
      Step expiration s (.lock g)
        ((s.setMu j (some (.routine g))).setRoutine g (some ⟨j, .checking⟩))
  | exist {g : Nat} {j : Obj} {pc : RoutinePc} (reply : Reply) :
      s.routines g = some ⟨j, .checking⟩ → pc = .extending ∨ pc = .unlocking false →
      Step expiration s (.exist g reply) (s.setRoutine g (some ⟨j, pc⟩))
  | expire {g : Nat} {j : Obj} (reply : Reply) (isContinue : Bool) :
      s.routines g = some ⟨j, .extending⟩ →
      Step expiration s (.expire g reply)
        ((if reply = .failed then s else s.extend expiration j).setRoutine g
          (some ⟨j, .unlocking isContinue⟩))
  | unlock {g : Nat} {j : Obj} {isContinue : Bool} : s.routines g = some ⟨j, .unlocking isContinue⟩ →
      Step expiration s (.unlock g)
        ((s.setMu j none).setRoutine g (if isContinue then some ⟨j, .round⟩ else none))
  | call {c : Nat} (j : Obj) (force : Bool) : s.calls c = none →
      Step expiration s (.call c j force) (s.setCall c (some ⟨j, force, .locking⟩))
  | lockCall {c : Nat} {j : Obj} {force : Bool} : s.calls c = some ⟨j, force, .locking⟩ →
      s.mu j = none →
      Step expiration s (.lockCall c)
        ((s.setMu j (some (.call c))).setCall c (some ⟨j, force, .deleting⟩))
  | delete {c : Nat} {j : Obj} {force : Bool} {pc : CallPc} (reply : Reply) :
      s.calls c = some ⟨j, force, .deleting⟩ → pc = .evaluating ∨ pc = .unlocking →
      Step expiration s (.delete c reply)
        ((if reply = .failed then s else s.delete j force).setCall c (some ⟨j, force, pc⟩))
  | evaluate {c : Nat} {j : Obj} {force : Bool} : s.calls c = some ⟨j, force, .evaluating⟩ →
      Step expiration s (.evaluate c)
        (s.setCall c (some ⟨j, force, .sending (s.checkCancel j)⟩))
  | send {c g : Nat} {j j' : Obj} {force : Bool} {ch : Chan} {deadline : Nat} :
      s.calls c = some ⟨j, force, .sending (some ch)⟩ →
      s.routines g = some ⟨j', .selecting (some ch) deadline⟩ →
      Step expiration s (.send c g) ((s.setCall c (some ⟨j, force, .unlocking⟩)).setRoutine g none)
  | unlockCall {c : Nat} {j : Obj} {force : Bool} : s.calls c = some ⟨j, force, .unlocking⟩ →
      Step expiration s (.unlockCall c) ((s.setMu j none).setCall c none)
  | tick : Step expiration s .tick s.tick
  | die (j : Obj) : Step expiration s (.die j) (s.die j)

theorem step_cases {expiration : Expirations} {s s' : State} {l : Label}
    (hstep : step expiration l s = some s') : Step expiration s l s' := by
  cases l with
  | setNX j g reply =>
    simp only [step] at hstep
    split at hstep
    · cases hstep
      exact .setNX reply ‹_›
    · cases hstep
  | call c j force =>
    simp only [step] at hstep
    split at hstep
    · cases hstep
      exact .call j force ‹_›
    · cases hstep
  | make n | enter n | unlock n | evaluate n | unlockCall n =>
    -- the goroutine or the call has come to the step
    simp only [step] at hstep
    split at hstep
    · cases hstep
      constructor
      assumption
    · cases hstep
  | timer n | lock n | lockCall n =>
    -- and the step is possible
    simp only [step] at hstep
    split at hstep
    · split at hstep
      · cases hstep
        constructor <;> assumption
      · cases hstep
    · cases hstep
  | exist g reply =>
    simp only [step] at hstep
    split at hstep
    · split at hstep
      · cases hstep
        exact .exist reply ‹_› (.inl rfl)
      · cases hstep
        exact .exist reply ‹_› (.inr rfl)
    · cases hstep
  | expire g reply =>
    simp only [step] at hstep
    split at hstep
    · cases hstep
      exact .expire reply _ ‹_›
    · cases hstep
  | delete c reply =>
    simp only [step] at hstep
    split at hstep
    · cases hstep
      refine .delete reply ‹_› ?_
      split
      · exact .inl rfl
      · exact .inr rfl
    · cases hstep
  | send c g =>
    simp only [step] at hstep
    split at hstep
    · split at hstep
      · rename_i hch
        subst hch
        cases hstep
        exact .send ‹_› ‹_›
      · cases hstep
    · cases hstep
  | tick =>
    cases hstep
    exact .tick
  | die j =>
    cases hstep
    exact .die j

/-! ## Mutexes and channels -/

/-- The goroutine receives from a channel. -/
def RoutinePc.channel : RoutinePc → Option Chan
  | .selecting ch _ => ch
  | _ => none

/-- The call sends on a channel. -/
def CallPc.channel : CallPc → Option Chan
  | .sending ch => ch
  | _ => none

/-- Whoever is inside has the mutex of its object, and channels are used for the object that they have
    been made for. -/
structure Consistent (s : State) : Prop where
  routine_mu : ∀ g r, s.routines g = some r → r.pc.locked = true → s.mu r.obj = some (.routine g)
  call_mu : ∀ c k, s.calls c = some k → k.pc.locked = true → s.mu k.obj = some (.call c)
  checkCancel_obj : ∀ j, ∀ ch ∈ s.checkCancel j, ch.obj = j ∧ ch.id < s.channels
  routine_obj : ∀ g r, s.routines g = some r → ∀ ch ∈ r.pc.channel,
    ch.obj = r.obj ∧ ch.id < s.channels
  call_obj : ∀ c k, s.calls c = some k → ∀ ch ∈ k.pc.channel, ch.obj = k.obj ∧ ch.id < s.channels

theorem consistent_start : Consistent {} := by
  constructor <;> simp

namespace Consistent

variable {s s' : State} {g c : Nat} {j : Obj} {r : Option Routine} {k : Option Call}

/-- The key and the clock do not matter. -/
theorem congr (h : Consistent s) (hchannels : s'.channels = s.channels)
    (hfield : s'.checkCancel = s.checkCancel) (hmu : s'.mu = s.mu)
    (hroutines : s'.routines = s.routines) (hcalls : s'.calls = s.calls) : Consistent s' := by
  constructor
  · simpa only [hroutines, hmu] using h.routine_mu
  · simpa only [hcalls, hmu] using h.call_mu
  · simpa only [hfield, hchannels] using h.checkCancel_obj
  · simpa only [hroutines, hchannels] using h.routine_obj
  · simpa only [hcalls, hchannels] using h.call_obj

theorem setRoutine (h : Consistent s)
    (hmu : ∀ r' ∈ r, r'.pc.locked = true → s.mu r'.obj = some (.routine g))
    (hchannel : ∀ r' ∈ r, ∀ ch ∈ r'.pc.channel, ch.obj = r'.obj ∧ ch.id < s.channels) :
    Consistent (s.setRoutine g r) where
  routine_mu g' r' hr' := by
    rcases update_eq_some hr' with ⟨rfl, hr⟩ | ⟨-, hr⟩
    · exact hmu r' hr
    · exact h.routine_mu g' r' hr
  call_mu := h.call_mu
  checkCancel_obj := h.checkCancel_obj
  routine_obj g' r' hr' := by
    rcases update_eq_some hr' with ⟨rfl, hr⟩ | ⟨-, hr⟩
    · exact hchannel r' hr
    · exact h.routine_obj g' r' hr
  call_obj := h.call_obj

theorem setCall (h : Consistent s)
    (hmu : ∀ k' ∈ k, k'.pc.locked = true → s.mu k'.obj = some (.call c))
    (hchannel : ∀ k' ∈ k, ∀ ch ∈ k'.pc.channel, ch.obj = k'.obj ∧ ch.id < s.channels) :
    Consistent (s.setCall c k) where
  routine_mu := h.routine_mu
  call_mu c' k' hk' := by
    rcases update_eq_some hk' with ⟨rfl, hk⟩ | ⟨-, hk⟩
    · exact hmu k' hk
    · exact h.call_mu c' k' hk
  checkCancel_obj := h.checkCancel_obj
  routine_obj := h.routine_obj
  call_obj c' k' hk' := by
    rcases update_eq_some hk' with ⟨rfl, hk⟩ | ⟨-, hk⟩
    · exact hchannel k' hk
    · exact h.call_obj c' k' hk

/-- A mutex changes hands while nobody is inside. -/
theorem setMu {owner : Option Owner} (h : Consistent s)
    (hroutine : ∀ g r, s.routines g = some r → r.obj = j → r.pc.locked = false)
    (hcall : ∀ c k, s.calls c = some k → k.obj = j → k.pc.locked = false) :
    Consistent (s.setMu j owner) where
  routine_mu g r hr hlocked := by
    have hne : r.obj ≠ j := fun hobj => by simp [hroutine g r hr hobj] at hlocked
    rw [State.mu_setMu, if_neg hne]
    exact h.routine_mu g r hr hlocked
  call_mu c k hk hlocked := by
    have hne : k.obj ≠ j := fun hobj => by simp [hcall c k hk hobj] at hlocked
    rw [State.mu_setMu, if_neg hne]
    exact h.call_mu c k hk hlocked
  checkCancel_obj := h.checkCancel_obj
  routine_obj := h.routine_obj
  call_obj := h.call_obj

/-- Nobody is inside while the mutex is free. -/
theorem acquire {owner : Owner} (h : Consistent s) (hfree : s.mu j = none) :
    Consistent (s.setMu j (some owner)) := by
  apply h.setMu
  · rintro g r hr rfl
    by_contra hlocked
    simp [h.routine_mu g r hr (by simpa using hlocked)] at hfree
  · rintro c k hk rfl
    by_contra hlocked
    simp [h.call_mu c k hk (by simpa using hlocked)] at hfree

/-- The goroutine that has been inside gives the mutex back. -/
theorem release_routine {pc : RoutinePc} (h : Consistent s) (hg : s.routines g = some ⟨j, pc⟩)
    (hlocked : pc.locked = true) (hr : ∀ r' ∈ r, r'.pc = .round) :
    Consistent ((s.setMu j none).setRoutine g r) := by
  have hmu := h.routine_mu g _ hg hlocked
  change Consistent ((s.setRoutine g r).setMu j none)
  have hset : Consistent (s.setRoutine g r) := by
    apply h.setRoutine
    · intro r' hr' hlocked'
      simp [hr r' hr', RoutinePc.locked] at hlocked'
    · intro r' hr'
      simp [hr r' hr', RoutinePc.channel]
  apply hset.setMu
  · rintro g' r' hr' rfl
    rcases update_eq_some hr' with ⟨rfl, hr''⟩ | ⟨hne, hr''⟩
    · simp [hr r' hr'', RoutinePc.locked]
    · by_contra hlocked'
      have hmu' := h.routine_mu g' r' hr'' (by simpa using hlocked')
      rw [hmu] at hmu'
      cases hmu'
      exact hne rfl
  · rintro c' k' hk' rfl
    by_contra hlocked'
    have hmu' := h.call_mu c' k' hk' (by simpa using hlocked')
    rw [hmu] at hmu'
    cases hmu'

/-- The call that has been inside gives it back. -/
theorem release_call {call : Call} (h : Consistent s) (hc : s.calls c = some call)
    (hlocked : call.pc.locked = true) : Consistent ((s.setMu call.obj none).setCall c none) := by
  have hmu := h.call_mu c _ hc hlocked
  change Consistent ((s.setCall c none).setMu call.obj none)
  have hset : Consistent (s.setCall c none) := by
    apply h.setCall <;> simp
  apply hset.setMu
  · rintro g' r' hr' hobj
    by_contra hlocked'
    have hmu' := h.routine_mu g' r' hr' (by simpa using hlocked')
    rw [hobj, hmu] at hmu'
    cases hmu'
  · rintro c' k' hk' hobj
    rcases update_eq_some hk' with ⟨rfl, hk''⟩ | ⟨hne, hk''⟩
    · cases hk''
    · by_contra hlocked'
      have hmu' := h.call_mu c' k' hk'' (by simpa using hlocked')
      rw [hobj, hmu] at hmu'
      cases hmu'
      exact hne rfl

theorem make (expiration : Expirations) (h : Consistent s) : Consistent (s.make expiration g j) := by
  have hmore {ch : Chan} {i : Obj} (hch : ch.obj = i ∧ ch.id < s.channels) :
      ch.obj = i ∧ ch.id < s.channels + 1 := ⟨hch.1, Nat.lt_succ_of_lt hch.2⟩
  have hnew : Consistent { s with
      channels := s.channels + 1
      checkCancel := Function.update s.checkCancel j (some ⟨j, s.channels⟩) } := by
    constructor
    case routine_mu => exact h.routine_mu
    case call_mu => exact h.call_mu
    case routine_obj => exact fun g r hr ch hch => hmore (h.routine_obj g r hr ch hch)
    case call_obj => exact fun c k hk ch hch => hmore (h.call_obj c k hk ch hch)
    case checkCancel_obj =>
      intro i ch hch
      rcases update_eq_some hch with ⟨rfl, hch⟩ | ⟨-, hch⟩
      · obtain rfl := Option.some.inj hch
        exact ⟨rfl, Nat.lt_succ_self _⟩
      · exact hmore (h.checkCancel_obj i ch hch)
  apply hnew.setRoutine
  · simp [RoutinePc.locked]
  · simp [RoutinePc.channel]

theorem setNX (expiration : Expirations) (reply : Reply) (h : Consistent s) :
    Consistent (s.setNX expiration j g reply) := by
  have hgrant : Consistent (s.grant expiration j) := h.congr rfl rfl rfl rfl rfl
  unfold State.setNX
  split
  · apply hgrant.setRoutine
    · simp [RoutinePc.locked]
    · simp [RoutinePc.channel]
  · exact hgrant
  · exact h

theorem die (h : Consistent s) : Consistent (s.die j) := by
  constructor
  case routine_mu =>
    intro g r hr hlocked
    obtain ⟨hr, hne⟩ := State.routines_die_eq_some.mp hr
    rw [State.mu_die, if_neg hne]
    exact h.routine_mu g r hr hlocked
  case call_mu =>
    intro c k hk hlocked
    obtain ⟨hk, hne⟩ := State.calls_die_eq_some.mp hk
    rw [State.mu_die, if_neg hne]
    exact h.call_mu c k hk hlocked
  case checkCancel_obj => exact h.checkCancel_obj
  case routine_obj => exact fun g r hr => h.routine_obj g r (State.routines_die_eq_some.mp hr).1
  case call_obj => exact fun c k hk => h.call_obj c k (State.calls_die_eq_some.mp hk).1

end Consistent

/-- The commands to Redis do not touch the objects. -/
theorem consistent_command {s : State} (h : Consistent s) (expiration : Expirations) (j : Obj)
    (force : Bool) (reply : Reply) : Consistent (if reply = .failed then s else s.extend expiration j) ∧
      Consistent (if reply = .failed then s else s.delete j force) := by
  constructor
  · split
    · exact h
    · exact h.congr rfl rfl rfl rfl rfl
  · split
    · exact h
    · exact h.congr rfl rfl rfl rfl rfl

theorem consistent_step {expiration : Expirations} {s s' : State} {l : Label} (h : Consistent s)
    (hstep : step expiration l s = some s') : Consistent s' := by
  cases step_cases hstep with
  | setNX reply hg => exact h.setNX expiration reply
  | make hg => exact h.make expiration
  | enter hg =>
    apply h.setRoutine
    · simp [RoutinePc.locked]
    · simpa [RoutinePc.channel] using h.checkCancel_obj _
  | timer hg hdeadline =>
    apply h.setRoutine
    · simp [RoutinePc.locked]
    · simp [RoutinePc.channel]
  | lock hg hfree =>
    apply (h.acquire hfree).setRoutine
    · simp [State.setMu]
    · simp [RoutinePc.channel]
  | exist reply hg hpc =>
    have hmu := h.routine_mu _ _ hg rfl
    apply h.setRoutine
    · simpa using fun _ => hmu
    · rcases hpc with rfl | rfl <;> simp [RoutinePc.channel]
  | expire reply isContinue hg =>
    have hmu := h.routine_mu _ _ hg rfl
    apply (consistent_command h expiration _ false reply).1.setRoutine
    · intro r' hr' _
      obtain rfl := Option.some.inj hr'
      split <;> exact hmu
    · simp [RoutinePc.channel]
  | unlock hg =>
    apply h.release_routine hg rfl
    intro r' hr'
    split at hr'
    · cases hr'
      rfl
    · cases hr'
  | call j force hc =>
    apply h.setCall
    · simp [CallPc.locked]
    · simp [CallPc.channel]
  | lockCall hc hfree =>
    apply (h.acquire hfree).setCall
    · simp [State.setMu]
    · simp [CallPc.channel]
  | delete reply hc hpc =>
    have hmu := h.call_mu _ _ hc rfl
    apply (consistent_command h expiration _ _ reply).2.setCall
    · intro k' hk' _
      obtain rfl := Option.some.inj hk'
      split <;> exact hmu
    · rcases hpc with rfl | rfl <;> simp [CallPc.channel]
  | evaluate hc =>
    have hmu := h.call_mu _ _ hc rfl
    apply h.setCall
    · simpa using fun _ => hmu
    · simpa [CallPc.channel] using h.checkCancel_obj _
  | send hc hg =>
    have hmu := h.call_mu _ _ hc rfl
    refine (h.setCall ?_ ?_).setRoutine ?_ ?_
    · simpa using fun _ => hmu
    · simp [CallPc.channel]
    · simp
    · simp
  | unlockCall hc => exact h.release_call hc rfl
  | tick => exact h.congr rfl rfl rfl rfl rfl
  | die j => exact h.die

end Gonitor.Web.Lock
