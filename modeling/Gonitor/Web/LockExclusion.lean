import Gonitor.Web.LockRenewal

/-!
# What the Distributed Lock Excludes

An object that has got the key is alone until the key is taken from it: by the time, by `ForceRelease`,
or by a `Release` of its own.  Goroutines of other objects can change when the time is, but not below
the shortest expiration that `SetNX` or `Expire` sets.

## Main Results

- `excludes`: the key is the one of a grant if and only if no step has taken it since, nobody gets it
  before, and the time takes it no earlier than the shortest expiration after the grant.
-/

namespace Gonitor.Web.Lock

open LabelledTraces

/-- No command sets a shorter time: `Expire` cuts the fraction of a second off. -/
def Least (expiration : Expirations) (least : Nat) : Prop :=
  ∀ i, least ≤ expiration i ∧ least ≤ formatSec (expiration i)

/-- An object gets the key. -/
def Gets (s : State) : Label → Prop
  | .setNX _ _ reply => s.key = none ∧ reply ≠ .failed
  | _ => False

/-- The key is taken away: it expires, or a release finds it. -/
def Takes (s : State) (lease : Lease) : Label → Prop
  | .tick => lease.deadline ≤ s.now + 1
  | .delete c reply => reply ≠ .failed ∧
      ∃ call, s.calls c = some call ∧ (call.force = true ∨ call.obj = lease.requestId)
  | _ => False

/-- It is taken away from a grant. -/
def Took (j : Obj) (grant : Nat) (s : State) (l : Label) : Prop :=
  ∃ deadline, s.key = some ⟨j, deadline, grant⟩ ∧ Takes s ⟨j, deadline, grant⟩ l

/-- The key is the one of a grant, which no renewal has made shorter than `least`. -/
structure Kept (j : Obj) (grant least since : Nat) (s : State) : Prop where
  key : ∃ deadline, s.key = some ⟨j, deadline, grant⟩ ∧ since + least ≤ deadline
  since_le : since ≤ s.now

/-- The key is no longer the one of a grant, and never will be. -/
structure Gone (grant : Nat) (s : State) : Prop where
  grant_lt : grant < s.grants
  grant_ne : ∀ lease, s.key = some lease → lease.grant ≠ grant

section Steps

variable {expiration : Expirations} {s s' : State} {l : Label} {j : Obj} {grant least since : Nat}

/-- **What a step does to a key**: it takes it away, or changes its deadline at most. -/
theorem taken_or_kept {lease : Lease} (hstep : step expiration l s = some s')
    (hkey : s.key = some lease) :
    (Takes s lease l ∧ s'.key = none) ∨ (¬ Takes s lease l ∧
      ∃ deadline, s'.key = some { lease with deadline := deadline } ∧
        (deadline = lease.deadline ∨ ∃ i, deadline = s.now + formatSec (expiration i))) := by
  have hsame (hnot : ¬ Takes s lease l) (h : s'.key = s.key) : ¬ Takes s lease l ∧
      ∃ deadline, s'.key = some { lease with deadline := deadline } ∧
        (deadline = lease.deadline ∨ ∃ i, deadline = s.now + formatSec (expiration i)) :=
    ⟨hnot, lease.deadline, h.trans hkey, .inl rfl⟩
  cases step_cases hstep with
  | setNX reply hg =>
    refine .inr (hsame id ?_)
    simp [State.setNX, hkey]
  | expire reply isContinue hg =>
    rename_i g i
    right
    by_cases hfailed : reply = .failed
    · exact hsame id (by rw [if_pos hfailed]; rfl)
    · refine ⟨id, s.now + formatSec (expiration i), ?_, .inr ⟨i, rfl⟩⟩
      rw [if_neg hfailed]
      exact congrArg (Option.map _) hkey
  | delete reply hc hpc =>
    rename_i c i force pc
    have hiff : Takes s lease (.delete c reply) ↔
        reply ≠ .failed ∧ (force = true ∨ i = lease.requestId) := by
      simp [Takes, hc]
    by_cases hfailed : reply = .failed
    · exact .inr (hsame (fun h => (hiff.mp h).1 hfailed) (by rw [if_pos hfailed]; rfl))
    · by_cases htakes : force = true ∨ i = lease.requestId
      · refine .inl ⟨hiff.mpr ⟨hfailed, htakes⟩, ?_⟩
        rw [if_neg hfailed]
        simp only [State.setCall, State.delete, hkey]
        rcases htakes with rfl | rfl <;> simp [Option.filter]
      · refine .inr (hsame (fun h => htakes (hiff.mp h).2) ?_)
        obtain ⟨hforce, hobj⟩ := not_or.mp htakes
        rw [if_neg hfailed]
        simp [State.setCall, State.delete, hkey, Option.filter, hforce, Ne.symm hobj]
  | tick =>
    by_cases hlate : lease.deadline ≤ s.now + 1
    · refine .inl ⟨hlate, ?_⟩
      simpa [State.tick, hkey, Option.filter] using hlate
    · refine .inr (hsame hlate ?_)
      simpa [State.tick, hkey, Option.filter] using hlate
  | _ => exact .inr (hsame id rfl)

/-- A grant that is kept stays so, or is gone. -/
theorem kept_step (h : Kept j grant least since s) (hgrants : grant < s.grants)
    (hleast : Least expiration least) (hstep : step expiration l s = some s') :
    (¬ Took j grant s l ∧ Kept j grant least since s') ∨ (Took j grant s l ∧ Gone grant s') := by
  obtain ⟨deadline, hkey, hdeadline⟩ := h.key
  obtain ⟨hnow, hle⟩ := le_of_step hstep
  rcases taken_or_kept hstep hkey with ⟨htakes, hnone⟩ | ⟨hnot, deadline', hkey', hfrom⟩
  · exact .inr ⟨⟨deadline, hkey, htakes⟩, lt_of_lt_of_le hgrants hle, by simp [hnone]⟩
  · refine .inl ⟨?_, ⟨deadline', hkey', ?_⟩, h.since_le.trans hnow⟩
    · rintro ⟨other, hother, htakes⟩
      obtain rfl : other = deadline := by simpa [hkey] using hother.symm
      exact hnot htakes
    · rcases hfrom with rfl | ⟨i, rfl⟩
      · exact hdeadline
      · exact Nat.add_le_add h.since_le (hleast i).2

/-- What is gone does not come back. -/
theorem gone_step (h : Gone grant s) (hstep : step expiration l s = some s') : Gone grant s' := by
  refine ⟨lt_of_lt_of_le h.grant_lt (le_of_step hstep).2, fun lease' hkey' => ?_⟩
  rcases key_of_step hstep hkey' with ⟨hkey, -⟩ | ⟨_, _, _, lease, -, -, -, hkey, -, rfl⟩ |
    ⟨_, _, _, -, -, -, -, rfl⟩
  · exact h.grant_ne lease' hkey
  · exact h.grant_ne lease hkey
  · exact Nat.ne_of_gt h.grant_lt

theorem Gone.not_took (h : Gone grant s) : ¬ Took j grant s l :=
  fun ⟨_, hkey, _⟩ => h.grant_ne _ hkey rfl

/-- The state after a grant. -/
theorem Kept.of_gets {g : Nat} {reply : Reply} (hgets : Gets s (.setNX j g reply))
    (hleast : least ≤ expiration j) (hstep : step expiration (.setNX j g reply) s = some s') :
    Kept j s.grants least s.now s' ∧ s.grants < s'.grants := by
  obtain ⟨hfree, hreply⟩ := hgets
  have hnow := (le_of_step hstep).1
  refine ⟨⟨⟨s.now + expiration j, ?_, Nat.add_le_add_left hleast _⟩, hnow⟩,
    grants_lt_of_setNX hstep hreply hfree⟩
  obtain ⟨-, heq⟩ := Option.ite_none_right_eq_some.mp hstep
  cases heq
  cases reply with
  | failed => exact absurd rfl hreply
  | answered | lost => simp [State.setNX, hfree, State.grant, State.setRoutine]

end Steps

section Runs

variable {expiration : Expirations} {s₀ s s' : State} {later : List (State × Label)} {j : Obj}
  {g grant least since : Nat} {reply : Reply}

/-- **A run after a grant**: as long as no step takes the key, it is kept in every state; afterwards it
    is gone. -/
theorem kept_or_gone (h : Kept j grant least since s) (hgrants : grant < s.grants)
    (hleast : Least expiration least) (hlater : Trace (step expiration) s later s') :
    grant < s'.grants ∧
    (((∀ x ∈ later, ¬ Took j grant x.1 x.2 ∧ Kept j grant least since x.1) ∧
      Kept j grant least since s') ∨
    (∃ x ∈ later, Took j grant x.1 x.2) ∧ Gone grant s') ∧
    ∀ x ∈ later, Took j grant x.1 x.2 → Kept j grant least since x.1 := by
  induction hlater with
  | nil => simp [h, hgrants]
  | snoc _ hstep ih =>
    obtain ⟨hgrants₁, hcases, htook⟩ := ih
    refine ⟨lt_of_lt_of_le hgrants₁ (le_of_step hstep).2, ?_⟩
    simp only [List.forall_mem_cons]
    simp only [List.mem_cons, exists_eq_or_imp]
    rcases hcases with ⟨hpast, hkept⟩ | ⟨htaken, hgone⟩
    · refine ⟨?_, fun _ => hkept, htook⟩
      rcases kept_step hkept hgrants₁ hleast hstep with ⟨hnot, hkept'⟩ | ⟨htakes, hgone⟩
      · exact .inl ⟨⟨⟨hnot, hkept⟩, hpast⟩, hkept'⟩
      · exact .inr ⟨.inl htakes, hgone⟩
    · exact ⟨.inr ⟨.inr htaken, gone_step hgone hstep⟩, fun htakes => absurd htakes hgone.not_took,
        htook⟩

/-- The key is still the one of a grant if and only if no step has taken it since. -/
theorem held_iff (hgets : Gets s₀ (.setNX j g reply))
    (hset : step expiration (.setNX j g reply) s₀ = some s)
    (hlater : Trace (step expiration) s later s') :
    (∃ deadline, s'.key = some ⟨j, deadline, s₀.grants⟩) ↔
      ∀ x ∈ later, ¬ Took j s₀.grants x.1 x.2 := by
  obtain ⟨hkept, hgrants⟩ := Kept.of_gets hgets (Nat.zero_le _) hset
  obtain ⟨-, ⟨hpast, hkept'⟩ | ⟨⟨x, hx, htook⟩, hgone⟩, -⟩ :=
    kept_or_gone hkept hgrants (fun _ => ⟨Nat.zero_le _, Nat.zero_le _⟩) hlater
  · obtain ⟨deadline, hkey, -⟩ := hkept'.key
    exact iff_of_true ⟨deadline, hkey⟩ fun x hx => (hpast x hx).1
  · refine iff_of_false ?_ fun hnone => hnone x hx htook
    rintro ⟨deadline, hkey⟩
    exact hgone.grant_ne _ hkey rfl

end Runs

/-- **The lock excludes**: once an object has got the key, in every run of all objects the key is its
    own until a step takes it away: a `ForceRelease`, a `Release` of the same object, or the time, and
    the time no earlier than the shortest expiration that a command sets.  Nobody gets the key before. -/
theorem excludes {expiration : Expirations} {s₀ s s' : State} {later : List (State × Label)}
    {j : Obj} {g least : Nat} {reply : Reply} (hleast : Least expiration least)
    (hgets : Gets s₀ (.setNX j g reply)) (hset : step expiration (.setNX j g reply) s₀ = some s)
    (hlater : Trace (step expiration) s later s') :
    ((∃ deadline, s'.key = some ⟨j, deadline, s₀.grants⟩) ↔
      ∀ x ∈ later, ¬ Took j s₀.grants x.1 x.2) ∧
    ∀ l, Gets s' l → ∃ x ∈ later, Took j s₀.grants x.1 x.2 ∧
      (x.2 = .tick → s₀.now + least ≤ x.1.now + 1) := by
  refine ⟨held_iff hgets hset hlater, fun l hagain => ?_⟩
  obtain ⟨hkept, hgrants⟩ := Kept.of_gets hgets (hleast j).1 hset
  obtain ⟨-, ⟨-, hkept'⟩ | ⟨⟨x, hx, htook⟩, -⟩, hwhen⟩ :=
    kept_or_gone hkept hgrants hleast hlater
  · -- the key is not free
    obtain ⟨deadline, hkey, -⟩ := hkept'.key
    cases l with
    | setNX => exact absurd (hagain.1.symm.trans hkey) nofun
    | _ => exact hagain.elim
  · refine ⟨x, hx, htook, fun htick => ?_⟩
    obtain ⟨deadline, hkey, hdeadline⟩ := (hwhen x hx htook).key
    obtain ⟨other, hother, htakes⟩ := htook
    obtain rfl : other = deadline := by simpa [hkey] using hother.symm
    rw [htick] at htakes
    exact hdeadline.trans htakes

/-- Two milliseconds pass, and another object gets the key. -/
theorem excludes_tick : ∃ s later s', step (fun _ => 2) (.setNX 0 0 .answered) {} = some s ∧
    Trace (step fun _ => 2) s later s' ∧ Gets s' (.setNX 1 1 .answered) ∧
    ∃ x ∈ later, Took 0 0 x.1 x.2 ∧ (x.2 = .tick → 0 + 2 ≤ x.1.now + 1) := by
  obtain ⟨s, later, s', hset, hlater, hagain⟩ : ∃ s later s',
      step (fun _ => 2) (.setNX 0 0 .answered) {} = some s ∧ Trace (step fun _ => 2) s later s' ∧
        Gets s' (.setNX 1 1 .answered) :=
    ⟨_, _, _, rfl, .snoc (.single (l := .tick) rfl) (l := .tick) rfl, rfl, nofun⟩
  have hgets : Gets {} (.setNX 0 0 .answered) := ⟨rfl, nofun⟩
  exact ⟨s, later, s', hset, hlater, hagain,
    (excludes (fun _ => ⟨le_refl 2, by decide⟩) hgets hset hlater).2 _ hagain⟩

end Gonitor.Web.Lock
