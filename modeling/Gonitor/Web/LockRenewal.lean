import Gonitor.Web.Lock

/-!
# Renewals of the Lock

A renewal looks whether the key is there, and extends it, but it does not look whose it is.  So it is up
to the goroutines: while an object has the key, none of another object may come to a renewal.

## Main Results

- `renews_own_key`: if no object gets the key while a goroutine of another one may still renew it, every
  renewal is of the object's own key, and a key without a goroutine expires in time.
- `stale_goroutine_renews`: a goroutine that is late renews the key of another object.
-/

namespace Gonitor.Web.Lock

open LabelledTraces
open AtomicProgram (update_eq_some)

/-! ## Who may still renew -/

/-- A goroutine of the object runs, and is not about to return from a renewal that has failed. -/
def Runs (s : State) (i : Obj) (g : Nat) : Prop :=
  ∃ pc, s.routines g = some ⟨i, pc⟩ ∧ pc ≠ .unlocking false

/-- The call has deleted the key, and is about to send. -/
def CallPc.pending : CallPc → Bool
  | .evaluating | .sending _ => true
  | _ => false

/-- A release of the object is about to send. -/
def Cancels (s : State) (i : Obj) : Prop :=
  ∃ c force pc, s.calls c = some ⟨i, force, pc⟩ ∧ pc.pending = true

/-- No goroutine of the object comes to a renewal any more: none runs, or only one, which a release of
    the object is about to cancel. -/
def Settled (s : State) (i : Obj) : Prop :=
  (∀ g, ¬ Runs s i g) ∨ (Cancels s i ∧ ∀ g g', Runs s i g → Runs s i g' → g = g')

/-- What a step has to respect: an object gets the key only when no goroutine of another object comes to
    a renewal any more. -/
def Exclusive (s : State) : Label → Prop
  | .setNX j _ reply => s.key = none → reply ≠ .failed → ∀ i, i ≠ j → Settled s i
  | _ => True

/-- A renewal extends the expiration of the key only if the object has it. -/
def RenewsOwn (s : State) : Label → Prop
  | .expire g reply => reply ≠ .failed → ∀ r lease, s.routines g = some r → s.key = some lease →
      lease.requestId = r.obj
  | _ => True

/-- Whoever has the key is the only one who may renew it, and it expires in time. -/
structure Held (expiration : Expirations) (s : State) (lease : Lease) : Prop where
  settled : ∀ i, i ≠ lease.requestId → Settled s i
  lt_deadline : s.now < lease.deadline
  deadline_le : lease.deadline ≤ s.now + max (expiration lease.requestId : Nat) 1000
  grant_lt : lease.grant < s.grants

section Steps

variable {expiration : Expirations} {s s' : State} {l : Label} {i j : Obj} {g c : Nat}

/-! ## Steps of the goroutines and of the calls -/

/-- A step starts a goroutine only for an object that gets the key. -/
theorem runs_of_step (hstep : step expiration l s = some s') (h : Runs s' i g) :
    Runs s i g ∨ s.key = none ∧ l = .setNX i g .answered := by
  obtain ⟨pc, hpc, hgoes⟩ := h
  cases step_cases hstep with
  | setNX reply hg =>
    unfold State.setNX at hpc
    split at hpc
    · rename_i hkey
      rcases update_eq_some hpc with ⟨rfl, hnew⟩ | ⟨-, hold⟩
      · cases hnew
        exact .inr ⟨hkey, rfl⟩
      · exact .inl ⟨pc, hold, hgoes⟩
    · exact .inl ⟨pc, hpc, hgoes⟩
    · exact .inl ⟨pc, hpc, hgoes⟩
  | _ =>
    -- all the others keep a goroutine with its object, or end it
    left
    grind [Runs]

/-- A release that is about to send is so after the step, or has sent, or its process has died. -/
theorem cancels_of_step (hstep : step expiration l s = some s') (h : Cancels s i) :
    Cancels s' i ∨ (∃ c g force ch deadline j, l = .send c g ∧
      s.calls c = some ⟨i, force, .sending (some ch)⟩ ∧
      s.routines g = some ⟨j, .selecting (some ch) deadline⟩) ∨ l = .die i := by
  obtain ⟨c, force, pc, hc, hpending⟩ := h
  cases step_cases hstep with
  | setNX reply hg =>
    refine .inl ⟨c, force, pc, ?_, hpending⟩
    unfold State.setNX
    split <;> simpa using hc
  | evaluate hc' =>
    rename_i c' j force'
    left
    by_cases hsame : c = c'
    · subst hsame
      obtain ⟨rfl, rfl, rfl⟩ : i = j ∧ force = force' ∧ pc = .evaluating := by grind
      exact ⟨c, force, _, by simp; rfl, rfl⟩
    · exact ⟨c, force, pc, by simpa [hsame] using hc, hpending⟩
  | send hc' hg =>
    rename_i c' g j j' force' ch deadline
    by_cases hsame : c = c'
    · subst hsame
      obtain ⟨rfl, rfl, rfl⟩ : i = j ∧ force = force' ∧ pc = .sending (some ch) := by grind
      exact .inr (.inl ⟨c, g, force, ch, deadline, j', rfl, hc, hg⟩)
    · exact .inl ⟨c, force, pc, by simpa [hsame] using hc, hpending⟩
  | die j =>
    by_cases hsame : i = j
    · exact .inr (.inr (by rw [hsame]))
    · exact .inl ⟨c, force, pc, by simpa [hsame] using hc, hpending⟩
  | _ =>
    -- the others keep the call, as it is about to send and they are at another point
    refine .inl ⟨c, force, pc, ?_, hpending⟩
    grind [CallPc.pending]

/-- **An object stays settled** until it gets the key. -/
theorem settled_of_step (hcons : Consistent s) (hstep : step expiration l s = some s')
    (hne : s.key = none → ∀ g, l ≠ .setNX i g .answered) (h : Settled s i) : Settled s' i := by
  have hruns {g : Nat} (hg : Runs s' i g) : Runs s i g := by
    rcases runs_of_step hstep hg with hold | ⟨hkey, hl⟩
    · exact hold
    · exact absurd hl (hne hkey g)
  rcases h with hnone | ⟨hcancels, hone⟩
  · exact .inl fun g hg => hnone g (hruns hg)
  · rcases cancels_of_step hstep hcancels with hstill | ⟨c, g, force, ch, deadline, j, rfl, hc, hg⟩ | rfl
    · exact .inr ⟨hstill, fun g g' hg hg' => hone g g' (hruns hg) (hruns hg')⟩
    · -- the goroutine that has received is the only one of the object, and has ended
      left
      intro g' hg'
      have hobj : j = i := by
        have hcall := hcons.call_obj c _ hc ch rfl
        have hroutine := hcons.routine_obj g _ hg ch rfl
        exact hroutine.1.symm.trans hcall.1
      subst hobj
      obtain rfl := hone g g' ⟨_, hg, nofun⟩ (hruns hg')
      obtain ⟨pc, hpc, -⟩ := hg'
      cases step_cases hstep
      simp at hpc
    · left
      rintro g ⟨pc, hpc, -⟩
      cases step_cases hstep
      simp at hpc

/-! ## Steps of the key -/

/-- The key after a step: as it was, extended, or newly set. -/
theorem key_of_step (hstep : step expiration l s = some s') {lease' : Lease}
    (hkey : s'.key = some lease') :
    (s.key = some lease' ∧ (s'.now = s.now ∨ s'.now < lease'.deadline)) ∨
    (∃ g reply j lease, l = .expire g reply ∧ reply ≠ .failed ∧
      s.routines g = some ⟨j, .extending⟩ ∧ s.key = some lease ∧ s'.now = s.now ∧
      lease' = { lease with deadline := s.now + formatSec (expiration j) }) ∨
    (∃ j g reply, l = .setNX j g reply ∧ reply ≠ .failed ∧ s.key = none ∧ s'.now = s.now ∧
      lease' = ⟨j, s.now + expiration j, s.grants⟩) := by
  cases step_cases hstep with
  | setNX reply hg =>
    cases hold : s.key with
    | some lease =>
      have hsame : ∀ j g, s.setNX expiration j g reply = s := by simp [State.setNX, hold]
      rw [hsame] at hkey
      exact .inl ⟨hold.symm.trans hkey, .inl (by rw [hsame])⟩
    | none =>
      cases reply with
      | failed =>
        simp only [State.setNX, hold] at hkey
        cases hkey
      | answered | lost =>
        simp only [State.setNX, hold] at hkey ⊢
        cases hkey
        exact .inr (.inr ⟨_, _, _, rfl, nofun, trivial, rfl, rfl⟩)
  | expire reply isContinue hg =>
    by_cases hfailed : reply = .failed
    · rw [if_pos hfailed] at hkey ⊢
      exact .inl ⟨hkey, .inl rfl⟩
    · rw [if_neg hfailed] at hkey ⊢
      obtain ⟨lease, hlease, rfl⟩ := Option.map_eq_some_iff.mp hkey
      exact .inr (.inl ⟨_, _, _, lease, rfl, hfailed, hg, hlease, rfl, rfl⟩)
  | delete reply hc hpc =>
    by_cases hfailed : reply = .failed
    · rw [if_pos hfailed] at hkey ⊢
      exact .inl ⟨hkey, .inl rfl⟩
    · rw [if_neg hfailed] at hkey ⊢
      exact .inl ⟨(Option.filter_eq_some_iff.mp hkey).1, .inl rfl⟩
  | tick =>
    obtain ⟨hold, hlt⟩ := Option.filter_eq_some_iff.mp hkey
    exact .inl ⟨hold, .inr (of_decide_eq_true hlt)⟩
  | _ => exact .inl ⟨hkey, .inl rfl⟩

/-- Time does not go back, and no number of a grant is used twice. -/
theorem le_of_step (hstep : step expiration l s = some s') :
    s.now ≤ s'.now ∧ s.grants ≤ s'.grants := by
  cases step_cases hstep with
  | setNX reply hg =>
    unfold State.setNX
    split
    · exact ⟨Nat.le_refl _, Nat.le_succ _⟩
    · exact ⟨Nat.le_refl _, Nat.le_succ _⟩
    · exact ⟨Nat.le_refl _, Nat.le_refl _⟩
  | expire reply | delete reply =>
    split <;> exact ⟨Nat.le_refl _, Nat.le_refl _⟩
  | tick => exact ⟨Nat.le_succ _, Nat.le_refl _⟩
  | _ => exact ⟨Nat.le_refl _, Nat.le_refl _⟩

theorem grants_lt_of_setNX {reply : Reply} (hstep : step expiration (.setNX j g reply) s = some s')
    (hreply : reply ≠ .failed) (hkey : s.key = none) : s.grants < s'.grants := by
  cases step_cases hstep with
  | setNX reply hg =>
    cases reply with
    | failed => exact absurd rfl hreply
    | answered | lost =>
      simp only [State.setNX, hkey]
      exact Nat.lt_succ_self _

/-! ## What every step keeps -/

/-- Nobody else is at the end of a renewal while an object has the key. -/
theorem renewsOwn_of_held (hcons : Consistent s)
    (hheld : ∀ lease, s.key = some lease → Held expiration s lease)
    (hstep : step expiration l s = some s') : RenewsOwn s l := by
  cases step_cases hstep with
  | expire reply isContinue hg =>
    rename_i g j
    intro _ r lease hr hkey
    obtain rfl := Option.some.inj (hg.symm.trans hr)
    by_contra hne
    -- the goroutine has the mutex, and so has the release that is about to cancel it
    have hmu := hcons.routine_mu g _ hg rfl
    rcases (hheld lease hkey).settled j (Ne.symm hne) with hnone | ⟨⟨c, force, pc, hc, hpending⟩, -⟩
    · exact hnone g ⟨_, hg, nofun⟩
    · have hlocked : pc.locked = true := by
        cases pc <;> first | rfl | cases hpending
      have hmu' := hcons.call_mu c _ hc hlocked
      rw [hmu] at hmu'
      cases hmu'
  | _ => trivial

/-- **A step keeps** that the object with the key is the only one that may renew it. -/
theorem held_of_step (hcons : Consistent s)
    (hheld : ∀ lease, s.key = some lease → Held expiration s lease)
    (hexclusive : Exclusive s l) (hstep : step expiration l s = some s') {lease' : Lease}
    (hkey' : s'.key = some lease') : Held expiration s' lease' := by
  have hrenews := renewsOwn_of_held hcons hheld hstep
  obtain ⟨hnow, hgrants⟩ := le_of_step hstep
  rcases key_of_step hstep hkey' with ⟨hkey, hclock⟩ |
    ⟨g, reply, j, lease, rfl, hreply, hg, hkey, hclock, rfl⟩ |
    ⟨j, g, reply, rfl, hreply, hkey, hclock, rfl⟩
  · have hold := hheld lease' hkey
    constructor
    case settled =>
      intro i hi
      exact settled_of_step hcons hstep (fun hnone => by simp [hnone] at hkey) (hold.settled i hi)
    case lt_deadline =>
      rcases hclock with hsame | hlt
      · rw [hsame]
        exact hold.lt_deadline
      · exact hlt
    case deadline_le => exact hold.deadline_le.trans (Nat.add_le_add_right hnow _)
    case grant_lt => exact lt_of_lt_of_le hold.grant_lt hgrants
  · have hold := hheld lease hkey
    have hown := hrenews hreply _ lease hg hkey
    constructor
    case settled =>
      intro i hi
      exact settled_of_step hcons hstep (fun hnone => by simp [hnone] at hkey) (hold.settled i hi)
    case lt_deadline =>
      rw [hclock]
      exact Nat.lt_add_of_pos_right (formatSec_pos _)
    case deadline_le =>
      rw [hclock, hown]
      exact Nat.add_le_add_left (formatSec_le _) _
    case grant_lt => exact lt_of_lt_of_le hold.grant_lt hgrants
  · constructor
    case settled =>
      intro i hi
      refine settled_of_step hcons hstep (fun _ g' hl => ?_) (hexclusive hkey hreply i hi)
      cases hl
      exact hi rfl
    case lt_deadline =>
      rw [hclock]
      exact Nat.lt_add_of_pos_right (expiration j).pos
    case deadline_le =>
      rw [hclock]
      exact Nat.add_le_add_left (le_max_left _ _) _
    case grant_lt => exact grants_lt_of_setNX hstep hreply hkey

end Steps

/-! ## Runs -/

section Runs

variable {expiration : Expirations} {s s' : State} {past past' : List (State × Label)}

/-- What holds in every state of a run whose steps are all exclusive. -/
structure Safe (expiration : Expirations) (s : State) : Prop where
  consistent : Consistent s
  held : ∀ lease, s.key = some lease → Held expiration s lease

theorem safe_start : Safe expiration {} := ⟨consistent_start, nofun⟩

theorem safe_of_step {l : Label} (h : Safe expiration s) (hexclusive : Exclusive s l)
    (hstep : step expiration l s = some s') : Safe expiration s' where
  consistent := consistent_step h.consistent hstep
  held _ := held_of_step h.consistent h.held hexclusive hstep

/-- The key that has been set by a `SetNX` is as it was, or gone. -/
structure Unrenewed (lease : Lease) (s : State) : Prop where
  grant_lt : lease.grant < s.grants
  eq : ∀ lease', s.key = some lease' → lease'.grant = lease.grant →
    lease' = lease ∧ ∀ g, ¬ Runs s lease.requestId g

/-- **Without a goroutine** the key is not renewed. -/
theorem unrenewed_of_step {l : Label} {lease : Lease} (hsafe : Safe expiration s)
    (h : Unrenewed lease s) (hstep : step expiration l s = some s') : Unrenewed lease s' := by
  refine ⟨lt_of_lt_of_le h.grant_lt (le_of_step hstep).2, fun lease' hkey' hgrant => ?_⟩
  rcases key_of_step hstep hkey' with ⟨hkey, -⟩ | ⟨g, reply, j, old, rfl, hreply, hg, hkey, -, rfl⟩ |
    ⟨j, g, reply, rfl, hreply, hkey, -, rfl⟩
  · obtain ⟨rfl, hnone⟩ := h.eq lease' hkey hgrant
    refine ⟨rfl, fun g hg => ?_⟩
    rcases runs_of_step hstep hg with hold | ⟨hfree, -⟩
    · exact hnone g hold
    · simp [hfree] at hkey
  · -- the goroutine that renews would be one of the holder
    obtain ⟨rfl, hnone⟩ := h.eq old hkey hgrant
    have hown := renewsOwn_of_held hsafe.consistent hsafe.held hstep hreply _ old hg hkey
    exact absurd ⟨_, hg, nofun⟩ (hown ▸ hnone g)
  · have hlt := h.grant_lt
    rw [← hgrant] at hlt
    exact absurd hlt (Nat.lt_irrefl _)

end Runs

/-- **Every renewal is of the own key**, in every run in which an object gets the key only when no
    goroutine of another object comes to a renewal any more; and a key whose holder has no goroutine is
    gone after one period, or after a second if the period is shorter. -/
theorem renews_own_key {expiration : Expirations} {past : List (State × Label)} {s : State}
    (htrace : Trace (step expiration) {} past s) (hexclusive : ∀ x ∈ past, Exclusive x.1 x.2) :
    (∀ x ∈ past, RenewsOwn x.1 x.2) ∧
      ∀ past' s', Trace (step expiration) s past' s' → (∀ x ∈ past', Exclusive x.1 x.2) →
        ∀ lease, s.key = some lease → (∀ g, ¬ Runs s lease.requestId g) →
          s.now + max (expiration lease.requestId : Nat) 1000 ≤ s'.now →
            ∀ lease', s'.key = some lease' → lease'.grant ≠ lease.grant := by
  obtain ⟨hsafe, hs⟩ := htrace.always (P := Safe expiration) (G := Exclusive)
    (fun _ _ _ h hexcl hstep => safe_of_step h hexcl hstep) safe_start hexclusive
  constructor
  · intro x hx
    obtain ⟨s₁, hstep⟩ := htrace.taken x hx
    exact renewsOwn_of_held (hsafe x hx).consistent (hsafe x hx).held hstep
  · intro past' s' htrace' hexclusive' lease hkey hnone hlate lease' hkey' hgrant
    have hheld := hs.held lease hkey
    have hstart : Unrenewed lease s := by
      refine ⟨hheld.grant_lt, fun other hother _ => ?_⟩
      obtain rfl := Option.some.inj (hkey.symm.trans hother)
      exact ⟨rfl, hnone⟩
    obtain ⟨-, hs', hunrenewed⟩ := htrace'.always
      (P := fun t => Safe expiration t ∧ Unrenewed lease t) (G := Exclusive)
      (fun _ _ _ h hexcl hstep => ⟨safe_of_step h.1 hexcl hstep, unrenewed_of_step h.1 h.2 hstep⟩)
      ⟨hs, hstart⟩ hexclusive'
    obtain ⟨rfl, -⟩ := hunrenewed.eq lease' hkey' hgrant
    have hlt := (hs'.held lease' hkey').lt_deadline
    have hle := hheld.deadline_le
    omega

/-- Milliseconds pass one by one. -/
theorem trace_wait (expiration : Expirations) (s : State) (n : Nat) :
    ∃ past, Trace (step expiration) s past (s.wait n) ∧ ∀ x ∈ past, x.2 = .tick := by
  induction n with
  | zero =>
    have hsame : s.wait 0 = s := by
      rcases s with ⟨now, key⟩
      cases key <;> rfl
    exact ⟨[], by rw [hsame]; exact .nil, by simp⟩
  | succ n ih =>
    obtain ⟨past, htrace, hticks⟩ := ih
    have htick : (s.wait n).tick = s.wait (n + 1) := by
      cases hkey : s.key with
      | none => simp [State.wait, State.tick, hkey, Nat.add_assoc]
      | some lease =>
        simp only [State.wait, State.tick, hkey, Nat.add_assoc, Option.filter_some]
        grind
    have hstep : step expiration .tick (s.wait n) = some (s.wait (n + 1)) := congrArg some htick
    exact ⟨_, .snoc htrace hstep, List.forall_mem_cons.mpr ⟨rfl, hticks⟩⟩

/-- An object gets the key for a second, renews it after nine tenths of that, and dies: the key is gone
    a second later. -/
theorem renews_own_key_dead : ∃ past s past' s', Trace (step fun _ => 1000) {} past s ∧
    (∃ x ∈ past, x.2 = .expire 0 .answered ∧ RenewsOwn x.1 x.2) ∧
    Trace (step fun _ => 1000) s past' s' ∧
      ∀ lease', s'.key = some lease' → lease'.grant ≠ 0 := by
  have htrace : ∃ past s, Trace (step fun _ => 1000) {} past s ∧ (∀ x ∈ past, Exclusive x.1 x.2) ∧
      (∃ x ∈ past, x.2 = .expire 0 .answered) ∧
      s.key = some ⟨0, 1900, 0⟩ ∧ s.now = 900 ∧ ∀ g, s.routines g = none := by
    obtain ⟨past₁, s₁, htake₁, hexclusive₁, hs₁⟩ : ∃ past₁ s₁,
        take (step fun _ => 1000) [.setNX 0 0 .answered, .make 0, .enter 0] [] {} = some (past₁, s₁) ∧
        (∀ x ∈ past₁, Exclusive x.1 x.2) ∧ s₁ = _ := by
      refine ⟨_, _, rfl, ?_, rfl⟩
      simp [Exclusive, Settled, Runs]
    obtain ⟨past₂, hwait, hticks⟩ := trace_wait (fun _ => 1000) s₁ 900
    obtain ⟨past₃, s₃, htake₃, hexclusive₃, hexpire, hkey, hnow, hroutines⟩ : ∃ past₃ s₃,
        take (step fun _ => 1000) [.timer 0, .lock 0, .exist 0 .answered, .expire 0 .answered,
          .unlock 0, .die 0] [] (s₁.wait 900) = some (past₃, s₃) ∧ (∀ x ∈ past₃, Exclusive x.1 x.2) ∧
        (∃ x ∈ past₃, x.2 = .expire 0 .answered) ∧ s₃.key = some ⟨0, 1900, 0⟩ ∧ s₃.now = 900 ∧
        ∀ g, s₃.routines g = none := by
      subst hs₁
      refine ⟨_, _, rfl, ?_, ?_, rfl, rfl, ?_⟩
      · simp [Exclusive]
      · simp
      · rintro (_ | g) <;> rfl
    refine ⟨_, s₃, ((Trace.nil.of_take htake₁).append hwait).append (Trace.nil.of_take htake₃), ?_, ?_,
      hkey, hnow, hroutines⟩
    · have hexclusive₂ : ∀ x ∈ past₂, Exclusive x.1 x.2 := by
        intro x hx
        simp [Exclusive, hticks x hx]
      simpa only [List.forall_mem_append] using ⟨hexclusive₃, hexclusive₂, hexclusive₁⟩
    · obtain ⟨x, hx, hlabel⟩ := hexpire
      exact ⟨x, List.mem_append_left _ hx, hlabel⟩
  obtain ⟨past, s, htrace, hexclusive, ⟨x, hx, hlabel⟩, hkey, hnow, hnone⟩ := htrace
  obtain ⟨past', htrace', hticks⟩ := trace_wait (fun _ => 1000) s 1000
  have hexclusive' : ∀ x ∈ past', Exclusive x.1 x.2 := by
    intro x hx
    simp [Exclusive, hticks x hx]
  obtain ⟨hown, hgone⟩ := renews_own_key htrace hexclusive
  refine ⟨past, s, past', _, htrace, ⟨x, hx, hlabel, hown x hx⟩, htrace', ?_⟩
  refine hgone _ _ htrace' hexclusive' _ hkey ?_ ?_
  · simp [Runs, hnone]
  · simp [State.wait, hnow]

/-- The timer of a goroutine is late, the key expires, another object gets it, and is renewed for. -/
theorem stale_goroutine_renews : ∃ past s, Trace (step fun _ => 1) {} past s ∧
    ¬ ∀ x ∈ past, RenewsOwn x.1 x.2 := by
  refine ⟨_, _, .snoc (.snoc (.snoc (.snoc (.snoc (.snoc (.snoc (.snoc
    (.single (l := .setNX 0 0 .answered) rfl) (l := .make 0) rfl) (l := .enter 0) rfl)
    (l := .tick) rfl) (l := .setNX 1 1 .answered) rfl) (l := .timer 0) rfl) (l := .lock 0) rfl)
    (l := .exist 0 .answered) rfl) (l := .expire 0 .answered) rfl, fun h => ?_⟩
  have hown := h _ List.mem_cons_self (by decide) _ _ rfl rfl
  cases hown

end Gonitor.Web.Lock
