import Gonitor.Web.Lock

/-!
# Releases of the Lock

A release sends on the channel that the field `checkCancel` has when it comes to it, and holds the mutex
of the object until the goroutine has received.  If the goroutine has not made its first channel yet, or
makes another one, or its timer expires, so that it waits for the mutex, the release waits for ever.

## Main Results

- `not_stuck_iff`: when a release does not wait for ever.
- `never_stuck_iff`: no release waits for ever if and only if it comes to its send while the goroutine is
  ahead of its `select` or in it, with that channel, and the timer does not expire while it sends.
- `early_release_stuck`: a release that comes right after the key has been got.
-/

namespace Gonitor.Web.Lock

open LabelledTraces
open AtomicProgram (update_eq_some)

/-! ## Releases that wait for ever -/

/-- A release of the object is blocked in its send, and whatever happens, nobody ever receives from its
    channel. -/
def Stuck (expiration : Expirations) (s : State) (j : Obj) : Prop :=
  ∃ c force ch, s.calls c = some ⟨j, force, .sending ch⟩ ∧
    ∀ past s' g, Trace (step expiration) s past s' →
      s'.calls c = some ⟨j, force, .sending ch⟩ → step expiration (.send c g) s' = none

/-- The goroutine receives from the channel in the `select` that it is in, or is about to enter. -/
def Listens (s : State) (j : Obj) (g : Nat) (ch : Chan) : Prop :=
  (∃ deadline, s.routines g = some ⟨j, .made deadline⟩ ∧ s.checkCancel j = some ch) ∨
    ∃ deadline, s.routines g = some ⟨j, .selecting (some ch) deadline⟩

/-- Whoever sends to a goroutine of the object is listened to. -/
def Listened (s : State) (j : Obj) : Prop :=
  ∀ c force ch, s.calls c = some ⟨j, force, .sending ch⟩ →
    ∃ ch', ch = some ch' ∧ ∃ g, Listens s j g ch'

section Steps

variable {expiration : Expirations} {s s' : State} {l : Label} {j : Obj} {g c : Nat} {ch : Chan}

/-- A goroutine that listens to a channel after a step has done so before, unless the channel is new. -/
theorem listens_of_step (hstep : step expiration l s = some s') (hlt : ch.id < s.channels)
    (h : Listens s' j g ch) : Listens s j g ch := by
  cases step_cases hstep with
  | setNX reply hg =>
    unfold State.setNX at h
    split at h
    · grind [Listens]
    · exact h
    · exact h
  | expire reply isContinue hg =>
    split at h <;> grind [Listens]
  | delete reply hc hpc =>
    split at h <;> grind [Listens]
  | _ => grind [Listens]

theorem channels_le_of_step (hstep : step expiration l s = some s') : s.channels ≤ s'.channels := by
  cases step_cases hstep with
  | setNX reply hg =>
    unfold State.setNX
    split <;> exact Nat.le_refl _
  | expire reply isContinue hg => split <;> exact Nat.le_refl _
  | delete reply hc hpc => split <;> exact Nat.le_refl _
  | make hg => exact Nat.le_succ _
  | _ => exact Nat.le_refl _

/-- **A channel that nobody listens to** is never received from. -/
theorem not_listens_of_trace {past : List (State × Label)} (hlt : ch.id < s.channels)
    (hnot : ∀ g, ¬ Listens s j g ch) (htrace : Trace (step expiration) s past s') (g : Nat) :
    ¬ Listens s' j g ch := by
  have hrun := htrace.invariant
    (I := fun t => ch.id < t.channels ∧ ∀ g, ¬ Listens t j g ch)
    (fun _ _ _ h hstep => ⟨Nat.lt_of_lt_of_le h.1 (channels_le_of_step hstep),
      fun g hg => h.2 g (listens_of_step hstep h.1 hg)⟩) ⟨hlt, hnot⟩
  exact hrun.2 g

theorem step_send_eq_none {force : Bool} {ch : Option Chan} (hcons : Consistent s)
    (hc : s.calls c = some ⟨j, force, .sending ch⟩)
    (hnot : ∀ ch', ch = some ch' → ¬ Listens s j g ch') : step expiration (.send c g) s = none := by
  by_contra hsome
  obtain ⟨s', hstep⟩ := Option.ne_none_iff_exists'.mp hsome
  cases step_cases hstep with
  | send hc' hg =>
    rename_i ch' deadline
    cases hc.symm.trans hc'
    have hcall := hcons.call_obj c _ hc ch' rfl
    have hroutine := hcons.routine_obj g _ hg ch' rfl
    obtain rfl := hroutine.1.symm.trans hcall.1
    exact hnot ch' rfl (.inr ⟨deadline, hg⟩)

theorem step_send_ne_none {force : Bool} {deadline : Nat}
    (hc : s.calls c = some ⟨j, force, .sending (some ch)⟩)
    (hg : s.routines g = some ⟨j, .selecting (some ch) deadline⟩) :
    step expiration (.send c g) s ≠ none := by
  simp [step, hc, hg]

/-- **When a release waits for ever**: when no goroutine listens to its channel. -/
theorem not_stuck_iff (hcons : Consistent s) : ¬ Stuck expiration s j ↔ Listened s j := by
  constructor
  · intro hnot c force ch hc
    by_contra hnobody
    refine hnot ⟨c, force, ch, hc, fun past s' g htrace hc' => ?_⟩
    have hcons' : Consistent s' := htrace.invariant (fun _ _ _ => consistent_step) hcons
    apply step_send_eq_none hcons' hc'
    rintro ch' rfl
    have hlt := (hcons.call_obj c _ hc ch' rfl).2
    exact not_listens_of_trace hlt (fun g hg => hnobody ⟨ch', rfl, g, hg⟩) htrace g
  · rintro hlistened ⟨c, force, ch, hc, hnever⟩
    obtain ⟨ch', rfl, g, ⟨deadline, hg, hfield⟩ | ⟨deadline, hg⟩⟩ := hlistened c force ch hc
    · -- the goroutine enters its `select` first
      have hstep : step expiration (.enter g) s =
          some (s.setRoutine g (some ⟨j, .selecting (some ch') deadline⟩)) := by
        simp [step, hg, hfield]
      have hselects : (s.setRoutine g (some ⟨j, .selecting (some ch') deadline⟩)).routines g =
          some ⟨j, .selecting (some ch') deadline⟩ := by simp
      exact step_send_ne_none (by simpa using hc) hselects
        (hnever _ _ g (.single hstep) (by simpa using hc))
    · exact step_send_ne_none hc hg (hnever _ _ g .nil hc)

end Steps

/-! ## One goroutine and one call -/

/-- The object has been got, and is about to be released: it has one goroutine, which begins, and one
    call, which waits for the mutex until it comes to its turn. -/
structure Obtained (s : State) (j : Obj) (g c : Nat) (force : Bool) : Prop where
  routine : s.routines g = some ⟨j, .round⟩
  call : s.calls c = some ⟨j, force, .locking⟩
  only_routine : ∀ g' pc, s.routines g' = some ⟨j, pc⟩ → g' = g
  only_call : ∀ c' force' pc, s.calls c' = some ⟨j, force', pc⟩ → c' = c

/-- The object is neither got again nor released again. -/
def alone (j : Obj) : Label → Bool
  | .setNX i _ _ | .call _ i _ => i != j
  | _ => true

/-- What a step has to respect: the release comes to its send while the goroutine listens to the channel
    that the field has, and the timer does not expire while it sends. -/
def Timely (j : Obj) (s : State) : Label → Prop
  | .evaluate c => ∀ force, s.calls c = some ⟨j, force, .evaluating⟩ →
      ∃ ch, s.checkCancel j = some ch ∧ ∃ g, Listens s j g ch
  | .timer g => ∀ ch deadline, s.routines g = some ⟨j, .selecting ch deadline⟩ →
      ∀ c force ch', s.calls c ≠ some ⟨j, force, .sending ch'⟩
  | _ => True

/-- There are never two goroutines or two calls of the object. -/
structure Single (j : Obj) (s : State) : Prop where
  consistent : Consistent s
  routine_eq : ∀ g g' pc pc', s.routines g = some ⟨j, pc⟩ → s.routines g' = some ⟨j, pc'⟩ → g = g'
  call_eq : ∀ c c' force force' pc pc', s.calls c = some ⟨j, force, pc⟩ →
    s.calls c' = some ⟨j, force', pc'⟩ → c = c'

section Single

variable {expiration : Expirations} {s s' : State} {l : Label} {j : Obj} {g c : Nat} {ch : Chan}

theorem routine_of_step (halone : alone j l = true) (hstep : step expiration l s = some s')
    {pc : RoutinePc} (hg : s'.routines g = some ⟨j, pc⟩) : ∃ pc₀, s.routines g = some ⟨j, pc₀⟩ := by
  cases step_cases hstep with
  | setNX reply hg' =>
    have hne : _ ≠ j := bne_iff_ne.mp halone
    unfold State.setNX at hg
    split at hg <;> grind
  | _ => grind

theorem call_of_step (halone : alone j l = true) (hstep : step expiration l s = some s')
    {force : Bool} {pc : CallPc} (hc : s'.calls c = some ⟨j, force, pc⟩) :
    ∃ pc₀, s.calls c = some ⟨j, force, pc₀⟩ := by
  cases step_cases hstep with
  | setNX reply hg' =>
    unfold State.setNX at hc
    split at hc <;> exact ⟨pc, hc⟩
  | call i force' hc' =>
    have hne : i ≠ j := bne_iff_ne.mp halone
    grind
  | _ => grind

theorem single_of_step (h : Single j s) (halone : alone j l = true)
    (hstep : step expiration l s = some s') : Single j s' where
  consistent := consistent_step h.consistent hstep
  routine_eq g g' pc pc' hg hg' := by
    obtain ⟨pc₀, hold⟩ := routine_of_step halone hstep hg
    obtain ⟨pc₀', hold'⟩ := routine_of_step halone hstep hg'
    exact h.routine_eq g g' _ _ hold hold'
  call_eq c c' force force' pc pc' hc hc' := by
    obtain ⟨pc₀, hold⟩ := call_of_step halone hstep hc
    obtain ⟨pc₀', hold'⟩ := call_of_step halone hstep hc'
    exact h.call_eq c c' _ _ _ _ hold hold'

/-- A release comes to its send by evaluating the field. -/
theorem sending_of_step (hstep : step expiration l s = some s') {force : Bool} {ch : Option Chan}
    (hc : s'.calls c = some ⟨j, force, .sending ch⟩) :
    s.calls c = some ⟨j, force, .sending ch⟩ ∨
      l = .evaluate c ∧ s.calls c = some ⟨j, force, .evaluating⟩ ∧ ch = s.checkCancel j := by
  cases step_cases hstep with
  | setNX reply hg' =>
    unfold State.setNX at hc
    split at hc <;> exact .inl hc
  | _ => grind

/-- A goroutine that listens goes on to do so, until its timer expires, it receives or it dies. -/
theorem listens_after_step (h : Single j s) (hstep : step expiration l s = some s')
    (hl : Listens s j g ch) :
    Listens s' j g ch ∨ l = .timer g ∨ (∃ c, l = .send c g) ∨ l = .die j := by
  cases step_cases hstep with
  | setNX reply hg' =>
    left
    unfold State.setNX
    split <;> grind [Listens]
  | make hg' =>
    -- another goroutine of the object would have to make the channel
    have honly := h.routine_eq
    left
    grind [Listens]
  | expire reply isContinue hg' =>
    left
    split <;> grind [Listens]
  | delete reply hc hpc =>
    left
    split <;> grind [Listens]
  | timer hg' hdeadline =>
    rename_i g' i ch' deadline'
    by_cases hsame : g = g'
    · exact .inr (.inl (by rw [hsame]))
    · left
      grind [Listens]
  | send hc hg' =>
    rename_i c g' i i' force ch' deadline'
    by_cases hsame : g = g'
    · exact .inr (.inr (.inl ⟨c, by rw [hsame]⟩))
    · left
      grind [Listens]
  | die i =>
    by_cases hsame : i = j
    · exact .inr (.inr (.inr (by rw [hsame])))
    · left
      simpa [Listens, Ne.symm hsame] using hl
  | _ =>
    left
    grind [Listens]

/-- **One step** keeps that the release is listened to exactly if it is timely. -/
theorem listened_step_iff (h : Single j s) (hlistened : Listened s j)
    (halone : alone j l = true) (hstep : step expiration l s = some s') :
    Listened s' j ↔ Timely j s l := by
  constructor
  · intro hlistened'
    cases step_cases hstep with
    | evaluate hc =>
      rename_i c i force
      intro force' hc'
      obtain ⟨rfl, rfl⟩ : i = j ∧ force = force' := by grind
      obtain ⟨ch, hch, g, hg⟩ := hlistened' c force (s.checkCancel i) (by simp)
      exact ⟨ch, hch, g, by simpa [Listens] using hg⟩
    | timer hg hdeadline =>
      rename_i g i ch deadline
      intro ch' deadline' hg' c force ch'' hc
      obtain rfl : i = j := by grind
      obtain ⟨ch₀, -, g', hl⟩ := hlistened' c force ch'' (by simpa using hc)
      -- the goroutine that is listened with is the one whose timer has expired
      have honly := h.routine_eq
      grind [Listens]
    | _ => trivial
  · intro htimely c force ch hc
    rcases sending_of_step hstep hc with hold | ⟨rfl, hold, rfl⟩
    · obtain ⟨ch', rfl, g, hl⟩ := hlistened c force ch hold
      rcases listens_after_step h hstep hl with hstill | rfl | ⟨c', rfl⟩ | rfl
      · exact ⟨ch', rfl, g, hstill⟩
      · cases step_cases hstep with
        | timer hg hdeadline =>
          rcases hl with ⟨deadline, hmade, -⟩ | ⟨deadline, hselects⟩
          · cases hg.symm.trans hmade
          · exact absurd hold (htimely _ _ hselects c force (some ch'))
      · -- it has received from this release, which does not send any more
        cases step_cases hstep with
        | send hc' hg =>
          rename_i i i' force' ch'' deadline
          have hcall := h.consistent.call_obj c' _ hc' ch'' rfl
          have hroutine := h.consistent.routine_obj g _ hg ch'' rfl
          obtain rfl : i' = j := by grind [Listens]
          obtain rfl := hcall.1.symm.trans hroutine.1
          obtain rfl := h.call_eq c c' _ _ _ _ hold hc'
          simp at hc
      · cases step_cases hstep
        simp at hc
    · obtain ⟨ch, hch, g, hl⟩ := htimely force hold
      refine ⟨ch, hch, g, ?_⟩
      cases step_cases hstep
      simpa [Listens] using hl

end Single

/-- **No release waits for ever**, in a run of one goroutine and one call of an object that has been got,
    among whatever the other objects do, if and only if it comes to its send while the goroutine listens,
    and the timer does not expire before the goroutine has received. -/
theorem never_stuck_iff {expiration : Expirations} {j : Obj} {g c : Nat} {force : Bool}
    {past₀ past : List (State × Label)} {s₀ s : State} (hreach : Trace (step expiration) {} past₀ s₀)
    (hobtained : Obtained s₀ j g c force) (htrace : Trace (step expiration) s₀ past s)
    (halone : ∀ x ∈ past, alone j x.2 = true) :
    ((∀ x ∈ past, ¬ Stuck expiration x.1 j) ∧ ¬ Stuck expiration s j) ↔
      ∀ x ∈ past, Timely j x.1 x.2 := by
  have hcons : Consistent s₀ := hreach.invariant (fun _ _ _ => consistent_step) consistent_start
  have hsingle : Single j s₀ := by
    refine ⟨hcons, fun g₁ g₂ _ _ h₁ h₂ => ?_, fun c₁ c₂ _ _ _ _ h₁ h₂ => ?_⟩
    · rw [hobtained.only_routine g₁ _ h₁, hobtained.only_routine g₂ _ h₂]
    · rw [hobtained.only_call c₁ _ _ h₁, hobtained.only_call c₂ _ _ h₂]
  have hlistened : Listened s₀ j := by
    intro c' force' ch hc'
    obtain rfl := hobtained.only_call c' _ _ hc'
    cases hobtained.call.symm.trans hc'
  obtain ⟨hall, hlast⟩ := htrace.always (P := Consistent) (G := fun _ _ => True)
    (fun _ _ _ h _ hstep => consistent_step h hstep) hcons (by simp)
  have hiff : ((∀ x ∈ past, Listened x.1 j) ∧ Listened s j) ↔ ∀ x ∈ past, Timely j x.1 x.2 := by
    refine (htrace.restricted halone).always_iff_of_invariant (I := Single j)
      (P := fun t => Listened t j) ?_ ?_ hsingle hlistened
    · intro t l t' h _ hstep
      obtain ⟨hl, hstep⟩ := restrict_eq_some.mp hstep
      exact single_of_step h hl hstep
    · intro t l t' h hlis hstep
      obtain ⟨hl, hstep⟩ := restrict_eq_some.mp hstep
      exact listened_step_iff h hlis hl hstep
  rw [← hiff, not_stuck_iff hlast]
  have hpast : (∀ x ∈ past, ¬ Stuck expiration x.1 j) ↔ ∀ x ∈ past, Listened x.1 j :=
    forall₂_congr fun x hx => not_stuck_iff (hall x hx)
  rw [hpast]

/-! ## Two releases -/

/-- The object 0 has got the key, and is released. -/
def gotByZero : State :=
  (State.setNX (fun _ => 1) {} 0 0 .answered).setCall 0 (some ⟨0, false, .locking⟩)

theorem trace_gotByZero : ∃ past, Trace (step fun _ => 1) {} past gotByZero :=
  ⟨_, .snoc (.single (l := .setNX 0 0 .answered) rfl) (l := .call 0 0 false) rfl⟩

theorem obtained_gotByZero : Obtained gotByZero 0 0 0 false := by
  constructor
  case routine => rfl
  case call => rfl
  case only_routine =>
    intro g' pc hg'
    rcases update_eq_some hg' with ⟨rfl, -⟩ | ⟨-, hold⟩
    · rfl
    · cases hold
  case only_call =>
    intro c' force' pc hc'
    rcases update_eq_some hc' with ⟨rfl, -⟩ | ⟨-, hold⟩
    · rfl
    · cases hold

/-- A release that comes while the goroutine is in its `select` goes through. -/
theorem never_stuck_iff_selecting : ∃ past s, Trace (step fun _ => 1) gotByZero past s ∧
    s.routines 0 = none ∧ ¬ Stuck (fun _ => 1) s 0 := by
  obtain ⟨past₀, hreach⟩ := trace_gotByZero
  have hrun : ∃ past s, Trace (step fun _ => 1) gotByZero past s ∧ s.routines 0 = none ∧
      (∀ x ∈ past, alone 0 x.2 = true) ∧ ∀ x ∈ past, Timely 0 x.1 x.2 := by
    refine ⟨_, _, .snoc (.snoc (.snoc (.snoc (.snoc (.single (l := .make 0) rfl) (l := .enter 0) rfl)
      (l := .lockCall 0) rfl) (l := .delete 0 .answered) rfl) (l := .evaluate 0) rfl)
      (l := .send 0 0) rfl, rfl, by simp [alone], ?_⟩
    simp only [List.forall_mem_cons]
    refine ⟨trivial, fun _ _ => ?_, trivial, trivial, trivial, trivial, by simp⟩
    exact ⟨⟨0, 0⟩, rfl, 0, .inr ⟨1, rfl⟩⟩
  obtain ⟨past, s, htrace, hended, halone, htimely⟩ := hrun
  exact ⟨past, s, htrace, hended,
    ((never_stuck_iff hreach obtained_gotByZero htrace halone).mpr htimely).2⟩

/-- A release that comes right after the key has been got waits for ever, on the channel `nil`. -/
theorem early_release_stuck : ∃ past₀ past s, Trace (step fun _ => 1) {} past₀ gotByZero ∧
    Obtained gotByZero 0 0 0 false ∧ Trace (step fun _ => 1) gotByZero past s ∧
      (∀ x ∈ past, alone 0 x.2 = true) ∧ Stuck (fun _ => 1) s 0 := by
  obtain ⟨past₀, hreach⟩ := trace_gotByZero
  refine ⟨past₀, _, _, hreach, obtained_gotByZero,
    .snoc (.snoc (.single (l := .lockCall 0) rfl) (l := .delete 0 .answered) rfl)
      (l := .evaluate 0) rfl, by simp [alone], ?_⟩
  refine ⟨0, false, none, rfl, fun past s' g _ hc => ?_⟩
  simp [step, hc]

end Gonitor.Web.Lock
