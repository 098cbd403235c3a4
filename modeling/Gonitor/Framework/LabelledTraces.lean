import Mathlib.Tactic.Basic

/-!
# Traces of Labelled Steps

A system that takes labelled steps, deterministic once the label is known, and the list of what it
has done: each step with the state before it.

- `Trace.invariant`: what every step keeps holds at the end.
- `Trace.always_iff_of_invariant`, `Trace.always_iff`: a property holds in all states of a trace if
  and only if every step is good, where one step keeps it exactly if it is good.
- `Trace.ledger`: what the steps take in is what they give out and what is held.
- `Simulates.trace`: where every step is a trace of another system, so is every trace.
-/

namespace LabelledTraces

variable {σ ℓ : Type} (step : ℓ → σ → Option σ)

/-- The steps taken from `s` on, the last one first. -/
inductive Trace (s : σ) : List (σ × ℓ) → σ → Prop
  | nil : Trace s [] s
  | snoc {past : List (σ × ℓ)} {s₁ s₂ : σ} {l : ℓ} :
      Trace s past s₁ → step l s₁ = some s₂ → Trace s ((s₁, l) :: past) s₂

variable {step} {s s' s'' : σ} {past past' : List (σ × ℓ)} {l : ℓ}

theorem Trace.single (h : step l s = some s') : Trace step s [(s, l)] s' := .snoc .nil h

theorem Trace.append (h : Trace step s past s') (h' : Trace step s' past' s'') :
    Trace step s (past' ++ past) s'' := by
  induction h' with
  | nil => exact h
  | snoc _ hstep ih => exact .snoc ih hstep

/-- Take the given steps in order, after those of `past`. -/
def take (step : ℓ → σ → Option σ) : List ℓ → List (σ × ℓ) → σ → Option (List (σ × ℓ) × σ)
  | [], past, s => some (past, s)
  | l :: ls, past, s => (step l s).bind fun s' => take step ls ((s, l) :: past) s'

/-- What has been taken is a trace. -/
theorem Trace.of_take {ls : List ℓ} (h : Trace step s past s')
    (htake : take step ls past s' = some (past', s'')) : Trace step s past' s'' := by
  induction ls generalizing past s' with
  | nil =>
    cases htake
    exact h
  | cons l ls ih =>
    obtain ⟨s₁, hstep, hrest⟩ := Option.bind_eq_some_iff.mp htake
    exact ih (.snoc h hstep) hrest

/-- The steps of a trace have been taken. -/
theorem Trace.taken (h : Trace step s past s') : ∀ x ∈ past, ∃ s'', step x.2 x.1 = some s'' := by
  induction h with
  | nil => simp
  | snoc _ hstep ih =>
    rw [List.forall_mem_cons]
    exact ⟨⟨_, hstep⟩, ih⟩

/-- The steps whose labels are allowed. -/
def restrict (allowed : ℓ → Bool) (step : ℓ → σ → Option σ) (l : ℓ) (s : σ) : Option σ :=
  if allowed l then step l s else none

theorem restrict_eq_some {allowed : ℓ → Bool} :
    restrict allowed step l s = some s' ↔ allowed l = true ∧ step l s = some s' := by
  simp [restrict]

/-- A trace whose labels are all allowed. -/
theorem Trace.restricted {allowed : ℓ → Bool} (h : Trace step s past s')
    (hallowed : ∀ x ∈ past, allowed x.2 = true) : Trace (restrict allowed step) s past s' := by
  induction h with
  | nil => exact .nil
  | snoc _ hstep ih =>
    rw [List.forall_mem_cons] at hallowed
    exact .snoc (ih hallowed.2) (restrict_eq_some.mpr ⟨hallowed.1, hstep⟩)

/-- What every step keeps holds at the end. -/
theorem Trace.invariant {I : σ → Prop} (hI : ∀ s l s', I s → step l s = some s' → I s')
    (h : Trace step s past s') (hs : I s) : I s' := by
  induction h with
  | nil => exact hs
  | snoc _ hstep ih => exact hI _ _ _ ih hstep

/-- **All states of a trace** have a property if and only if all its steps are good, where a step
    from a state with the property leads to one with it exactly if it is good.  The states may satisfy
    an invariant, as long as they have the property. -/
theorem Trace.always_iff_of_invariant {I P : σ → Prop} {Good : σ → ℓ → Prop}
    (hI : ∀ s l s', I s → P s → step l s = some s' → I s')
    (hstep : ∀ s l s', I s → P s → step l s = some s' → (P s' ↔ Good s l))
    (h : Trace step s past s') (hIs : I s) (hs : P s) :
    ((∀ x ∈ past, P x.1) ∧ P s') ↔ ∀ x ∈ past, Good x.1 x.2 := by
  have hstrong : ((∀ x ∈ past, P x.1) ∧ P s' → I s') ∧
      (((∀ x ∈ past, P x.1) ∧ P s') ↔ ∀ x ∈ past, Good x.1 x.2) := by
    induction h with
    | nil => simp [hIs, hs]
    | snoc _ htake ih =>
      obtain ⟨ihI, ihiff⟩ := ih
      rw [List.forall_mem_cons, List.forall_mem_cons, ← ihiff]
      refine ⟨fun hall => ?_, ?_, ?_⟩
      · exact hI _ _ _ (ihI ⟨hall.1.2, hall.1.1⟩) hall.1.1 htake
      · rintro ⟨⟨h₁, hpast⟩, h₂⟩
        exact ⟨(hstep _ _ _ (ihI ⟨hpast, h₁⟩) h₁ htake).mp h₂, hpast, h₁⟩
      · rintro ⟨hgood, hpast, h₁⟩
        exact ⟨⟨h₁, hpast⟩, (hstep _ _ _ (ihI ⟨hpast, h₁⟩) h₁ htake).mpr hgood⟩
  exact hstrong.2

/-- The same without an invariant. -/
theorem Trace.always_iff {P : σ → Prop} {Good : σ → ℓ → Prop}
    (hstep : ∀ s l s', P s → step l s = some s' → (P s' ↔ Good s l))
    (h : Trace step s past s') (hs : P s) :
    ((∀ x ∈ past, P x.1) ∧ P s') ↔ ∀ x ∈ past, Good x.1 x.2 :=
  h.always_iff_of_invariant (I := fun _ => True) (fun _ _ _ _ _ _ => trivial)
    (fun s l s' _ => hstep s l s') trivial hs

/-- One direction, where being good is enough. -/
theorem Trace.always {P : σ → Prop} {G : σ → ℓ → Prop}
    (hstep : ∀ s l s', P s → G s l → step l s = some s' → P s')
    (h : Trace step s past s') (hs : P s) (hgood : ∀ x ∈ past, G x.1 x.2) :
    (∀ x ∈ past, P x.1) ∧ P s' := by
  induction h with
  | nil => simp [hs]
  | snoc _ htake ih =>
    rw [List.forall_mem_cons] at hgood ⊢
    obtain ⟨hpast, h₁⟩ := ih hgood.2
    exact ⟨⟨h₁, hpast⟩, hstep _ _ _ h₁ hgood.1 htake⟩

/-! ## Records -/

section Records

variable {β : Type} {f g : σ × ℓ → List β} {held : σ → List β}

/-- What the steps of a trace have recorded, in order. -/
def record (f : σ × ℓ → List β) (past : List (σ × ℓ)) : List β := past.reverse.flatMap f

@[simp] theorem record_nil : record f [] = [] := rfl

@[simp] theorem record_cons (x : σ × ℓ) : record f (x :: past) = record f past ++ f x := by
  simp [record]

/-- **What has come in has gone out or is held**, in order, if this is so of every step. -/
theorem Trace.ledger {I : σ → Prop} (hI : ∀ s l s', I s → step l s = some s' → I s')
    (hstep : ∀ s l s', I s → step l s = some s' → f (s, l) ++ held s' = held s ++ g (s, l))
    (h : Trace step s past s') (hs : I s) : record f past ++ held s' = held s ++ record g past := by
  induction h with
  | nil => simp
  | snoc htrace htake ih =>
    rw [record_cons, record_cons, List.append_assoc, hstep _ _ _ (htrace.invariant hI hs) htake,
      ← List.append_assoc, ih, List.append_assoc]

/-- The same where the order does not matter. -/
theorem Trace.ledger_perm
    (hstep : ∀ s l s', step l s = some s' → (f (s, l) ++ held s').Perm (held s ++ g (s, l)))
    (h : Trace step s past s') : (record f past ++ held s').Perm (held s ++ record g past) := by
  induction h with
  | nil => simp
  | snoc _ htake ih =>
    rw [record_cons, record_cons, List.append_assoc, ← List.append_assoc (held s)]
    refine ((hstep _ _ _ htake).append_left _).trans ?_
    rw [← List.append_assoc]
    exact ih.append_right _

end Records

/-! ## Simulations -/

section Simulations

variable {σ' ℓ' : Type} {step' : ℓ' → σ' → Option σ'} {f : σ → σ'} {Inv : σ → Prop}
  {Matches : σ → ℓ → σ' → ℓ' → Prop}

/-- Along `f` every step is a trace of the other system, of steps that match it; it may be empty. -/
def Simulates (step : ℓ → σ → Option σ) (step' : ℓ' → σ' → Option σ') (f : σ → σ') (Inv : σ → Prop)
    (Matches : σ → ℓ → σ' → ℓ' → Prop) : Prop :=
  ∀ s l s', Inv s → step l s = some s' →
    Inv s' ∧ ∃ past', Trace step' (f s) past' (f s') ∧ ∀ x ∈ past', Matches s l x.1 x.2

/-- **A trace is simulated** by one whose steps match its steps. -/
theorem Simulates.trace (hsim : Simulates step step' f Inv Matches) (hs : Inv s)
    (h : Trace step s past s') : Inv s' ∧ ∃ past', Trace step' (f s) past' (f s') ∧
      ∀ x ∈ past', ∃ y ∈ past, Matches y.1 y.2 x.1 x.2 := by
  induction h with
  | nil => exact ⟨hs, [], .nil, by simp⟩
  | snoc _ hstep ih =>
    obtain ⟨hinv, past₁, htrace₁, hmatch₁⟩ := ih
    obtain ⟨hinv', past₂, htrace₂, hmatch₂⟩ := hsim _ _ _ hinv hstep
    refine ⟨hinv', past₂ ++ past₁, htrace₁.append htrace₂, fun x hx => ?_⟩
    rcases List.mem_append.mp hx with hx | hx
    · exact ⟨_, List.mem_cons_self, hmatch₂ x hx⟩
    · obtain ⟨y, hy, hmatch⟩ := hmatch₁ x hx
      exact ⟨y, List.mem_cons_of_mem _ hy, hmatch⟩

end Simulations

end LabelledTraces
