import Gonitor.Framework.AtomicProgram

/-!
# Traces of Programs

The operations a program performs, with their answers, whatever the answers are.  A statement
about all traces is about every run of the program, alone or among others.

## Main Results

- `Ends.bind`, `Ends.append`: a trace of `p >>= f` is a trace of `p` and one of the rest.
- `runs_iff`: it runs alone exactly by performing one of its traces.
-/

namespace AtomicProgram

variable {Op : Type} {Res : Op → Type} {α β σ : Type}

/-- The operations performed, in their order, each with its answer. -/
abbrev Trace (Op : Type) (Res : Op → Type) := List (Σ o : Op, Res o)

namespace Prog

/-- The program performs the operations of the trace, is answered as it says, and ends with `a`. -/
inductive Ends : Prog Op Res α → Trace Op Res → α → Prop
  | pure (a : α) : Ends (.pure a) [] a
  | op {o : Op} {k : Res o → Prog Op Res α} {r : Res o} {tr : Trace Op Res} {a : α} :
      Ends (k r) tr a → Ends (.op o k) (⟨o, r⟩ :: tr) a

theorem Ends.of_pure {a b : α} {tr : Trace Op Res}
    (h : Ends (Pure.pure b : Prog Op Res α) tr a) : tr = [] ∧ a = b := by
  change Ends (Prog.pure b) tr a at h
  cases h
  exact ⟨rfl, rfl⟩

theorem Ends.of_op {o : Op} {k : Res o → Prog Op Res α} {tr : Trace Op Res} {a : α}
    (h : Ends (.op o k) tr a) : ∃ r rest, tr = ⟨o, r⟩ :: rest ∧ Ends (k r) rest a := by
  cases h with
  | op h => exact ⟨_, _, rfl, h⟩

/-- The first operation and the rest. -/
theorem Ends.of_call_bind {o : Op} {f : Res o → Prog Op Res β} {tr : Trace Op Res} {b : β}
    (h : Ends (call o >>= f) tr b) : ∃ r rest, tr = ⟨o, r⟩ :: rest ∧ Ends (f r) rest b :=
  Ends.of_op h

/-- The rule of sequencing. -/
theorem Ends.bind {p : Prog Op Res α} {f : α → Prog Op Res β} {tr : Trace Op Res} {b : β}
    (h : Ends (p >>= f) tr b) :
    ∃ a tr₁ tr₂, tr = tr₁ ++ tr₂ ∧ Ends p tr₁ a ∧ Ends (f a) tr₂ b := by
  induction p generalizing tr with
  | pure a => exact ⟨a, [], tr, rfl, .pure a, h⟩
  | op o k ih =>
    obtain ⟨r, rest, rfl, hrest⟩ := Ends.of_op h
    obtain ⟨a, tr₁, tr₂, rfl, h₁, h₂⟩ := ih r hrest
    exact ⟨a, ⟨o, r⟩ :: tr₁, tr₂, rfl, .op h₁, h₂⟩

theorem Ends.append {p : Prog Op Res α} {f : α → Prog Op Res β} {tr₁ tr₂ : Trace Op Res} {a : α}
    {b : β} (h₁ : Ends p tr₁ a) (h₂ : Ends (f a) tr₂ b) : Ends (p >>= f) (tr₁ ++ tr₂) b := by
  induction h₁ with
  | pure a => exact h₂
  | op _ ih => exact .op (ih h₂)

/-- The answers decide how a program ends. -/
theorem Ends.unique {p : Prog Op Res α} {tr : Trace Op Res} {a b : α} (ha : Ends p tr a)
    (hb : Ends p tr b) : a = b := by
  induction ha with
  | pure a => exact (Ends.of_pure hb).2.symm
  | op _ ih =>
    cases hb with
    | op hrest => exact ih hrest

/-- Perform the program, each operation answered by `answer`, as far as that has an answer. -/
def answered (answer : (o : Op) → Option (Res o)) : Prog Op Res α → Option (Trace Op Res × α)
  | .pure a => some ([], a)
  | .op o k => (answer o).bind fun r =>
      (answered answer (k r)).map fun x => (⟨o, r⟩ :: x.1, x.2)

/-- A program that has been performed so has that trace. -/
theorem ends_of_answered {answer : (o : Op) → Option (Res o)} {p : Prog Op Res α}
    {tr : Trace Op Res} {a : α} (h : p.answered answer = some (tr, a)) : Ends p tr a := by
  induction p generalizing tr with
  | pure b =>
    have heq : ([], b) = (tr, a) := by simpa [answered] using h
    cases heq
    exact .pure a
  | op o k ih =>
    obtain ⟨r, -, hrest⟩ := Option.bind_eq_some_iff.mp h
    obtain ⟨⟨rest, b⟩, hk, heq⟩ := Option.map_eq_some_iff.mp hrest
    cases heq
    exact .op (ih r hk)

/-- The answers of such a trace are those it was performed with. -/
theorem answers_of_answered {answer : (o : Op) → Option (Res o)} {p : Prog Op Res α}
    {tr : Trace Op Res} {a : α} (h : p.answered answer = some (tr, a)) :
    ∀ x ∈ tr, answer x.1 = some x.2 := by
  induction p generalizing tr with
  | pure b =>
    have heq : ([], b) = (tr, a) := by simpa [answered] using h
    cases heq
    nofun
  | op o k ih =>
    obtain ⟨r, hanswer, hrest⟩ := Option.bind_eq_some_iff.mp h
    obtain ⟨⟨rest, b⟩, hk, heq⟩ := Option.map_eq_some_iff.mp hrest
    cases heq
    exact List.forall_mem_cons.mpr ⟨hanswer, ih r hk⟩

/-- A trace has operations of the footprint only. -/
theorem Uses.of_ends {P : Op → Prop} {p : Prog Op Res α} (hp : p.Uses P) {tr : Trace Op Res}
    {a : α} (h : Ends p tr a) : ∀ x ∈ tr, P x.1 := by
  induction h with
  | pure a => nofun
  | op _ ih => exact List.forall_mem_cons.mpr ⟨hp.1, ih (hp.2 _)⟩

/-! ## Performing a trace -/

section Performing

variable {step : (o : Op) → σ → Res o → σ → Prop}

/-- The operations of the trace are performed one after the other, with the answers it gives. -/
inductive Performed (step : (o : Op) → σ → Res o → σ → Prop) : Trace Op Res → σ → σ → Prop
  | nil (s : σ) : Performed step [] s s
  | cons {o : Op} {r : Res o} {tr : Trace Op Res} {s s' s'' : σ} :
      step o s r s' → Performed step tr s' s'' → Performed step (⟨o, r⟩ :: tr) s s''

theorem Performed.of_cons {o : Op} {r : Res o} {tr : Trace Op Res} {s s'' : σ}
    (h : Performed step (⟨o, r⟩ :: tr) s s'') :
    ∃ s', step o s r s' ∧ Performed step tr s' s'' := by
  cases h with
  | cons hstep hrest => exact ⟨_, hstep, hrest⟩

theorem Performed.of_append {tr₁ tr₂ : Trace Op Res} {s s'' : σ}
    (h : Performed step (tr₁ ++ tr₂) s s'') :
    ∃ s', Performed step tr₁ s s' ∧ Performed step tr₂ s' s'' := by
  induction tr₁ generalizing s with
  | nil => exact ⟨s, .nil s, h⟩
  | cons x tr₁ ih =>
    obtain ⟨s₁, hstep, hrest⟩ := h.of_cons
    obtain ⟨s', h₁, h₂⟩ := ih hrest
    exact ⟨s', .cons hstep h₁, h₂⟩

/-- What every operation of a trace keeps, the trace keeps. -/
theorem Performed.invariant {I : σ → Prop} {tr : Trace Op Res} {s s' : σ}
    (hI : ∀ x ∈ tr, ∀ s s', step x.1 s x.2 s' → I s → I s') (h : Performed step tr s s')
    (hs : I s) : I s' := by
  induction h with
  | nil => exact hs
  | cons hstep _ ih =>
    obtain ⟨hfirst, hrest⟩ := List.forall_mem_cons.mp hI
    exact ih hrest (hfirst _ _ hstep hs)

/-- **A program runs alone** exactly by performing one of its traces. -/
theorem runs_iff {p : Prog Op Res α} {s s' : σ} {a : α} :
    Runs step p s a s' ↔ ∃ tr, Ends p tr a ∧ Performed step tr s s' := by
  constructor
  · intro h
    induction h with
    | pure a s => exact ⟨[], .pure a, .nil s⟩
    | op hstep _ ih =>
      obtain ⟨tr, hends, hperformed⟩ := ih
      exact ⟨_, .op hends, .cons hstep hperformed⟩
  · rintro ⟨tr, hends, hperformed⟩
    induction hends generalizing s with
    | pure a =>
      cases hperformed
      exact .pure a _
    | op _ ih =>
      obtain ⟨s₁, hstep, hrest⟩ := hperformed.of_cons
      exact .op hstep (ih hrest)

end Performing

end Prog

end AtomicProgram
