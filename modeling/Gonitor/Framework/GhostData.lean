import Gonitor.Framework.AtomicProgram

/-!
# Ghost Data

The local data of a thread never influences what the thread does.  So two systems that differ in
nothing else take the same steps, and an invariant of a pool may be proved with local data that is made
for it.

## Main Results

- `SamePrograms.reach`: what one of two such systems reaches, the other one reaches.
- `Walk`: a program followed through its local data, with the rules that go with it.
-/

namespace AtomicProgram

variable {Op : Type} {Res : Op → Type} {α β σ L L' C S : Type}

/-! ## Systems that differ in their local data -/

/-- The pools differ at most in the local data of their threads. -/
structure SamePrograms (p : Pool Op Res α σ L) (q : Pool Op Res α σ L') : Prop where
  shared : q.shared = p.shared
  progs : ∀ tid, (q.threads tid).map Thread.prog = (p.threads tid).map Thread.prog

/-- The systems perform the same operations, and start the same programs. -/
structure SameSystem (M : System Op Res α σ L C S) (M' : System Op Res α σ L' C S) : Prop where
  exec : M'.exec = M.exec
  spawn : ∀ x s, (M'.spawn x s).map Thread.prog = (M.spawn x s).map Thread.prog

variable {M : System Op Res α σ L C S} {M' : System Op Res α σ L' C S}
  {p p' : Pool Op Res α σ L} {q : Pool Op Res α σ L'} {tid : Nat}

/-- The thread of the same number in the other pool. -/
theorem SamePrograms.thread (h : SamePrograms p q) {prog : Prog Op Res α} {ℓ : L}
    (hth : p.threads tid = some ⟨prog, ℓ⟩) : ∃ ℓ', q.threads tid = some ⟨prog, ℓ'⟩ := by
  have hprog := h.progs tid
  rw [hth] at hprog
  obtain ⟨⟨prog', ℓ'⟩, hth', heq⟩ := Option.map_eq_some_iff.mp hprog
  cases heq
  exact ⟨ℓ', hth'⟩

theorem SamePrograms.symm (h : SamePrograms p q) : SamePrograms q p :=
  ⟨h.shared.symm, fun tid => (h.progs tid).symm⟩

/-- Replacing a thread in both by threads of one program. -/
theorem SamePrograms.update (h : SamePrograms p q) (prog : Prog Op Res α) (ℓ : L) (ℓ' : L') (s : σ) :
    SamePrograms (⟨s, Function.update p.threads tid (some ⟨prog, ℓ⟩)⟩ : Pool Op Res α σ L)
      ⟨s, Function.update q.threads tid (some ⟨prog, ℓ'⟩)⟩ := by
  refine ⟨rfl, fun j => ?_⟩
  rcases eq_or_ne j tid with rfl | hne
  · simp
  · simp [hne, h.progs j]

/-- A step of one is a step of the other. -/
theorem SamePrograms.step (hM : SameSystem M M') (h : SamePrograms p q) {l : Label C S}
    (hstep : M.step l p = some p') : ∃ q', M'.step l q = some q' ∧ SamePrograms p' q' := by
  rcases System.step_cases hstep with ⟨tid, x, th, rfl, hnone, hspawn, rfl⟩ |
    ⟨tid, c, o, k, ℓ, r, s', rfl, hth, hexec, rfl⟩
  · have hnone' : q.threads tid = none := by simpa [hnone] using h.progs tid
    have hsame := hM.spawn x p.shared
    rw [hspawn] at hsame
    obtain ⟨⟨prog, ℓ'⟩, hspawn', heq⟩ := Option.map_eq_some_iff.mp hsame
    obtain ⟨prog, ℓ⟩ := th
    cases heq
    rw [← h.shared] at hspawn' ⊢
    exact ⟨_, by simp only [System.step, hnone', hspawn'], h.update prog ℓ ℓ' _⟩
  · obtain ⟨ℓ', hth'⟩ := h.thread hth
    rw [← h.shared, ← hM.exec] at hexec
    exact ⟨_, by simp only [System.step, hth', hexec], h.update (k r) _ (M'.next ℓ' o r) _⟩

/-- **The other system follows**, under a condition on its steps that does not tell the local data
    apart. -/
theorem SamePrograms.reach {K : Label C S → Pool Op Res α σ L → Prop}
    {K' : Label C S → Pool Op Res α σ L' → Prop} (hM : SameSystem M M')
    (hK : ∀ l p q, SamePrograms p q → K l p → K' l q) (h : SamePrograms p q)
    (hreach : M.Reach K p p') : ∃ q', M'.Reach K' q q' ∧ SamePrograms p' q' := by
  induction hreach with
  | refl => exact ⟨q, .refl, h⟩
  | tail _ hs ih =>
    obtain ⟨q₁, hreach, h₁⟩ := ih
    obtain ⟨l, hl, hstep⟩ := hs
    obtain ⟨q₂, hstep', h₂⟩ := h₁.step hM hstep
    exact ⟨q₂, hreach.tail ⟨l, hK l _ _ h₁ hl, hstep'⟩, h₂⟩

/-! ## Following a program through its local data -/

section Walks

variable {allowed : L → Op → Prop} {next : L → (o : Op) → Res o → L} {ℓ : L}

/-- From the local data `ℓ` on the program performs allowed operations only, and ends as `Q` says. -/
def Walk (allowed : L → Op → Prop) (next : L → (o : Op) → Res o → L) (p : Prog Op Res α)
    (Q : α → L → Prop) (ℓ : L) : Prop :=
  p.wp allowed (fun o ℓ r ℓ' => ℓ' = next ℓ o r) Q ℓ

theorem Walk.pure {a : α} {Q : α → L → Prop} (h : Q a ℓ) :
    Walk allowed next (Pure.pure a : Prog Op Res α) Q ℓ := h

theorem Walk.op_iff {o : Op} {k : Res o → Prog Op Res α} {Q : α → L → Prop} :
    Walk allowed next (.op o k) Q ℓ ↔ allowed ℓ o ∧ ∀ r, Walk allowed next (k r) Q (next ℓ o r) := by
  simp only [Walk, Prog.wp_op, forall_eq]

theorem Walk.call {o : Op} {f : Res o → Prog Op Res β} {Q : β → L → Prop} (ho : allowed ℓ o)
    (h : ∀ r, Walk allowed next (f r) Q (next ℓ o r)) :
    Walk allowed next (Prog.call o >>= f) Q ℓ := by
  refine ⟨ho, ?_⟩
  rintro r _ rfl
  exact h r

theorem Walk.bind {p : Prog Op Res α} {f : α → Prog Op Res β} {Q : α → L → Prop} {Q' : β → L → Prop}
    (hp : Walk allowed next p Q ℓ) (hf : ∀ a ℓ', Q a ℓ' → Walk allowed next (f a) Q' ℓ') :
    Walk allowed next (p >>= f) Q' ℓ :=
  (Prog.wp_bind p f Q' ℓ).mpr (Prog.wp_mono hp hf)

theorem Walk.mono {p : Prog Op Res α} {Q Q' : α → L → Prop} (hp : Walk allowed next p Q ℓ)
    (hQ : ∀ a ℓ', Q a ℓ' → Q' a ℓ') : Walk allowed next p Q' ℓ :=
  Prog.wp_mono hp hQ

/-- What the operations of a footprint keep, where they are allowed, a program keeps. -/
theorem Walk.of_uses {P : Op → Prop} {I : L → Prop} {p : Prog Op Res α} (hp : p.Uses P)
    (hI : ∀ o ℓ, P o → I ℓ → allowed ℓ o ∧ ∀ r, I (next ℓ o r)) (hℓ : I ℓ) :
    Walk allowed next p (fun _ => I) ℓ := by
  apply hp.wp _ hℓ
  intro o ℓ ho hℓ
  obtain ⟨hallowed, hnext⟩ := hI o ℓ ho hℓ
  refine ⟨hallowed, ?_⟩
  rintro r _ rfl
  exact hnext r

end Walks

end AtomicProgram
