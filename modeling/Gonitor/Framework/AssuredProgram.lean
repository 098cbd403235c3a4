import Gonitor.Framework.AtomicProgram

/-!
# Programs Under Assured Answers

A program that writes back what it has read does no harm as long as nothing harmful is read.
`Assured ok ans p` says so: while its operations are answered as `ans` says, `p` performs only
operations that satisfy `ok`.  Where the shared state has an invariant that makes all answers such
and that such operations keep, a program running alone keeps the invariant (`Assured.runs`), and
so does a pool of such programs (`assured_reach`).
-/

namespace AtomicProgram

variable {Op : Type} {Res : Op → Type} {α β σ L C S : Type}

namespace Prog

/-- While it is answered as `ans` says, the program performs only operations that satisfy `ok`. -/
def Assured (ok : Op → Prop) (ans : (o : Op) → Res o → Prop) : Prog Op Res α → Prop
  | .pure _ => True
  | .op o k => ok o ∧ ∀ r, ans o r → Assured ok ans (k r)

variable {ok ok' : Op → Prop} {ans ans' : (o : Op) → Res o → Prop}

theorem Assured.bind {p : Prog Op Res α} {f : α → Prog Op Res β} (hp : p.Assured ok ans)
    (hf : ∀ a, (f a).Assured ok ans) : (p >>= f).Assured ok ans := by
  induction p with
  | pure a => exact hf a
  | op o k ih => exact ⟨hp.1, fun r hr => ih r (hp.2 r hr)⟩

theorem Assured.call_bind {o : Op} {f : Res o → Prog Op Res α} (ho : ok o)
    (hf : ∀ r, ans o r → (f r).Assured ok ans) : (call o >>= f).Assured ok ans := ⟨ho, hf⟩

/-- Whatever it is answered, a program performs the operations of its footprint. -/
theorem Assured.of_uses {P : Op → Prop} {p : Prog Op Res α} (hp : p.Uses P)
    (h : ∀ o, P o → ok o) : p.Assured ok ans := by
  induction p with
  | pure a => trivial
  | op o k ih => exact ⟨h o hp.1, fun r _ => ih r (hp.2 r)⟩

/-- Two assurances are one. -/
theorem Assured.and {p : Prog Op Res α} (hp : p.Assured ok ans) (hp' : p.Assured ok' ans') :
    p.Assured (fun o => ok o ∧ ok' o) fun o r => ans o r ∧ ans' o r := by
  induction p with
  | pure a => trivial
  | op o k ih => exact ⟨⟨hp.1, hp'.1⟩, fun r hr => ih r (hp.2 r hr.1) (hp'.2 r hr.2)⟩

/-- While it is answered as `ans` says, the program performs operations that satisfy `ok`, and at
    most one that satisfies `once`. -/
def AtMostOnce (ok once : Op → Prop) (ans : (o : Op) → Res o → Prop) : Prog Op Res α → Prop
  | .pure _ => True
  | .op o k => (once o ∧ ∀ r, (k r).Uses ok) ∨ (ok o ∧ ∀ r, ans o r → AtMostOnce ok once ans (k r))

variable {once : Op → Prop}

theorem AtMostOnce.of_uses {p : Prog Op Res α} (hp : p.Uses ok) : p.AtMostOnce ok once ans := by
  induction p with
  | pure a => trivial
  | op o k ih => exact .inr ⟨hp.1, fun r _ => ih r (hp.2 r)⟩

/-- First only `ok` operations, then the others. -/
theorem AtMostOnce.bind {p : Prog Op Res α} {f : α → Prog Op Res β} (hp : p.Uses ok)
    (hf : ∀ a, (f a).AtMostOnce ok once ans) : (p >>= f).AtMostOnce ok once ans := by
  induction p with
  | pure a => exact hf a
  | op o k ih => exact .inr ⟨hp.1, fun r _ => ih r (hp.2 r)⟩

theorem AtMostOnce.call_bind {o : Op} {f : Res o → Prog Op Res α} (ho : ok o)
    (hf : ∀ r, ans o r → (f r).AtMostOnce ok once ans) :
    (call o >>= f).AtMostOnce ok once ans := .inr ⟨ho, hf⟩

theorem AtMostOnce.once_bind {o : Op} {f : Res o → Prog Op Res α} (ho : once o)
    (hf : ∀ r, (f r).Uses ok) : (call o >>= f).AtMostOnce ok once ans := .inl ⟨ho, hf⟩

/-- **Running alone**, a program keeps an invariant that makes all answers as they should be and
    that the operations it may perform keep. -/
theorem Assured.runs {step : (o : Op) → σ → Res o → σ → Prop} {I : σ → Prop}
    (hstep : ∀ o s r s', I s → ok o → step o s r s' → ans o r ∧ I s') {p : Prog Op Res α}
    {s s' : σ} {a : α} (hp : p.Assured ok ans) (hs : I s) (h : Runs step p s a s') : I s' := by
  induction h with
  | pure a s => exact hs
  | op h₁ _ ih =>
    obtain ⟨hr, hs'⟩ := hstep _ _ _ _ hs hp.1 h₁
    exact ih (hp.2 _ hr) hs'

end Prog

/-- Every thread of the pool is assured. -/
def AllAssured (ok : Op → Prop) (ans : (o : Op) → Res o → Prop) (p : Pool Op Res α σ L) : Prop :=
  ∀ tid th, p.threads tid = some th → th.prog.Assured ok ans

section Pools

variable {M : System Op Res α σ L C S} {K : Label C S → Pool Op Res α σ L → Prop} {I : σ → Prop}
  {ok : Op → Prop} {ans : (o : Op) → Res o → Prop}

theorem AllAssured.update {p : Pool Op Res α σ L} (h : AllAssured ok ans p)
    {th : Thread Op Res α L} (hth : th.prog.Assured ok ans) (tid : Nat) (s : σ) :
    AllAssured ok ans ⟨s, Function.update p.threads tid (some th)⟩ := by
  intro tid' th' h'
  rcases update_eq_some h' with ⟨-, hnew⟩ | ⟨-, hold⟩
  · cases hnew
    exact hth
  · exact h tid' th' hold

/-- **Side by side**, assured threads keep such an invariant of the shared state. -/
theorem assured_reach
    (hspawn : ∀ x s th, M.spawn x s = some th → th.prog.Assured ok ans)
    (hstep : ∀ p tid c o k ℓ r s', I p.shared → K (.op tid c) p →
      p.threads tid = some ⟨.op o k, ℓ⟩ → ok o → M.exec o c p.shared = some (r, s') →
      ans o r ∧ I s')
    {p p' : Pool Op Res α σ L} (hI : I p.shared) (hp : AllAssured ok ans p)
    (h : M.Reach K p p') : I p'.shared ∧ AllAssured ok ans p' := by
  induction h with
  | refl => exact ⟨hI, hp⟩
  | tail _ hs ih =>
    obtain ⟨hI, hp⟩ := ih
    obtain ⟨l, hK, hl⟩ := hs
    rcases System.step_cases hl with ⟨tid, x, th, rfl, -, hsp, rfl⟩ |
      ⟨tid, c, o, k, ℓ, r, s', rfl, hth, hex, rfl⟩
    · exact ⟨hI, hp.update (hspawn x _ th hsp) tid _⟩
    · have hop := hp tid _ hth
      obtain ⟨hr, hI'⟩ := hstep _ tid c o k ℓ r s' hI hK hth hop.1 hex
      exact ⟨hI', hp.update (hop.2 r hr) tid _⟩

end Pools

end AtomicProgram
