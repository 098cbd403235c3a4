import Gonitor.Framework.AtomicProgram

/-!
# Two Runs in Lockstep

A program that is answered alike in two states takes the same path in both.  `Meets ok blind ans Q p`
says that `p`, while it is answered as `ans` says, performs only operations that satisfy `ok`, does
not look at the answer of a `blind` one, and ends only with what `Q` allows.  Where the operations
are answered alike in related states, up to answers nobody looks at, and lead to related states, two
runs of `p` with the same choices end alike (`Meets.lockstep`): what the relation does not tie
together has no influence on the answer.
-/

namespace AtomicProgram

variable {Op : Type} {Res : Op → Type} {α β σ C : Type}

/-- Two outcomes are answers related by `A` in states related by `R`, or both are missing. -/
def Together (A : α → α → Prop) (R : σ → σ → Prop) : Option (α × σ) → Option (α × σ) → Prop
  | none, none => True
  | some (a, s), some (b, t) => A a b ∧ R s t
  | _, _ => False

theorem Together.of_some {A : α → α → Prop} {R : σ → σ → Prop} {x : Option (α × σ)} {a : α} {s : σ}
    (h : Together A R (some (a, s)) x) : ∃ b t, x = some (b, t) ∧ A a b ∧ R s t := by
  cases x with
  | none => exact h.elim
  | some y => exact ⟨y.1, y.2, rfl, h.1, h.2⟩

/-- What follows goes on together. -/
theorem Together.bind {A : α → α → Prop} {B : β → β → Prop} {R : σ → σ → Prop}
    {x y : Option (α × σ)} {f g : α × σ → Option (β × σ)} (h : Together A R x y)
    (hf : ∀ a b s t, A a b → R s t → Together B R (f (a, s)) (g (b, t))) :
    Together B R (x.bind f) (y.bind g) := by
  cases x with
  | none =>
    cases y with
    | none => trivial
    | some y => exact h.elim
  | some x =>
    obtain ⟨b, t, rfl, hA, hR⟩ := h.of_some
    exact hf x.1 b x.2 t hA hR

/-- The two answers are as expected and, if anybody looks at them, the same. -/
def SameAnswer (blind : Op → Prop) (ans : (o : Op) → Res o → Prop) (o : Op) (r r' : Res o) : Prop :=
  ans o r ∧ (blind o ∨ r = r')

namespace Prog

/-- While it is answered as `ans` says, the program performs only operations that satisfy `ok`, does
    not look at the answers of `blind` ones, and ends only with what `Q` allows. -/
def Meets (ok blind : Op → Prop) (ans : (o : Op) → Res o → Prop) (Q : α → Prop) :
    Prog Op Res α → Prop
  | .pure a => Q a
  | .op o k => ok o ∧ (blind o → ∀ r r', k r = k r') ∧ ∀ r, ans o r → Meets ok blind ans Q (k r)

variable {ok blind : Op → Prop} {ans : (o : Op) → Res o → Prop} {P : α → Prop} {Q : β → Prop}

theorem Meets.bind {p : Prog Op Res α} {f : α → Prog Op Res β} (hp : p.Meets ok blind ans P)
    (hf : ∀ a, P a → (f a).Meets ok blind ans Q) : (p >>= f).Meets ok blind ans Q := by
  induction p with
  | pure a => exact hf a hp
  | op o k ih =>
    refine ⟨hp.1, fun hblind r r' => ?_, fun r hr => ih r (hp.2.2 r hr)⟩
    exact congrArg (· >>= f) (hp.2.1 hblind r r')

/-- An operation whose answer may be looked at. -/
theorem Meets.call_bind {o : Op} {f : Res o → Prog Op Res β} (ho : ok o) (hsees : ¬ blind o)
    (hf : ∀ r, ans o r → (f r).Meets ok blind ans Q) : (call o >>= f).Meets ok blind ans Q :=
  ⟨ho, fun hblind => absurd hblind hsees, hf⟩

/-- An operation whose answer is dropped. -/
theorem Meets.drop_bind {o : Op} {p : Prog Op Res β} (ho : ok o) (hp : p.Meets ok blind ans Q) :
    (call o >>= fun _ => p).Meets ok blind ans Q :=
  ⟨ho, fun _ _ _ => rfl, fun _ _ => hp⟩

/-- **Lockstep**: operations that are answered alike in related states make two runs with the same
    choices end alike. -/
theorem Meets.lockstep {exec exec' : (o : Op) → C → σ → Option (Res o × σ)} {R : σ → σ → Prop}
    (hstep : ∀ o c s t, R s t → ok o →
      Together (SameAnswer blind ans o) R (exec o c s) (exec' o c t))
    {p : Prog Op Res β} (hp : p.Meets ok blind ans Q) {s t : σ} (hR : R s t) (cs : List C) :
    Together (fun a b => a = b ∧ Q a) R (p.runWith exec cs s) (p.runWith exec' cs t) := by
  induction p generalizing cs s t with
  | pure a =>
    simp only [runWith]
    exact ⟨⟨rfl, hp⟩, hR⟩
  | op o k ih =>
    cases cs with
    | nil => trivial
    | cons c cs =>
      simp only [runWith]
      refine (hstep o c s t hR hp.1).bind fun r r' s' t' hr hR' => ?_
      -- the two runs go on with the same program
      have hsame : k r' = k r := by
        rcases hr.2 with hblind | rfl
        · exact hp.2.1 hblind r' r
        · rfl
      dsimp only
      rw [hsame]
      exact ih r (hp.2.2 r hr.1) hR' cs

end Prog

end AtomicProgram
