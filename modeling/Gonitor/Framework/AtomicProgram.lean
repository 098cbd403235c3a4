import Mathlib.Logic.Relation
import Mathlib.Logic.Function.Basic

/-!
# Programs of Atomic Operations

A program is a tree of atomic operations on a shared state: each operation is
performed in one step, and what it answers decides how the program goes on.  The same
program has two meanings.

- **Alone** (`Prog.Runs`): the operations of one program follow each other with nothing
  in between.  `Prog.wp` is the weakest precondition for this meaning.
- **In a pool** (`System`): many threads, each with a program of its own, take turns
  operation by operation, in any order.

## Disciplines

A thread carries local data that its own operations update.  A *discipline* says which
operations the local data permits.  `System.invariant` is the induction rule: where
every program follows the discipline, an invariant of the pool only has to be checked
against permitted operations, one case for each kind of operation, never against the
program text.
-/

namespace AtomicProgram

/-- A program over the operations `Op`; `Res o` is what the operation `o` answers. -/
inductive Prog (Op : Type) (Res : Op → Type) (α : Type) : Type
  | pure (a : α) : Prog Op Res α
  | op (o : Op) (k : Res o → Prog Op Res α) : Prog Op Res α

variable {Op : Type} {Res : Op → Type} {α β σ L C S : Type}

namespace Prog

/-! ## The monad of programs -/

/-- Sequencing. -/
def bind : Prog Op Res α → (α → Prog Op Res β) → Prog Op Res β
  | .pure a, f => f a
  | .op o k, f => .op o (fun r => (k r).bind f)

instance : Monad (Prog Op Res) where
  pure := .pure
  bind := bind

/-- The program that performs one operation. -/
def call (o : Op) : Prog Op Res (Res o) := .op o .pure

/-- Has the program ended? -/
def isDone : Prog Op Res α → Bool
  | .pure _ => true
  | .op _ _ => false

@[simp] theorem op_bind (o : Op) (k : Res o → Prog Op Res α) (f : α → Prog Op Res β) :
    Prog.op o k >>= f = .op o (fun r => k r >>= f) := rfl

@[simp] theorem call_bind (o : Op) (f : Res o → Prog Op Res β) :
    (call o : Prog Op Res (Res o)) >>= f = .op o f := rfl

/-! ## Footprints -/

/-- Every operation the program can come to perform satisfies `P`. -/
def Uses (P : Op → Prop) : Prog Op Res α → Prop
  | .pure _ => True
  | .op o k => P o ∧ ∀ r, (k r).Uses P

theorem Uses.bind {P : Op → Prop} {p : Prog Op Res α} {f : α → Prog Op Res β}
    (hp : p.Uses P) (hf : ∀ a, (f a).Uses P) : (p >>= f).Uses P := by
  induction p with
  | pure a => exact hf a
  | op o k ih => exact ⟨hp.1, fun r => ih r (hp.2 r)⟩

theorem Uses.call_bind {P : Op → Prop} {o : Op} {f : Res o → Prog Op Res α} (ho : P o)
    (hf : ∀ r, (f r).Uses P) : (call o >>= f).Uses P := ⟨ho, hf⟩

theorem Uses.mono {P P' : Op → Prop} {p : Prog Op Res α} (hp : p.Uses P)
    (h : ∀ o, P o → P' o) : p.Uses P' := by
  induction p with
  | pure a => trivial
  | op o k ih => exact ⟨h o hp.1, fun r => ih r (hp.2 r)⟩

/-! ## Weakest preconditions -/

/-- `wp allowed step p Q s`: from `s`, every operation that `p` comes to perform is
    allowed in the state it meets, and every end of `p` satisfies `Q`. -/
def wp (allowed : σ → Op → Prop) (step : (o : Op) → σ → Res o → σ → Prop) :
    Prog Op Res α → (α → σ → Prop) → σ → Prop
  | .pure a, Q, s => Q a s
  | .op o k, Q, s => allowed s o ∧ ∀ r s', step o s r s' → wp allowed step (k r) Q s'

variable {allowed : σ → Op → Prop} {step : (o : Op) → σ → Res o → σ → Prop}

theorem wp_op (o : Op) (k : Res o → Prog Op Res α) (Q : α → σ → Prop) (s : σ) :
    wp allowed step (.op o k) Q s ↔
      allowed s o ∧ ∀ r s', step o s r s' → wp allowed step (k r) Q s' := Iff.rfl

/-- The rule of sequencing. -/
theorem wp_bind (p : Prog Op Res α) (f : α → Prog Op Res β) (Q : β → σ → Prop) (s : σ) :
    wp allowed step (p >>= f) Q s ↔
      wp allowed step p (fun a s' => wp allowed step (f a) Q s') s := by
  induction p generalizing s with
  | pure a => rfl
  | op o k ih =>
    simp only [op_bind, wp_op]
    exact and_congr_right fun _ =>
      forall_congr' fun r => forall_congr' fun s' => imp_congr_right fun _ => ih r s'

/-- The rule of consequence. -/
theorem wp_mono {p : Prog Op Res α} {Q Q' : α → σ → Prop} {s : σ}
    (h : wp allowed step p Q s) (hQ : ∀ a s', Q a s' → Q' a s') :
    wp allowed step p Q' s := by
  induction p generalizing s with
  | pure a => exact hQ a s h
  | op o k ih => exact ⟨h.1, fun r s' hs => ih r (h.2 r s' hs)⟩

/-- Two postconditions are one. -/
theorem wp_and {p : Prog Op Res α} {Q Q' : α → σ → Prop} {s : σ}
    (h : wp allowed step p Q s) (h' : wp allowed step p Q' s) :
    wp allowed step p (fun a s' => Q a s' ∧ Q' a s') s := by
  induction p generalizing s with
  | pure a => exact ⟨h, h'⟩
  | op o k ih => exact ⟨h.1, fun r s' hs => ih r (h.2 r s' hs) (h'.2 r s' hs)⟩

/-- What the operations of its footprint keep, a program keeps. -/
theorem Uses.wp {P : Op → Prop} {I : σ → Prop} {p : Prog Op Res α} (hp : p.Uses P)
    (hI : ∀ o s, P o → I s → allowed s o ∧ ∀ r s', step o s r s' → I s') {s : σ} (hs : I s) :
    p.wp allowed step (fun _ => I) s := by
  induction p generalizing s with
  | pure a => exact hs
  | op o k ih =>
    obtain ⟨ha, hstep⟩ := hI o s hp.1 hs
    -- whatever the operation answers, the invariant holds again
    exact ⟨ha, fun r s' h => ih r (hp.2 r) (hstep r s' h)⟩

/-! ## Running alone -/

/-- `Runs step p s a s'`: performed alone from `s`, the program `p` can end with the
    answer `a` in the state `s'`. -/
inductive Runs (step : (o : Op) → σ → Res o → σ → Prop) :
    Prog Op Res α → σ → α → σ → Prop
  | pure (a : α) (s : σ) : Runs step (.pure a) s a s
  | op {o : Op} {k : Res o → Prog Op Res α} {s s' s'' : σ} {r : Res o} {a : α} :
      step o s r s' → Runs step (k r) s' a s'' → Runs step (.op o k) s a s''

/-- Weakest preconditions are sound for programs running alone. -/
theorem Runs.post {p : Prog Op Res α} {s s' : σ} {a : α} {Q : α → σ → Prop}
    (h : Runs step p s a s') (hw : wp allowed step p Q s) : Q a s' := by
  induction h with
  | pure a s => exact hw
  | op hs _ ih => exact ih (hw.2 _ _ hs)

/-- What every operation keeps, a run keeps. -/
theorem Runs.invariant {I : σ → Prop} (hI : ∀ o s r s', step o s r s' → I s → I s')
    {p : Prog Op Res α} {s s' : σ} {a : α} (h : Runs step p s a s') (hs : I s) : I s' := by
  induction h with
  | pure a s => exact hs
  | op hstep _ ih => exact ih (hI _ _ _ _ hstep hs)

/-- Where every operation is allowed, weakest preconditions are complete as well. -/
theorem wp_of_runs {p : Prog Op Res α} {s : σ} {Q : α → σ → Prop}
    (h : ∀ a s', Runs step p s a s' → Q a s') : wp (fun _ _ => True) step p Q s := by
  induction p generalizing s with
  | pure a => exact h a s (.pure a s)
  | op o k ih => exact ⟨trivial, fun r s' hstep => ih r fun a s'' hrun => h a s'' (.op hstep hrun)⟩

/-- A program that runs under a narrower step relation runs under a wider one. -/
theorem Runs.mono {step' : (o : Op) → σ → Res o → σ → Prop}
    {p : Prog Op Res α} {s s' : σ} {a : α} (h : Runs step p s a s')
    (hs : ∀ o s r s', step o s r s' → step' o s r s') : Runs step' p s a s' := by
  induction h with
  | pure a s => exact .pure a s
  | op h1 _ ih => exact .op (hs _ _ _ _ h1) ih

/-- A program whose operations can always be performed can be run to its end. -/
theorem Uses.exists_runs {P : Op → Prop} {I : σ → Prop} {p : Prog Op Res α} (hp : p.Uses P)
    (hstep : ∀ o s, P o → I s → ∃ r s', step o s r s' ∧ I s') {s : σ} (hs : I s) :
    ∃ a s', Runs step p s a s' ∧ I s' := by
  induction p generalizing s with
  | pure a => exact ⟨a, s, .pure a s, hs⟩
  | op o k ih =>
    obtain ⟨r, s₁, h₁, hs₁⟩ := hstep o s hp.1 hs
    obtain ⟨a, s', hrun, hs'⟩ := ih r (hp.2 r) hs₁
    exact ⟨a, s', .op h₁ hrun, hs'⟩

/-- Run the program alone, each operation with the next choice of the list. -/
def runWith {C : Type} (exec : (o : Op) → C → σ → Option (Res o × σ)) :
    List C → Prog Op Res α → σ → Option (α × σ)
  | _, .pure a, s => some (a, s)
  | [], .op _ _, _ => none
  | c :: cs, .op o k, s => (exec o c s).bind fun x => runWith exec cs (k x.1) x.2

/-- What has been run with the choices of a list is a run with such choices. -/
theorem runs_of_runWith {C : Type} {exec : (o : Op) → C → σ → Option (Res o × σ)} {cs : List C}
    {p : Prog Op Res α} {s s' : σ} {a : α} (h : p.runWith exec cs s = some (a, s')) :
    Runs (fun o s r s' => ∃ c ∈ cs, exec o c s = some (r, s')) p s a s' := by
  induction p generalizing cs s with
  | pure b =>
    have heq : some (b, s) = some (a, s') := by simpa only [runWith] using h
    cases heq
    exact .pure _ _
  | op o k ih =>
    cases cs with
    | nil => cases h
    | cons c cs =>
      obtain ⟨x, hexec, hrest⟩ := Option.bind_eq_some_iff.mp h
      have hrun := ih x.1 hrest
      refine .op ⟨c, List.mem_cons_self, hexec⟩ (hrun.mono ?_)
      rintro o s r s' ⟨c', hc', hstep⟩
      exact ⟨c', List.mem_cons_of_mem _ hc', hstep⟩

end Prog

/-! ## Pools of threads -/

/-- A thread: what it has still to do, and its local data. -/
structure Thread (Op : Type) (Res : Op → Type) (α L : Type) where
  prog : Prog Op Res α
  loc : L

/-- The shared state and the threads, by their numbers. -/
structure Pool (Op : Type) (Res : Op → Type) (α σ L : Type) where
  shared : σ
  threads : Nat → Option (Thread Op Res α L)

/-- What is there after a replacement is the replacement, or was there before. -/
theorem update_eq_some {f : Nat → Option α} {i j : Nat} {x : Option α} {a : α}
    (h : Function.update f i x j = some a) : (j = i ∧ x = some a) ∨ (j ≠ i ∧ f j = some a) := by
  rcases eq_or_ne j i with rfl | hne
  · rw [Function.update_self] at h
    exact .inl ⟨rfl, h⟩
  · rw [Function.update_of_ne hne] at h
    exact .inr ⟨hne, h⟩

/-- A step of the pool: a new thread, or the next operation of a thread (`c` resolves
    what the operation leaves open). -/
inductive Label (C S : Type)
  | spawn (tid : Nat) (x : S)
  | op (tid : Nat) (c : C)

/-- The thread that a step starts or moves. -/
def Label.tid : Label C S → Nat
  | .spawn tid _ | .op tid _ => tid

/-- How operations act, how they update a thread's local data, which threads can start.
    `exec` answers `none` where the operation cannot be performed (it blocks). -/
structure System (Op : Type) (Res : Op → Type) (α σ L C S : Type) where
  exec : (o : Op) → C → σ → Option (Res o × σ)
  next : L → (o : Op) → Res o → L
  spawn : S → σ → Option (Thread Op Res α L)

namespace System

variable (M : System Op Res α σ L C S)

/-- One step of the pool. -/
def step (l : Label C S) (p : Pool Op Res α σ L) : Option (Pool Op Res α σ L) :=
  match l with
  | .spawn tid x =>
    match p.threads tid, M.spawn x p.shared with
    -- a number is taken for good, also when its thread has ended
    | none, some th => some ⟨p.shared, Function.update p.threads tid (some th)⟩
    | _, _ => none
  | .op tid c =>
    match p.threads tid with
    | some ⟨.op o k, ℓ⟩ =>
      match M.exec o c p.shared with
      | some (r, s') =>
        some ⟨s', Function.update p.threads tid (some ⟨k r, M.next ℓ o r⟩)⟩
      -- the operation blocks
      | none => none
    | _ => none

/-- Everything a step of the pool can be. -/
theorem step_cases {M : System Op Res α σ L C S} {l : Label C S}
    {p p' : Pool Op Res α σ L} (h : M.step l p = some p') :
    (∃ tid x th, l = .spawn tid x ∧ p.threads tid = none ∧ M.spawn x p.shared = some th ∧
      p' = ⟨p.shared, Function.update p.threads tid (some th)⟩) ∨
    (∃ tid c o k ℓ r s', l = .op tid c ∧ p.threads tid = some ⟨.op o k, ℓ⟩ ∧
      M.exec o c p.shared = some (r, s') ∧
      p' = ⟨s', Function.update p.threads tid (some ⟨k r, M.next ℓ o r⟩)⟩) := by
  cases l with
  | spawn tid x =>
    simp only [step] at h
    split at h
    · rename_i th hnone hsome
      exact .inl ⟨tid, x, th, rfl, hnone, hsome, (Option.some.inj h).symm⟩
    · cases h
  | op tid c =>
    simp only [step] at h
    split at h
    · rename_i o k ℓ hth
      split at h
      · rename_i r s' hexec
        exact .inr ⟨tid, c, o, k, ℓ, r, s', rfl, hth, hexec, (Option.some.inj h).symm⟩
      · cases h
    · cases h

/-- A step whose label meets the condition `K` in the pool it is taken from. -/
def StepIn (K : Label C S → Pool Op Res α σ L → Prop) (p p' : Pool Op Res α σ L) : Prop :=
  ∃ l, K l p ∧ M.step l p = some p'

/-- `p'` is reached from `p` by steps that all meet the condition `K`. -/
def Reach (K : Label C S → Pool Op Res α σ L → Prop) :
    Pool Op Res α σ L → Pool Op Res α σ L → Prop :=
  Relation.ReflTransGen (M.StepIn K)

/-- Perform the given steps in order. -/
def run : List (Label C S) → Pool Op Res α σ L → Option (Pool Op Res α σ L)
  | [], p => some p
  | l :: ls, p => (M.step l p).bind (run ls)

/-- The given steps, each with the pool it is taken from. -/
def steps : List (Label C S) → Pool Op Res α σ L → List (Pool Op Res α σ L × Label C S)
  | [], _ => []
  | l :: ls, p =>
    match M.step l p with
    | none => [(p, l)]
    | some q => (p, l) :: steps ls q

theorem label_mem_of_mem_steps {M : System Op Res α σ L C S} {ls : List (Label C S)}
    {p : Pool Op Res α σ L} {x : Pool Op Res α σ L × Label C S} (h : x ∈ M.steps ls p) :
    x.2 ∈ ls := by
  induction ls generalizing p with
  | nil => cases h
  | cons l ls ih =>
    simp only [steps] at h
    split at h
    · rw [List.mem_singleton.mp h]
      exact List.mem_cons_self
    · rcases List.mem_cons.mp h with rfl | h
      · exact List.mem_cons_self
      · exact List.mem_cons_of_mem _ (ih h)

/-- A list of steps that all meet the condition leads to what is reachable under it. -/
theorem reach_of_steps {M : System Op Res α σ L C S}
    {K : Label C S → Pool Op Res α σ L → Prop} {ls : List (Label C S)}
    {p p' : Pool Op Res α σ L} (h : M.run ls p = some p')
    (hK : ∀ x ∈ M.steps ls p, K x.2 x.1) : M.Reach K p p' := by
  induction ls generalizing p with
  | nil =>
    cases h
    exact .refl
  | cons l ls ih =>
    obtain ⟨q, hq, hrest⟩ := Option.bind_eq_some_iff.mp h
    simp only [steps, hq, List.forall_mem_cons] at hK
    exact .head ⟨l, hK.1, hq⟩ (ih hrest hK.2)

/-- What a list of steps leads to is reachable. -/
theorem reach_of_run {M : System Op Res α σ L C S} {ls : List (Label C S)}
    {p p' : Pool Op Res α σ L} (h : M.run ls p = some p') :
    M.Reach (fun _ _ => True) p p' :=
  reach_of_steps h fun _ _ => trivial

/-- So is it under a condition that the steps meet wherever they are taken. -/
theorem reach_of_labels {M : System Op Res α σ L C S}
    {K : Label C S → Pool Op Res α σ L → Prop} {ls : List (Label C S)}
    {p p' : Pool Op Res α σ L} (h : M.run ls p = some p') (hK : ∀ l ∈ ls, ∀ q, K l q) :
    M.Reach K p p' := by
  induction ls generalizing p with
  | nil =>
    cases h
    exact .refl
  | cons l ls ih =>
    obtain ⟨q, hq, hrest⟩ := Option.bind_eq_some_iff.mp h
    obtain ⟨hl, hls⟩ := List.forall_mem_cons.mp hK
    exact .head ⟨l, hl p, hq⟩ (ih hrest hls)

/-- A property of pools and the steps taken so far that every step keeps holds before each
    step of a run. -/
theorem before_step {M : System Op Res α σ L C S}
    {P : Pool Op Res α σ L → List (Pool Op Res α σ L × Label C S) → Prop}
    (hstep : ∀ q l q' past, P q past → M.step l q = some q' → P q' (past ++ [(q, l)]))
    {ls : List (Label C S)} {p q : Pool Op Res α σ L} {l : Label C S}
    {before past after : List (Pool Op Res α σ L × Label C S)} (hp : P p past)
    (h : M.steps ls p = before ++ (q, l) :: after) : P q (past ++ before) := by
  induction ls generalizing p past before with
  | nil => simp [steps] at h
  | cons l' ls ih =>
    simp only [steps] at h
    cases before with
    | nil =>
      -- the first step
      have hfirst : p = q := by
        split at h <;> simp only [List.nil_append, List.cons.injEq, Prod.mk.injEq] at h <;> exact h.1.1
      simpa [hfirst] using hp
    | cons x before =>
      -- the first step is `x`, and the others are those of the rest of the run
      split at h
      · simp at h
      · rename_i p' hp'
        simp only [List.cons_append, List.cons.injEq] at h
        obtain ⟨rfl, h⟩ := h
        simpa using ih (hstep p l' p' past hp hp') h

/-- What every step of a run keeps, given the steps before it, holds at its end. -/
theorem after_run {M : System Op Res α σ L C S}
    {P : List (Pool Op Res α σ L × Label C S) → Pool Op Res α σ L → Prop}
    {K : List (Pool Op Res α σ L × Label C S) → Pool Op Res α σ L → Label C S → Prop}
    (hstep : ∀ past q l q', P past q → K past q l → M.step l q = some q' → P (past ++ [(q, l)]) q')
    {ls : List (Label C S)} {p p' : Pool Op Res α σ L}
    {past : List (Pool Op Res α σ L × Label C S)} (hp : P past p) (h : M.run ls p = some p')
    (hK : ∀ before q l after, M.steps ls p = before ++ (q, l) :: after → K (past ++ before) q l) :
    P (past ++ M.steps ls p) p' := by
  induction ls generalizing p past with
  | nil =>
    cases h
    simpa [steps] using hp
  | cons l ls ih =>
    obtain ⟨q, hq, hrest⟩ := Option.bind_eq_some_iff.mp h
    have hsteps : M.steps (l :: ls) p = (p, l) :: M.steps ls q := by simp only [steps, hq]
    have hfirst := hstep past p l q hp (by simpa using hK [] p l _ hsteps) hq
    rw [hsteps, List.append_cons]
    apply ih hfirst hrest
    intro before q' l' after heq
    have hlater := hK ((p, l) :: before) q' l' after (by rw [hsteps, heq, List.cons_append])
    rwa [List.append_cons] at hlater

/-- A step leaves alone the threads that it is not about. -/
theorem threads_of_step {M : System Op Res α σ L C S} {l : Label C S} {p p' : Pool Op Res α σ L}
    {tid : Nat} (h : M.step l p = some p') (hl : l.tid ≠ tid) : p'.threads tid = p.threads tid := by
  rcases step_cases h with ⟨tid', x, th, rfl, -, -, rfl⟩ |
    ⟨tid', c, o, k, ℓ, r, s', rfl, -, -, rfl⟩
  · exact Function.update_of_ne (Ne.symm hl) _ _
  · exact Function.update_of_ne (Ne.symm hl) _ _

/-- So does a run, at its end and before each of its steps. -/
theorem threads_of_run {M : System Op Res α σ L C S} {ls : List (Label C S)}
    {p p' : Pool Op Res α σ L} {tid : Nat} (h : M.run ls p = some p')
    (hls : ∀ l ∈ ls, l.tid ≠ tid) :
    p'.threads tid = p.threads tid ∧ ∀ x ∈ M.steps ls p, x.1.threads tid = p.threads tid := by
  induction ls generalizing p with
  | nil =>
    cases h
    exact ⟨rfl, fun x hx => by cases hx⟩
  | cons l ls ih =>
    obtain ⟨q, hq, hrest⟩ := Option.bind_eq_some_iff.mp h
    obtain ⟨hl, hls⟩ := List.forall_mem_cons.mp hls
    obtain ⟨hend, hsteps⟩ := ih hrest hls
    have hsame := threads_of_step hq hl
    refine ⟨hend.trans hsame, fun x hx => ?_⟩
    simp only [steps, hq] at hx
    rcases List.mem_cons.mp hx with rfl | hx
    · rfl
    · exact (hsteps x hx).trans hsame

/-- Every step of a run can be taken. -/
theorem step_of_mem_steps {M : System Op Res α σ L C S} {ls : List (Label C S)}
    {p p' q : Pool Op Res α σ L} {l : Label C S} (h : M.run ls p = some p')
    (hmem : (q, l) ∈ M.steps ls p) : ∃ q', M.step l q = some q' := by
  induction ls generalizing p with
  | nil => cases hmem
  | cons l' ls ih =>
    obtain ⟨p₁, hp₁, hrest⟩ := Option.bind_eq_some_iff.mp h
    simp only [steps, hp₁, List.mem_cons, Prod.mk.injEq] at hmem
    rcases hmem with ⟨rfl, rfl⟩ | hmem
    · exact ⟨p₁, hp₁⟩
    · exact ih hrest hmem

/-- Runs under a stronger condition are runs under a weaker one. -/
theorem Reach.mono {M : System Op Res α σ L C S} {K K' : Label C S → Pool Op Res α σ L → Prop}
    {p p' : Pool Op Res α σ L} (h : M.Reach K p p') (hK : ∀ l q, K l q → K' l q) :
    M.Reach K' p p' := by
  refine Relation.ReflTransGen.mono ?_ _ _ h
  rintro q q' ⟨l, hl, hs⟩
  exact ⟨l, hK l q hl, hs⟩

/-- What every step under the condition keeps, a run under the condition keeps. -/
theorem Reach.keeps {M : System Op Res α σ L C S} {K : Label C S → Pool Op Res α σ L → Prop}
    {I : Pool Op Res α σ L → Prop} (hI : ∀ l q q', K l q → I q → M.step l q = some q' → I q')
    {p p' : Pool Op Res α σ L} (h : M.Reach K p p') (hp : I p) : I p' := by
  induction h with
  | refl => exact hp
  | tail _ hs ih =>
    obtain ⟨l, hK, hstep⟩ := hs
    exact hI l _ _ hK ih hstep

/-- What a step does to one thread: nothing, or it is the next operation of this thread. -/
theorem thread_of_step {M : System Op Res α σ L C S} {l : Label C S} {p p' : Pool Op Res α σ L}
    {tid : Nat} {th : Thread Op Res α L} (h : M.step l p = some p') (hth : p.threads tid = some th) :
    p'.threads tid = some th ∨
    ∃ c o k ℓ r, l = .op tid c ∧ th = ⟨.op o k, ℓ⟩ ∧
      M.exec o c p.shared = some (r, p'.shared) ∧ p'.threads tid = some ⟨k r, M.next ℓ o r⟩ := by
  rcases step_cases h with ⟨tid', x, th', -, hnone, -, rfl⟩ |
    ⟨tid', c, o, k, ℓ, r, s', rfl, hop, hexec, rfl⟩
  · have hne : tid ≠ tid' := by
      rintro rfl
      rw [hnone] at hth
      cases hth
    exact .inl ((Function.update_of_ne hne _ _).trans hth)
  · rcases eq_or_ne tid tid' with rfl | hne
    · rw [hop] at hth
      cases hth
      exact .inr ⟨c, o, k, ℓ, r, rfl, rfl, hexec, Function.update_self ..⟩
    · exact .inl ((Function.update_of_ne hne _ _).trans hth)

/-- A thread that has ended stays as it is. -/
theorem ended_of_step {M : System Op Res α σ L C S} {l : Label C S} {p p' : Pool Op Res α σ L}
    {tid : Nat} {a : α} {ℓ : L} (h : M.step l p = some p')
    (hth : p.threads tid = some ⟨.pure a, ℓ⟩) : p'.threads tid = some ⟨.pure a, ℓ⟩ := by
  rcases thread_of_step h hth with hsame | ⟨c, o, k, ℓ', r, -, heq, -⟩
  · exact hsame
  · cases heq

/-! ## Disciplines and the invariant rule -/

/-- The program follows the discipline `allowed` from the local data `ℓ`, and where it
    ends, its local data satisfies `final`. -/
def Follows (allowed : L → Op → Prop) (final : L → Prop) (p : Prog Op Res α) (ℓ : L) : Prop :=
  p.wp allowed (fun o ℓ r ℓ' => ℓ' = M.next ℓ o r) (fun _ => final) ℓ

/-- Every thread of the pool follows the discipline. -/
def Disciplined (allowed : L → Op → Prop) (final : L → Prop) (p : Pool Op Res α σ L) : Prop :=
  ∀ tid th, p.threads tid = some th → M.Follows allowed final th.prog th.loc

variable {M} {allowed : L → Op → Prop} {final : L → Prop}

theorem Follows.op_iff {o : Op} {k : Res o → Prog Op Res α} {ℓ : L} :
    M.Follows allowed final (.op o k) ℓ ↔
      allowed ℓ o ∧ ∀ r, M.Follows allowed final (k r) (M.next ℓ o r) := by
  simp only [Follows, Prog.wp_op, forall_eq]

/-- Replacing one thread by a disciplined one keeps the pool disciplined. -/
theorem Disciplined.update {p : Pool Op Res α σ L} (h : M.Disciplined allowed final p)
    {th : Thread Op Res α L} (hth : M.Follows allowed final th.prog th.loc) (tid : Nat) (s : σ) :
    M.Disciplined allowed final ⟨s, Function.update p.threads tid (some th)⟩ := by
  intro tid' th' h'
  -- the replaced thread, and the others
  rcases update_eq_some h' with ⟨-, hnew⟩ | ⟨-, hold⟩
  · cases hnew
    exact hth
  · exact h tid' th' hold

/-- **The invariant rule**: if every thread that can start follows the discipline, an
    invariant that new threads keep and that permitted operations keep holds, together
    with the discipline, in every pool reached. -/
theorem invariant {K : Label C S → Pool Op Res α σ L → Prop} {I : Pool Op Res α σ L → Prop}
    (hfollows : ∀ x s th, M.spawn x s = some th → M.Follows allowed final th.prog th.loc)
    (hspawn : ∀ p tid x th, M.Disciplined allowed final p → I p → K (.spawn tid x) p →
      p.threads tid = none → M.spawn x p.shared = some th →
      I ⟨p.shared, Function.update p.threads tid (some th)⟩)
    (hop : ∀ p tid c o k ℓ r s', M.Disciplined allowed final p → I p → K (.op tid c) p →
      p.threads tid = some ⟨.op o k, ℓ⟩ → allowed ℓ o → M.exec o c p.shared = some (r, s') →
      I ⟨s', Function.update p.threads tid (some ⟨k r, M.next ℓ o r⟩)⟩)
    {p p' : Pool Op Res α σ L} (hd : M.Disciplined allowed final p) (hi : I p)
    (h : M.Reach K p p') : M.Disciplined allowed final p' ∧ I p' := by
  induction h with
  | refl => exact ⟨hd, hi⟩
  | tail _ hs ih =>
    obtain ⟨hd, hi⟩ := ih
    obtain ⟨l, hK, hstep⟩ := hs
    -- a new thread, or an operation that the discipline of its thread permits
    rcases step_cases hstep with ⟨tid, x, th, rfl, hnone, hsp, rfl⟩ |
      ⟨tid, c, o, k, ℓ, r, s', rfl, hth, hex, rfl⟩
    · exact ⟨hd.update (hfollows x _ th hsp) tid _, hspawn _ tid x th hd hi hK hnone hsp⟩
    · have hop' := Follows.op_iff.mp (hd tid _ hth)
      exact ⟨hd.update (hop'.2 r) tid _, hop _ tid c o k ℓ r s' hd hi hK hth hop'.1 hex⟩

end System

end AtomicProgram
