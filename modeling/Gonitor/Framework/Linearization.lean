import Gonitor.Framework.GhostData

/-!
# Linearization

What a shared state is for may be simpler than the state, and the change that a thread is started for
simpler than its program.  A run is *linearized* if every step either leaves alone what the shared
state shows, or makes the change of its thread, and makes it for the only time.

Local data may tell which change a thread has in mind, and whether it has been made.  Where every
operation does what the local data of its thread say, every run is linearized.

## Main Results

- `SamePrograms.linearized`: from one operation to runs, also of a system without these local data.
-/

namespace AtomicProgram

variable {Op : Type} {Res : Op → Type} {α σ L L' C S B I : Type}

/-! ## Linearized runs -/

/-- What the shared state shows, how it changes, and which change a thread is started for. -/
structure Purpose (σ S B I : Type) where
  shows : σ → B
  Moves : I → B → B → Prop
  intent : S → Option I

/-- A step of a run, with the change that it makes. -/
structure Moment (Op : Type) (Res : Op → Type) (α σ L C S I : Type) where
  pool : Pool Op Res α σ L
  label : Label C S
  change : Option I

/-- The step without the change. -/
def Moment.taken (e : Moment Op Res α σ L C S I) : Pool Op Res α σ L × Label C S := (e.pool, e.label)

/-- The run that leads from `p₀` to a pool is linearized. -/
inductive Linearized (M : System Op Res α σ L C S) (P : Purpose σ S B I) (p₀ : Pool Op Res α σ L) :
    List (Moment Op Res α σ L C S I) → Pool Op Res α σ L → Prop
  | nil : Linearized M P p₀ [] p₀
  /-- The step leaves alone what is shown. -/
  | silent {history : List (Moment Op Res α σ L C S I)} {p p' : Pool Op Res α σ L} {l : Label C S} :
      Linearized M P p₀ history p → M.step l p = some p' → P.shows p'.shared = P.shows p.shared →
      Linearized M P p₀ (history ++ [⟨p, l, none⟩]) p'
  /-- The step makes the change that its thread was started for, for the first time. -/
  | change {history : List (Moment Op Res α σ L C S I)} {p p' : Pool Op Res α σ L} {l : Label C S}
      {x : S} {i : I} :
      Linearized M P p₀ history p → M.step l p = some p' →
      (∃ e ∈ history, e.label = .spawn l.tid x) → P.intent x = some i →
      (∀ e ∈ history, e.label.tid = l.tid → e.change = none) →
      P.Moves i (P.shows p.shared) (P.shows p'.shared) →
      Linearized M P p₀ (history ++ [⟨p, l, some i⟩]) p'

/-- The thread has made its change. -/
def Changed (history : List (Moment Op Res α σ L C S I)) (tid : Nat) : Prop :=
  ∃ e ∈ history, e.label.tid = tid ∧ e.change.isSome = true

theorem changed_append {history : List (Moment Op Res α σ L C S I)} {e : Moment Op Res α σ L C S I}
    {tid : Nat} : Changed (history ++ [e]) tid ↔
      Changed history tid ∨ (e.label.tid = tid ∧ e.change.isSome = true) := by
  simp [Changed, or_and_right, exists_or]

/-! ## Local data that tell the changes -/

section Telling

variable (P : Purpose σ S B I) (asks : L' → Option I) (done : L' → Bool)

/-- An operation leaves alone what is shown, or makes the change that its thread has in mind. -/
structure Turn (ℓ ℓ' : L') (s s' : σ) : Prop where
  same : asks ℓ' = asks ℓ
  shows : (P.shows s' = P.shows s ∧ done ℓ' = done ℓ) ∨
    (done ℓ = false ∧ done ℓ' = true ∧ ∃ i, asks ℓ = some i ∧ P.Moves i (P.shows s) (P.shows s'))

/-- The local data tell the changes, as long as the steps meet `K`. -/
structure Tells (M' : System Op Res α σ L' C S) (K : Label C S → Pool Op Res α σ L' → Prop)
    (Inv : Pool Op Res α σ L' → Prop) : Prop where
  spawn : ∀ x s th, M'.spawn x s = some th → asks th.loc = P.intent x ∧ done th.loc = false
  keeps : ∀ l q q', K l q → Inv q → M'.step l q = some q' → Inv q'
  turn : ∀ q tid c o k ℓ r s', Inv q → K (.op tid c) q → q.threads tid = some ⟨.op o k, ℓ⟩ →
    M'.exec o c q.shared = some (r, s') → Turn P asks done ℓ (M'.next ℓ o r) q.shared s'

/-- The local data of all threads agree with the steps so far. -/
structure Recorded (history : List (Moment Op Res α σ L C S I)) (q : Pool Op Res α σ L') : Prop where
  known : ∀ e ∈ history, (q.threads e.label.tid).isSome = true
  spawned : ∀ tid th, q.threads tid = some th → ∃ e ∈ history, ∃ x, e.label = .spawn tid x
  asks : ∀ e ∈ history, ∀ tid x th, e.label = .spawn tid x → q.threads tid = some th →
    asks th.loc = P.intent x
  done : ∀ tid th, q.threads tid = some th → (done th.loc = true ↔ Changed history tid)

end Telling

/-- A run has taken the steps that it was told to take. -/
theorem System.labels_of_run {M : System Op Res α σ L C S} {ls : List (Label C S)}
    {p p' : Pool Op Res α σ L} (h : M.run ls p = some p') : (M.steps ls p).map Prod.snd = ls := by
  induction ls generalizing p with
  | nil => rfl
  | cons l ls ih =>
    obtain ⟨q, hq, hrest⟩ := Option.bind_eq_some_iff.mp h
    simp only [steps, hq, List.map_cons, ih hrest]

variable {P : Purpose σ S B I} {asks : L' → Option I} {done : L' → Bool}
  {history : List (Moment Op Res α σ L C S I)} {p : Pool Op Res α σ L} {q : Pool Op Res α σ L'}
  {tid : Nat}

/-- Nothing has been done yet. -/
theorem Recorded.nil (hnone : ∀ tid, q.threads tid = none) :
    Recorded P asks done ([] : List (Moment Op Res α σ L C S I)) q where
  known _ he := nomatch he
  spawned tid th hth := by
    rw [hnone tid] at hth
    cases hth
  asks _ he := nomatch he
  done tid th hth := by
    rw [hnone tid] at hth
    cases hth

/-- A thread is started with a change in mind that has not been made. -/
theorem Recorded.spawn (h : Recorded P asks done history q) (hnone : q.threads tid = none) {x : S}
    {th : Thread Op Res α L'} (hasks : asks th.loc = P.intent x) (hdone : done th.loc = false) :
    Recorded P asks done (history ++ [⟨p, .spawn tid x, none⟩])
      ⟨q.shared, Function.update q.threads tid (some th)⟩ := by
  -- the number is that of no earlier step
  have hfresh : ∀ e ∈ history, e.label.tid ≠ tid := by
    rintro e he rfl
    have hknown := h.known e he
    rw [hnone] at hknown
    cases hknown
  have hlabel : ∀ e ∈ history, ∀ y, e.label ≠ .spawn tid y := fun e he y heq =>
    hfresh e he (congrArg Label.tid heq)
  constructor
  · intro e he
    rcases List.mem_append.mp he with he | he
    · simpa only [Function.update_of_ne (hfresh e he)] using h.known e he
    · rw [List.mem_singleton.mp he]
      simp [Label.tid]
  · intro j th' hj
    rcases update_eq_some hj with ⟨rfl, -⟩ | ⟨-, hj⟩
    · exact ⟨_, List.mem_append_right _ (List.mem_singleton_self _), x, rfl⟩
    · obtain ⟨e, he, hx⟩ := h.spawned j th' hj
      exact ⟨e, List.mem_append_left _ he, hx⟩
  · intro e he j y th' hy hj
    rcases List.mem_append.mp he with hold | hnew
    · rcases update_eq_some hj with ⟨rfl, -⟩ | ⟨-, hj⟩
      · exact absurd hy (hlabel e hold y)
      · exact h.asks e hold j y th' hy hj
    · rw [List.mem_singleton.mp hnew] at hy
      cases hy
      rcases update_eq_some hj with ⟨-, hnew⟩ | ⟨hne, -⟩
      · cases hnew
        exact hasks
      · exact absurd rfl hne
  · intro j th' hj
    rw [changed_append]
    rcases update_eq_some hj with ⟨rfl, hnew⟩ | ⟨-, hj⟩
    · cases hnew
      have hnot : ¬ Changed history j := fun ⟨e, he, htid, _⟩ => hfresh e he htid
      simp [hdone, hnot]
    · simp [h.done j th' hj]

/-- An operation of a thread that makes the change `i`, or none. -/
theorem Recorded.op (h : Recorded P asks done history q) {o : Op} {k : Res o → Prog Op Res α} {ℓ ℓ' : L'}
    (hth : q.threads tid = some ⟨.op o k, ℓ⟩) (hasks : asks ℓ' = asks ℓ) {i : Option I}
    (hdone : done ℓ' = true ↔ done ℓ = true ∨ i.isSome = true) {c : C} {s' : σ}
    {prog : Prog Op Res α} :
    Recorded P asks done (history ++ [⟨p, .op tid c, i⟩])
      ⟨s', Function.update q.threads tid (some ⟨prog, ℓ'⟩)⟩ := by
  -- the steps before are those of the same threads
  have hbefore : ∀ j th', Function.update q.threads tid (some ⟨prog, ℓ'⟩) j = some th' →
      ∃ th, q.threads j = some th ∧ asks th'.loc = asks th.loc := by
    intro j th' hj
    rcases update_eq_some hj with ⟨rfl, hnew⟩ | ⟨-, hj⟩
    · cases hnew
      exact ⟨_, hth, hasks⟩
    · exact ⟨th', hj, rfl⟩
  constructor
  · intro e he
    have hknown : (q.threads e.label.tid).isSome = true := by
      rcases List.mem_append.mp he with he | he
      · exact h.known e he
      · rw [List.mem_singleton.mp he]
        simp [Label.tid, hth]
    rcases eq_or_ne e.label.tid tid with heq | hne
    · simp [heq]
    · simpa only [Function.update_of_ne hne] using hknown
  · intro j th' hj
    obtain ⟨th, hj, -⟩ := hbefore j th' hj
    obtain ⟨e, he, hx⟩ := h.spawned j th hj
    exact ⟨e, List.mem_append_left _ he, hx⟩
  · intro e he j y th' hy hj
    obtain ⟨th, hj, heq⟩ := hbefore j th' hj
    rcases List.mem_append.mp he with he | he
    · exact heq.trans (h.asks e he j y th hy hj)
    · rw [List.mem_singleton.mp he] at hy
      cases hy
  · intro j th' hj
    rw [changed_append]
    rcases update_eq_some hj with ⟨rfl, hnew⟩ | ⟨hne, hj⟩
    · cases hnew
      rw [hdone, h.done j _ hth]
      simp [Label.tid]
    · simp [h.done j th' hj, Label.tid, Ne.symm hne]

/-- One step, of a system and of the one with the local data. -/
theorem Tells.step {M : System Op Res α σ L C S} {M' : System Op Res α σ L' C S}
    {K : Label C S → Pool Op Res α σ L' → Prop} {Inv : Pool Op Res α σ L' → Prop}
    (hT : Tells P asks done M' K Inv) {p₀ p' : Pool Op Res α σ L} {q' : Pool Op Res α σ L'}
    (hlin : Linearized M P p₀ history p) (hsame : SamePrograms p q) (hsame' : SamePrograms p' q')
    (hinv : Inv q) (hrec : Recorded P asks done history q) {l : Label C S}
    (hstep : M.step l p = some p') (hstep' : M'.step l q = some q') (hK : K l q) :
    ∃ i, Linearized M P p₀ (history ++ [⟨p, l, i⟩]) p' ∧
      Recorded P asks done (history ++ [⟨p, l, i⟩]) q' := by
  rcases System.step_cases hstep' with ⟨tid, x, th, rfl, hnone, hspawn, rfl⟩ |
    ⟨tid, c, o, k, ℓ, r, s', rfl, hth, hexec, rfl⟩
  · obtain ⟨hasks, hdone⟩ := hT.spawn x _ th hspawn
    refine ⟨none, hlin.silent hstep ?_, hrec.spawn hnone hasks hdone⟩
    rw [← hsame'.shared, ← hsame.shared]
  · have hturn := hT.turn q tid c o k ℓ r s' hinv hK hth hexec
    have hshared : p'.shared = s' := hsame'.shared.symm
    rcases hturn.shows with ⟨hshows, hdone⟩ | ⟨hfalse, htrue, i, hi, hmoves⟩
    · refine ⟨none, hlin.silent hstep ?_, hrec.op hth hturn.same (by simp [hdone])⟩
      rw [hshared, hshows, hsame.shared]
    · -- the thread was started for this change, and has not made it yet
      obtain ⟨e, he, x, hx⟩ := hrec.spawned tid _ hth
      have hintent : P.intent x = some i := (hrec.asks e he tid x _ hx hth).symm.trans hi
      have hnot : ¬ Changed history tid := by
        rw [← hrec.done tid _ hth, hfalse]
        exact Bool.false_ne_true
      refine ⟨some i, hlin.change hstep ⟨e, he, hx⟩ hintent ?_ ?_,
        hrec.op hth hturn.same (by simp [htrue])⟩
      · intro e' he' htid
        by_contra hne
        exact hnot ⟨e', he', htid, Option.isSome_iff_ne_none.mpr hne⟩
      · rw [hshared, ← hsame.shared]
        exact hmoves

/-- The steps of the past are linearized, and local data agree with them. -/
def Told (P : Purpose σ S B I) (asks : L' → Option I) (done : L' → Bool) (M : System Op Res α σ L C S)
    (Inv : Pool Op Res α σ L' → Prop) (p₀ : Pool Op Res α σ L)
    (past : List (Pool Op Res α σ L × Label C S)) (p : Pool Op Res α σ L) : Prop :=
  ∃ (history : List (Moment Op Res α σ L C S I)) (q : Pool Op Res α σ L'),
    history.map Moment.taken = past ∧ Linearized M P p₀ history p ∧ SamePrograms p q ∧ Inv q ∧
    Recorded P asks done history q

/-- **Runs are linearized** where local data tell the changes, and agree with what has been done. -/
theorem SamePrograms.linearized {M : System Op Res α σ L C S} {M' : System Op Res α σ L' C S}
    {K : Label C S → Pool Op Res α σ L → Prop} {K' : Label C S → Pool Op Res α σ L' → Prop}
    {Inv : Pool Op Res α σ L' → Prop} (hM : SameSystem M M') (hT : Tells P asks done M' K' Inv)
    (hK : ∀ l p q, SamePrograms p q → K l p → K' l q) {p' : Pool Op Res α σ L}
    (hsame : SamePrograms p q) (hinv : Inv q) (hnone : ∀ tid, q.threads tid = none)
    {ls : List (Label C S)} (hrun : M.run ls p = some p') (hsteps : ∀ x ∈ M.steps ls p, K x.2 x.1) :
    Told P asks done M Inv p (M.steps ls p) p' := by
  have hstart : Told P asks done M Inv p [] p :=
    ⟨[], q, rfl, .nil, hsame, hinv, .nil hnone⟩
  have htold := System.after_run (K := fun _ p l => K l p) ?_ hstart hrun ?_
  · rwa [List.nil_append] at htold
  · rintro past p₁ l p₂ ⟨history, q₁, hpast, hlin, hsame₁, hinv₁, hrec⟩ hl hstep
    have hl' := hK l p₁ q₁ hsame₁ hl
    obtain ⟨q₂, hstep', hsame₂⟩ := hsame₁.step hM hstep
    obtain ⟨i, hlin', hrec'⟩ := hT.step hlin hsame₁ hsame₂ hinv₁ hrec hstep hstep' hl'
    refine ⟨_, q₂, ?_, hlin', hsame₂, hT.keeps l q₁ q₂ hl' hinv₁ hstep', hrec'⟩
    rw [List.map_append, hpast]
    rfl
  · intro before p₁ l after heq
    exact hsteps (p₁, l) (by simp [heq])

end AtomicProgram
