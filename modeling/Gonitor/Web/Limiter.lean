import Gonitor.Framework.AtomicProgram
import Gonitor.Framework.LabelledTraces
import Gonitor.Framework.RateLimit
import Mathlib.Data.Rat.Floor
import Mathlib.Tactic.NormNum

/-!
# The Keyed Limiter

`web/component/limiter`, for one key: a map that holds the limiter of the key, `NewLimiter`, which loads
it or stores a new one, `Allow`, and the goroutine that deletes what has not been used for a minute.
What a single limiter allows is left to the package `rate`.

A step is one access to the map or to the time of the last use, or one call of the package.  Time is
counted in seconds, from the epoch.

## Main Results

- `enforces_rate`: the rate is kept in every run in which a limiter is only stored where there is none,
  only the limiter in the map is used, and it is only deleted after a pause in which its bucket has been
  filled again.
- `concurrent_uses_exceed`: two requests at once, for a key without a limiter, get a burst each.
-/

namespace Gonitor.Web.Limiters

open LabelledTraces RateLimit
open AtomicProgram (update_eq_some)

/-- The arguments of `NewLimiter` for the key: events in a second, and the burst. -/
structure Quota where
  rate : ℚ
  burst : Nat
  rate_nonneg : 0 ≤ rate

/-- `type Limiter`, and the times of the calls that its limiter has had, which nothing looks at. -/
structure KeyLimiter (σ : Type) where
  limiter : σ
  lastGet : ℚ
  calls : List ℚ := []

/-- Where `clearLimiter` is, if it has been started: in its sleep, ahead of the look at the limiter that
    it ranges over, or ahead of its deletion. -/
inductive Sweeper
  | off
  | sleeping (wakes : ℚ)
  | visiting (o : Nat)
  | deleting

/-- The entry of the map, the limiters, and who is inside: calls of `NewLimiter` with a limiter of their
    own, by the time of its creation, and calls of `Allow` that have noted the time.  The times of the
    calls that have been allowed are not part of the program. -/
structure State (σ : Type) where
  now : ℚ
  limiters : Option Nat := none
  objects : Nat → Option (KeyLimiter σ) := fun _ => none
  getters : Nat → Option ℚ := fun _ => none
  callers : Nat → Option Nat := fun _ => none
  sweeper : Sweeper := .off
  allowed : List ℚ := []

/-- What happens in a step. -/
inductive Label
  | load (n : Nat)
  | store (n o : Nat)
  | touch (c o : Nat)
  | allow (c : Nat)
  | visit
  | look
  | delete
  | wait (d : ℚ)

/-! ## Steps -/

namespace State

variable {σ : Type} (s : State σ)

/-- `once.Do` -/
def startSweeper : Sweeper :=
  match s.sweeper with
  | .off => .sleeping (s.now + 60)
  | sweeper => sweeper

/-- `NewLimiter` up to the `Load`, and the creation of a limiter if there is none. -/
def load (n : Nat) : State σ :=
  { s with
    sweeper := s.startSweeper
    getters := if s.limiters = none then Function.update s.getters n (some s.now) else s.getters }

/-- `Store` -/
def store (new : σ) (n o : Nat) (lastGet : ℚ) : State σ :=
  { s with
    limiters := some o
    objects := Function.update s.objects o (some { limiter := new, lastGet })
    getters := Function.update s.getters n none }

/-- `l.lastGet = time.Now()` -/
def touch (c o : Nat) (l : KeyLimiter σ) : State σ :=
  { s with
    objects := Function.update s.objects o (some { l with lastGet := s.now })
    callers := Function.update s.callers c (some o) }

/-- `l.limiter.Allow()` -/
def allow (result : Bool × σ) (c o : Nat) (l : KeyLimiter σ) : State σ :=
  { s with
    objects := Function.update s.objects o
      (some { l with limiter := result.2, calls := s.now :: l.calls })
    callers := Function.update s.callers c none
    allowed := if result.1 then s.now :: s.allowed else s.allowed }

/-- `Range` comes to the entry, if there is one. -/
def visit : State σ :=
  { s with
    sweeper := match s.limiters with
      | some o => .visiting o
      | none => .sleeping (s.now + 60) }

/-- `time.Now().Unix()-value.(*Limiter).lastGet.Unix() > 60` -/
def look (l : KeyLimiter σ) : State σ :=
  { s with
    sweeper := if ⌊s.now⌋ - ⌊l.lastGet⌋ > 60 then .deleting else .sleeping (s.now + 60) }

/-- `ls.limiters.Delete(key)` -/
def delete : State σ := { s with limiters := none, sweeper := .sleeping (s.now + 60) }

end State

/-- One step. -/
def step {q : Quota} (lim : Limiter q.rate q.burst) : Label → State lim.σ → Option (State lim.σ)
  | .load n, s => if s.getters n = none then some (s.load n) else none
  | .store n o, s =>
    match s.getters n, s.objects o with
    | some lastGet, none => some (s.store lim.new n o lastGet)
    | _, _ => none
  | .touch c o, s =>
    match s.callers c, s.objects o with
    | none, some l => some (s.touch c o l)
    | _, _ => none
  | .allow c, s =>
    match s.callers c with
    | some o =>
      match s.objects o with
      | some l => some (s.allow (lim.allow s.now l.limiter) c o l)
      | none => none
    | none => none
  | .visit, s =>
    match s.sweeper with
    | .sleeping wakes => if wakes ≤ s.now then some s.visit else none
    | _ => none
  | .look, s =>
    match s.sweeper with
    | .visiting o =>
      match s.objects o with
      | some l => some (s.look l)
      | none => none
    | _ => none
  | .delete, s =>
    match s.sweeper with
    | .deleting => some s.delete
    | _ => none
  | .wait d, s => if 0 ≤ d then some { s with now := s.now + d } else none

/-- The calls that the limiter in the map has had. -/
def State.calls {σ : Type} (s : State σ) : List ℚ :=
  match s.limiters.bind s.objects with
  | some l => l.calls
  | none => []

section Steps

variable {q : Quota} {lim : Limiter q.rate q.burst}

/-- What a step has to respect: a limiter is only stored where there is none, only the limiter in the map
    is used, and it is only deleted after a pause in which the rate admits a whole burst. -/
def Orderly (lim : Limiter q.rate q.burst) (s : State lim.σ) : Label → Prop
  | .store _ _ => s.limiters = none
  | .allow c => s.callers c = s.limiters
  | .delete => ∀ t ∈ allowed lim.allow lim.new s.calls, q.burst ≤ q.rate * (s.now - t)
  | _ => True

variable {s s' : State lim.σ} {l : Label}

/-- The steps, each with what it needs. -/
inductive Step (lim : Limiter q.rate q.burst) (s : State lim.σ) : Label → State lim.σ → Prop
  | load {n : Nat} : Step lim s (.load n) (s.load n)
  | store {n o : Nat} {lastGet : ℚ} : s.getters n = some lastGet → s.objects o = none →
      Step lim s (.store n o) (s.store lim.new n o lastGet)
  | touch {c o : Nat} {l : KeyLimiter lim.σ} : s.callers c = none → s.objects o = some l →
      Step lim s (.touch c o) (s.touch c o l)
  | allow {c o : Nat} {l : KeyLimiter lim.σ} : s.callers c = some o → s.objects o = some l →
      Step lim s (.allow c) (s.allow (lim.allow s.now l.limiter) c o l)
  | visit : Step lim s .visit s.visit
  | look (l : KeyLimiter lim.σ) : Step lim s .look (s.look l)
  | delete : Step lim s .delete s.delete
  | wait {d : ℚ} : 0 ≤ d → Step lim s (.wait d) { s with now := s.now + d }

theorem step_cases (hstep : step lim l s = some s') : Step lim s l s' := by
  cases l with
  | load n =>
    simp only [step] at hstep
    split at hstep
    · cases hstep
      exact .load
    · cases hstep
  | store n o =>
    simp only [step] at hstep
    split at hstep
    · cases hstep
      exact .store ‹_› ‹_›
    · cases hstep
  | touch c o =>
    simp only [step] at hstep
    split at hstep
    · cases hstep
      exact .touch ‹_› ‹_›
    · cases hstep
  | allow c =>
    simp only [step] at hstep
    split at hstep
    · split at hstep
      · cases hstep
        exact .allow ‹_› ‹_›
      · cases hstep
    · cases hstep
  | visit =>
    simp only [step] at hstep
    split at hstep
    · split at hstep
      · cases hstep
        exact .visit
      · cases hstep
    · cases hstep
  | look =>
    simp only [step] at hstep
    split at hstep
    · split at hstep
      · cases hstep
        exact .look _
      · cases hstep
    · cases hstep
  | delete =>
    simp only [step] at hstep
    split at hstep
    · cases hstep
      exact .delete
    · cases hstep
  | wait d =>
    simp only [step] at hstep
    split at hstep
    · cases hstep
      exact .wait ‹_›
    · cases hstep

/-! ## What every step keeps -/

/-- The limiters are what their calls have made of them, and time does not go back. -/
def Sound (s : State lim.σ) : Prop :=
  ∀ o l, s.objects o = some l → l.limiter = after lim.allow lim.new l.calls ∧
    l.calls.Pairwise (· ≥ ·) ∧ ∀ t ∈ l.calls, t ≤ s.now

/-- What earlier limiters have allowed keeps the rate, and a whole burst has come back before the calls
    of the limiter in the map. -/
structure Separated (s : State lim.σ) (older : List ℚ) : Prop where
  eq : s.allowed = allowed lim.allow lim.new s.calls ++ older
  bound : RateBound q.rate q.burst older
  pause : ∀ t ∈ older, ∀ t' ∈ s.calls, q.burst ≤ q.rate * (t' - t)
  pause_now : ∀ t ∈ older, q.burst ≤ q.rate * (s.now - t)

theorem sound_of_step (h : Sound s) (hstep : step lim l s = some s') : Sound s' := by
  cases step_cases hstep with
  | load | visit | delete => exact h
  | look l => exact h
  | store hn ho =>
    intro o' l' hl'
    rcases update_eq_some hl' with ⟨rfl, hnew⟩ | ⟨-, hold⟩
    · cases hnew
      exact ⟨rfl, .nil, nofun⟩
    · exact h o' l' hold
  | touch hc ho =>
    intro o' l' hl'
    rcases update_eq_some hl' with ⟨rfl, hnew⟩ | ⟨-, hold⟩
    · have hl := h _ _ ho
      cases hnew
      exact hl
    · exact h o' l' hold
  | allow hc ho =>
    intro o' l' hl'
    rcases update_eq_some hl' with ⟨rfl, hnew⟩ | ⟨-, hold⟩
    · cases hnew
      obtain ⟨hlimiter, hsorted, hle⟩ := h o' _ ho
      refine ⟨?_, List.pairwise_cons.mpr ⟨hle, hsorted⟩, ?_⟩
      · rw [after, hlimiter]
      · intro t ht
        rcases List.mem_cons.mp ht with rfl | ht
        · exact le_refl _
        · exact hle t ht
    · exact h o' l' hold
  | wait hd =>
    intro o' l' hl'
    obtain ⟨hlimiter, hsorted, hle⟩ := h o' l' hl'
    exact ⟨hlimiter, hsorted, fun t ht => (hle t ht).trans (le_add_of_nonneg_right hd)⟩

theorem calls_of_none (h : s.limiters = none) : s.calls = [] := by simp [State.calls, h]

theorem calls_of_some {o : Nat} {l : KeyLimiter lim.σ} (h : s.limiters = some o)
    (ho : s.objects o = some l) : s.calls = l.calls := by simp [State.calls, h, ho]

/-- Noting the time is no call. -/
theorem calls_touch {c o : Nat} {l : KeyLimiter lim.σ} (ho : s.objects o = some l) :
    (s.touch c o l).calls = s.calls := by
  cases hlimiters : s.limiters with
  | none => simp [State.calls, State.touch, hlimiters]
  | some o' =>
    by_cases hsame : o' = o
    · subst hsame
      simp [State.calls, State.touch, hlimiters, ho]
    · simp [State.calls, State.touch, hlimiters, hsame]

theorem sorted_calls (hsound : Sound s) : s.calls.Pairwise (· ≥ ·) := by
  unfold State.calls
  split
  · rename_i l hl
    obtain ⟨o, -, ho⟩ := Option.bind_eq_some_iff.mp hl
    exact (hsound o l ho).2.1
  · exact .nil

/-- Limiters that are apart keep the rate together. -/
theorem rateBound_of_separated {older : List ℚ} (hsound : Sound s) (h : Separated s older) :
    RateBound q.rate q.burst s.allowed := by
  rw [h.eq]
  apply h.bound.append (lim.bounded _ (sorted_calls hsound))
  intro t ht t' ht'
  exact h.pause t ht t' (mem_of_mem_allowed _ _ ht')

/-- **A step that is orderly** keeps the limiters apart. -/
theorem separated_of_step {older : List ℚ} (hsound : Sound s) (h : Separated s older)
    (horderly : Orderly lim s l) (hstep : step lim l s = some s') : ∃ older', Separated s' older' := by
  cases step_cases hstep with
  | load | visit => exact ⟨older, h.eq, h.bound, h.pause, h.pause_now⟩
  | look l => exact ⟨older, h.eq, h.bound, h.pause, h.pause_now⟩
  | store hn ho =>
    rename_i n o lastGet
    have hcalls : (s.store lim.new n o lastGet).calls = [] := by simp [State.calls, State.store]
    have heq := h.eq
    rw [calls_of_none horderly] at heq
    exact ⟨older, by rw [hcalls]; exact heq, h.bound, by simp [hcalls], h.pause_now⟩
  | touch hc ho =>
    rename_i c o l
    have hcalls : (s.touch c o l).calls = s.calls := calls_touch ho
    exact ⟨older, by rw [hcalls]; exact h.eq, h.bound, by rw [hcalls]; exact h.pause, h.pause_now⟩
  | allow hc ho =>
    rename_i c o l
    have hlimiters : s.limiters = some o := horderly.symm.trans hc
    have hcalls := calls_of_some hlimiters ho
    have hcalls' : (s.allow (lim.allow s.now l.limiter) c o l).calls = s.now :: s.calls := by
      rw [hcalls]
      simp [State.calls, State.allow, hlimiters]
    refine ⟨older, ?_, h.bound, ?_, h.pause_now⟩
    · rw [hcalls', allowed, hcalls, ← (hsound o l ho).1, ← hcalls]
      simp only [State.allow, h.eq]
      split <;> rfl
    · intro t ht t' ht'
      rw [hcalls'] at ht'
      rcases List.mem_cons.mp ht' with rfl | ht'
      · exact h.pause_now t ht
      · exact h.pause t ht t' ht'
  | delete =>
    have hcalls : s.delete.calls = [] := calls_of_none rfl
    refine ⟨s.allowed, ?_, rateBound_of_separated hsound h, by simp [hcalls], fun t ht => ?_⟩
    · rw [hcalls]
      rfl
    · rw [h.eq] at ht
      rcases List.mem_append.mp ht with hcurrent | holder
      · exact horderly t hcurrent
      · exact h.pause_now t holder
  | wait hd =>
    refine ⟨older, h.eq, h.bound, h.pause, fun t ht => (h.pause_now t ht).trans ?_⟩
    exact mul_le_mul_of_nonneg_left (sub_le_sub_right (le_add_of_nonneg_right hd) t) q.rate_nonneg

/-- **The clean-up is orderly** if the rate admits a burst in a minute, and the last use has been noted
    after all calls. -/
theorem orderly_delete {o : Nat} {l : KeyLimiter lim.σ} (hlimiters : s.limiters = some o)
    (ho : s.objects o = some l) (hburst : q.burst ≤ q.rate * 60) (hlast : ∀ t ∈ l.calls, t ≤ l.lastGet)
    (hidle : ⌊s.now⌋ - ⌊l.lastGet⌋ > 60) : Orderly lim s .delete := by
  intro t ht
  rw [calls_of_some hlimiters ho] at ht
  have hbefore : t ≤ l.lastGet := hlast t (mem_of_mem_allowed _ _ ht)
  have hminute : 60 ≤ s.now - t := by
    have hfloor : (61 : ℚ) ≤ ⌊s.now⌋ - ⌊l.lastGet⌋ := by exact_mod_cast hidle
    have hnow := Int.floor_le s.now
    have hget := Int.lt_floor_add_one l.lastGet
    linarith
  exact hburst.trans (mul_le_mul_of_nonneg_left hminute q.rate_nonneg)

end Steps

/-! ## Runs -/

/-- **The rate is enforced**, in every run whose steps are orderly: no interval has more than a burst and
    the rate times its length of calls that are allowed. -/
theorem enforces_rate {q : Quota} {lim : Limiter q.rate q.burst} {now : ℚ}
    {past : List (State lim.σ × Label)} {s : State lim.σ} (htrace : Trace (step lim) { now } past s)
    (horderly : ∀ x ∈ past, Orderly lim x.1 x.2) : RateBound q.rate q.burst s.allowed := by
  have hstart : Sound ({ now } : State lim.σ) ∧ ∃ older, Separated ({ now } : State lim.σ) older := by
    refine ⟨nofun, [], rfl, rateBound_nil q.rate_nonneg, nofun, nofun⟩
  have hrun := htrace.always (P := fun t => Sound t ∧ ∃ older, Separated t older) (G := Orderly lim)
    (fun _ _ _ ⟨hsound, older, h⟩ hgood hstep =>
      ⟨sound_of_step hsound hstep, separated_of_step hsound h hgood hstep⟩) hstart horderly
  obtain ⟨hsound, older, h⟩ := hrun.2
  exact rateBound_of_separated hsound h

/-! ## Two runs -/

/-- One event in a thousand seconds. -/
def slow : Quota := ⟨1 / 1000, 1, by norm_num⟩

def slowBucket : Limiter slow.rate slow.burst := tokenBucket slow.rate slow.burst slow.rate_nonneg

theorem allow_new (t : ℚ) : slowBucket.allow t slowBucket.new = (true, ⟨some t, 0⟩) := by
  change Bucket.allow _ 1 t (Bucket.full 1) = _
  norm_num [Bucket.allow, Bucket.refill, Bucket.full]
  rfl

theorem allow_empty (t : ℚ) : slowBucket.allow t ⟨some t, 0⟩ = (false, ⟨some t, 0⟩) := by
  change Bucket.allow _ 1 t ⟨some t, 0⟩ = _
  norm_num [Bucket.allow, Bucket.refill]
  rfl

/-- Two requests at the same time, of which the first one makes the limiter. -/
def twoCalls : List Label :=
  [.load 0, .store 0 0, .touch 0 0, .allow 0, .touch 1 0, .allow 1]

/-- The limiter is deleted after a thousand seconds, and a third request makes a new one. -/
def thirdCall : List Label :=
  [.wait 1000, .visit, .look, .delete, .load 2, .store 2 1, .touch 2 1, .allow 2]

/-- One of the two requests has been let through, and the cleaner sleeps. -/
structure AfterTwoCalls (s : State slowBucket.σ) : Prop where
  now : s.now = 0
  limiters : s.limiters = some 0
  sweeper : s.sweeper = .sleeping (0 + 60)
  getter : s.getters 2 = none
  caller : s.callers 2 = none
  free : s.objects 1 = none
  used : ∃ b, s.objects 0 = some ⟨b, 0, [0, 0]⟩
  allowed : s.allowed = [0]

theorem take_twoCalls : ∃ past s, take (step slowBucket) twoCalls [] { now := 0 } = some (past, s) ∧
    (∀ x ∈ past, Orderly slowBucket x.1 x.2) ∧ AfterTwoCalls s := by
  refine ⟨_, _, rfl, ?_, rfl, rfl, rfl, rfl, rfl, rfl, ⟨_, rfl⟩, ?_⟩
  · simp only [List.forall_mem_cons]
    exact ⟨rfl, trivial, rfl, trivial, rfl, trivial, by simp⟩
  · change (if (slowBucket.allow 0 (slowBucket.allow 0 slowBucket.new).2).1 = true then 0 ::
      if (slowBucket.allow 0 slowBucket.new).1 = true then [0] else [] else
      if (slowBucket.allow 0 slowBucket.new).1 = true then [0] else []) = [0]
    simp only [allow_new, allow_empty]
    rfl

theorem take_thirdCall {s : State slowBucket.σ} (h : AfterTwoCalls s) : ∃ past s',
    take (step slowBucket) thirdCall [] s = some (past, s') ∧
    (∀ x ∈ past, Orderly slowBucket x.1 x.2) ∧ s'.allowed = [1000, 0] := by
  obtain ⟨hnow, hlimiters, hsweeper, hgetter, hcaller, hfree, ⟨b, hused⟩, hallowed⟩ := h
  -- when the limiter is deleted, it would have been full again
  have hrefilled : ∀ t ∈ RateLimit.allowed slowBucket.allow slowBucket.new [0, 0],
      (slow.burst : ℚ) ≤ slow.rate * (1000 - t) := by
    intro t ht
    obtain rfl : t = 0 := by simpa using mem_of_mem_allowed _ _ ht
    norm_num [slow]
  rcases s with ⟨now, limiters, objects, getters, callers, sweeper, allowed⟩
  dsimp only at hnow hlimiters hsweeper hgetter hcaller hfree hused hallowed
  subst hnow hlimiters hsweeper hallowed
  norm_num [thirdCall, take, step, State.visit, State.look, State.delete, State.load, State.store,
    State.touch, State.allow, State.startSweeper, hused, hgetter, hcaller, hfree, allow_new,
    -Prod.forall]
  refine ⟨_, _, ⟨rfl, rfl⟩, ?_, rfl⟩
  simp only [List.forall_mem_cons]
  refine ⟨rfl, trivial, rfl, trivial, ?_, trivial, trivial, trivial, by simp⟩
  simpa [Orderly, State.calls, hused] using hrefilled

/-- The second request is refused, and the third one is not. -/
theorem enforces_rate_slow : ∃ past s, Trace (step slowBucket) { now := 0 } past s ∧
    s.allowed = [1000, 0] ∧ RateBound slow.rate slow.burst s.allowed := by
  obtain ⟨past₁, s₁, htake₁, horderly₁, hafter⟩ := take_twoCalls
  obtain ⟨past₂, s₂, htake₂, horderly₂, hallowed⟩ := take_thirdCall hafter
  have htrace := (Trace.nil.of_take htake₁).append (Trace.nil.of_take htake₂)
  have horderly : ∀ x ∈ past₂ ++ past₁, Orderly slowBucket x.1 x.2 := by
    rw [List.forall_mem_append]
    exact ⟨horderly₂, horderly₁⟩
  exact ⟨_, s₂, htrace, hallowed, enforces_rate htrace horderly⟩

/-- Two requests for a key that has no limiter yet load nothing, and store one each. -/
theorem concurrent_uses_exceed : ∃ past s, Trace (step slowBucket) { now := 0 } past s ∧
    ¬ RateBound slow.rate slow.burst s.allowed := by
  have hrun : ∃ past s, Trace (step slowBucket) { now := 0 } past s ∧ s.allowed = [0, 0] := by
    refine ⟨_, _, .snoc (.snoc (.snoc (.snoc (.snoc (.snoc (.snoc
      (.single (l := .load 0) rfl) (l := .load 1) rfl) (l := .store 0 0) rfl) (l := .store 1 1) rfl)
      (l := .touch 0 0) rfl) (l := .allow 0) rfl) (l := .touch 1 1) rfl) (l := .allow 1) rfl, ?_⟩
    rfl
  obtain ⟨past, s, htrace, hallowed⟩ := hrun
  refine ⟨past, s, htrace, fun h => ?_⟩
  rw [hallowed] at h
  have hboth := h 0 0 (le_refl 0)
  norm_num [between, slow] at hboth

end Gonitor.Web.Limiters
