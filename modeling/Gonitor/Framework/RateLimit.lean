import Mathlib.Algebra.Order.Ring.Defs
import Mathlib.Data.Finset.Max
import Mathlib.Tactic.Linarith
import Mathlib.Tactic.Positivity
import Mathlib.Tactic.Ring

/-!
# Limits of a Rate

How many events there may be in an interval: a burst, and a rate times the length of the interval.  A
limiter is an automaton that is asked at instants and allows what it is asked or does not; its calls are
listed with the last one first.

- `RateBound.append`: after a pause in which a whole burst comes back, a limiter may be replaced by a new
  one.
- `tokenBucket`: the limiter that counts tokens keeps its rate.
-/

namespace RateLimit

/-! ## Events in an interval -/

section Intervals

variable {K : Type} [LinearOrder K] {times times' : List K} {x y : K}

/-- The number of events from `x` to `y`. -/
def between (x y : K) (times : List K) : Nat := times.countP fun t => decide (x ≤ t ∧ t ≤ y)

theorem between_append (x y : K) :
    between x y (times ++ times') = between x y times + between x y times' := List.countP_append

theorem between_eq_zero (h : ∀ t ∈ times, ¬ (x ≤ t ∧ t ≤ y)) : between x y times = 0 := by
  rw [between, List.countP_eq_zero]
  simpa using h

theorem nonempty_of_between (h : between x y times ≠ 0) :
    (times.filter fun t => decide (x ≤ t ∧ t ≤ y)).toFinset.Nonempty := by
  rw [List.toFinset_nonempty_iff, ne_eq, List.filter_eq_nil_iff]
  intro hnone
  exact h (between_eq_zero (by simpa using hnone))

/-- An interval with events may end with the last one of them. -/
theorem exists_last (h : between x y times ≠ 0) :
    ∃ t ∈ times, x ≤ t ∧ between x y times ≤ between x t times := by
  obtain ⟨t, ht, hmax⟩ := Finset.exists_max_image _ id (nonempty_of_between h)
  simp only [List.mem_toFinset, List.mem_filter, decide_eq_true_eq] at ht hmax
  refine ⟨t, ht.1, ht.2.1, List.countP_mono_left fun t' ht' hin => ?_⟩
  rw [decide_eq_true_eq] at hin ⊢
  exact ⟨hin.1, hmax t' ⟨ht', hin⟩⟩

/-- It may begin with the first one. -/
theorem exists_first (h : between x y times ≠ 0) :
    ∃ t ∈ times, t ≤ y ∧ between x y times ≤ between t y times := by
  obtain ⟨t, ht, hmin⟩ := Finset.exists_min_image _ id (nonempty_of_between h)
  simp only [List.mem_toFinset, List.mem_filter, decide_eq_true_eq] at ht hmin
  refine ⟨t, ht.1, ht.2.2, List.countP_mono_left fun t' ht' hin => ?_⟩
  rw [decide_eq_true_eq] at hin ⊢
  exact ⟨hmin t' ⟨ht', hin⟩, hin.2⟩

end Intervals

/-! ## Automata -/

section Automaton

variable {K σ : Type} (allow : K → σ → Bool × σ) (new : σ)

/-- The state after some calls. -/
def after : List K → σ
  | [] => new
  | t :: calls => (allow t (after calls)).2

/-- The calls that have been allowed. -/
def allowed : List K → List K
  | [] => []
  | t :: calls => if (allow t (after allow new calls)).1 then t :: allowed calls else allowed calls

theorem mem_of_mem_allowed {t : K} {calls : List K} (h : t ∈ allowed allow new calls) : t ∈ calls := by
  induction calls with
  | nil => cases h
  | cons t' calls ih =>
    rw [allowed] at h
    split at h
    · rcases List.mem_cons.mp h with rfl | hmem
      · exact List.mem_cons_self
      · exact List.mem_cons_of_mem _ (ih hmem)
    · exact List.mem_cons_of_mem _ (ih h)

end Automaton

variable {K : Type} [Field K] [LinearOrder K] [IsStrictOrderedRing K] {rate : K} {burst : Nat}
  {times times' : List K}

/-! ## Bounds -/

/-- No interval has more events than the burst and the rate admit. -/
def RateBound (rate : K) (burst : Nat) (times : List K) : Prop :=
  ∀ x y, x ≤ y → (between x y times : K) ≤ burst + rate * (y - x)

theorem rateBound_nil (hrate : 0 ≤ rate) : RateBound rate burst [] := by
  intro x y hxy
  have hlength : 0 ≤ y - x := sub_nonneg.mpr hxy
  simp only [between, List.countP_nil, Nat.cast_zero]
  positivity

/-- **After a pause** in which the rate admits a whole burst, the events of another limiter may follow. -/
theorem RateBound.append (h : RateBound rate burst times) (h' : RateBound rate burst times')
    (hpause : ∀ t ∈ times, ∀ t' ∈ times', (burst : K) ≤ rate * (t' - t)) :
    RateBound rate burst (times' ++ times) := by
  intro x y hxy
  rw [between_append, Nat.cast_add, add_comm]
  by_cases hnone : between x y times = 0
  · simpa [hnone] using h' x y hxy
  · by_cases hnone' : between x y times' = 0
    · simpa [hnone'] using h x y hxy
    · obtain ⟨t, ht, hxt, hle⟩ := exists_last hnone
      obtain ⟨t', ht', hty, hle'⟩ := exists_first hnone'
      -- the bounds up to the last event before the pause and from the first one after it
      have hbefore : (between x y times : K) ≤ burst + rate * (t - x) :=
        le_trans (Nat.cast_le.mpr hle) (h x t hxt)
      have hafter : (between x y times' : K) ≤ burst + rate * (y - t') :=
        le_trans (Nat.cast_le.mpr hle') (h' t' y hty)
      have hgap := hpause t ht t' ht'
      calc (between x y times : K) + between x y times'
          ≤ burst + rate * (t - x) + (rate * (t' - t) + rate * (y - t')) := by linarith
        _ = burst + rate * (y - x) := by ring

/-- A limiter that keeps its rate as long as time does not go back. -/
structure Limiter (rate : K) (burst : Nat) where
  σ : Type
  new : σ
  allow : K → σ → Bool × σ
  bounded : ∀ calls : List K, calls.Pairwise (· ≥ ·) → RateBound rate burst (allowed allow new calls)

/-! ## Token buckets -/

/-- The tokens at the time of the last call. -/
structure Bucket (K : Type) where
  last : Option K
  tokens : K

namespace Bucket

/-- The tokens at a later time. -/
def refill (rate : K) (burst : Nat) (t : K) (bucket : Bucket K) : K :=
  match bucket.last with
  | none => burst
  | some last => min (burst : K) (bucket.tokens + rate * (t - last))

/-- A call takes a token, if there is one. -/
def allow (rate : K) (burst : Nat) (t : K) (bucket : Bucket K) : Bool × Bucket K :=
  let tokens := bucket.refill rate burst t
  if 1 ≤ tokens then (true, ⟨some t, tokens - 1⟩) else (false, ⟨some t, tokens⟩)

/-- A full bucket. -/
def full (burst : Nat) : Bucket K := ⟨none, burst⟩

/-- The number of events since `x`. -/
def since (x : K) (times : List K) : Nat := times.countP fun t => decide (x ≤ t)

variable {t t₀ x : K} {calls : List K}

omit [IsStrictOrderedRing K] in
/-- A call after some others takes a token and counts, or does neither. -/
theorem since_add_tokens (hxt : x ≤ t) :
    (since x (allowed (allow rate burst) (full burst) (t :: calls)) : K) +
        (after (allow rate burst) (full burst) (t :: calls)).tokens =
      since x (allowed (allow rate burst) (full burst) calls) +
        (after (allow rate burst) (full burst) calls).refill rate burst t := by
  rw [allowed, after]
  unfold allow
  dsimp only
  split
  · rw [if_pos rfl, since, List.countP_cons_of_pos (by simpa using hxt), Nat.cast_add, Nat.cast_one]
    simp only [since]
    ring
  · rfl

omit [IsStrictOrderedRing K] in
theorem refill_after (t : K) :
    (after (allow rate burst) (full burst) (t₀ :: calls)).refill rate burst t =
      min (burst : K) ((after (allow rate burst) (full burst) (t₀ :: calls)).tokens +
        rate * (t - t₀)) := by
  have hlast : (after (allow rate burst) (full burst) (t₀ :: calls)).last = some t₀ := by
    simp only [after, allow]
    split <;> rfl
  simp only [refill, hlast]

omit [Field K] [IsStrictOrderedRing K] in
theorem since_eq_zero (h : ∀ t ∈ times, t < x) : since x times = 0 := by
  rw [since, List.countP_eq_zero]
  simpa using h

/-- **The tokens that are left** and those that have been taken since some instant have been in a full
    bucket then, or have come back since. -/
theorem since_add_tokens_le (burst : Nat) (hrate : 0 ≤ rate)
    (hsorted : (t :: calls).Pairwise (· ≥ ·)) (hxt : x ≤ t) :
    (since x (allowed (allow rate burst) (full burst) (t :: calls)) : K) +
        (after (allow rate burst) (full burst) (t :: calls)).tokens ≤ burst + rate * (t - x) := by
  induction calls generalizing t with
  | nil =>
    have hback : 0 ≤ rate * (t - x) := mul_nonneg hrate (sub_nonneg.mpr hxt)
    rw [since_add_tokens hxt]
    simpa [since, allowed, after, refill, full] using hback
  | cons t₀ calls ih =>
    obtain ⟨hle, hsorted⟩ := List.pairwise_cons.mp hsorted
    rw [since_add_tokens hxt, refill_after]
    rcases le_or_gt x t₀ with hx | hx
    · -- tokens have come back since the call before
      have hbefore := ih hsorted hx
      have hrefill := min_le_right (burst : K)
        ((after (allow rate burst) (full burst) (t₀ :: calls)).tokens + rate * (t - t₀))
      have hsum : rate * (t₀ - x) + rate * (t - t₀) = rate * (t - x) := by ring
      linarith
    · -- no other call has been made since `x`, and the bucket holds no more than a burst
      have hnone : since x (allowed (allow rate burst) (full burst) (t₀ :: calls)) = 0 := by
        apply since_eq_zero
        intro t' ht'
        rcases List.mem_cons.mp (mem_of_mem_allowed _ _ ht') with rfl | hmem
        · exact hx
        · exact lt_of_le_of_lt (List.rel_of_pairwise_cons hsorted hmem) hx
      have hback : 0 ≤ rate * (t - x) := mul_nonneg hrate (sub_nonneg.mpr hxt)
      have hrefill := min_le_left (burst : K)
        ((after (allow rate burst) (full burst) (t₀ :: calls)).tokens + rate * (t - t₀))
      rw [hnone, Nat.cast_zero]
      linarith

theorem tokens_nonneg (burst : Nat) (hrate : 0 ≤ rate) (hsorted : calls.Pairwise (· ≥ ·)) :
    0 ≤ (after (allow rate burst) (full burst) calls).tokens := by
  induction calls with
  | nil => simp [after, full]
  | cons t calls ih =>
    obtain ⟨hle, hsorted⟩ := List.pairwise_cons.mp hsorted
    have hrefill : 0 ≤ (after (allow rate burst) (full burst) calls).refill rate burst t := by
      cases calls with
      | nil => simp [after, full, refill]
      | cons t₀ calls =>
        have hpassed : 0 ≤ t - t₀ := sub_nonneg.mpr (hle t₀ List.mem_cons_self)
        rw [refill_after]
        exact le_min (Nat.cast_nonneg _) (add_nonneg (ih hsorted) (mul_nonneg hrate hpassed))
    simp only [after, allow]
    split
    · rename_i hone
      exact sub_nonneg.mpr hone
    · exact hrefill

/-- The bucket keeps its rate. -/
theorem rateBound_allowed (hrate : 0 ≤ rate) (hsorted : calls.Pairwise (· ≥ ·)) :
    RateBound rate burst (allowed (allow rate burst) (full burst) calls) := by
  induction calls with
  | nil => exact rateBound_nil hrate
  | cons t calls ih =>
    intro x y hxy
    have hback : 0 ≤ rate * (y - x) := mul_nonneg hrate (sub_nonneg.mpr hxy)
    rcases lt_or_ge y t with hyt | hty
    · -- the last call is after the interval
      have hsame : between x y (allowed (allow rate burst) (full burst) (t :: calls)) =
          between x y (allowed (allow rate burst) (full burst) calls) := by
        rw [allowed]
        split
        · rw [between, List.countP_cons_of_neg (by simp [hyt]), between]
        · rfl
      rw [hsame]
      exact ih (List.pairwise_cons.mp hsorted).2 x y hxy
    · have hsince : between x y (allowed (allow rate burst) (full burst) (t :: calls)) ≤
          since x (allowed (allow rate burst) (full burst) (t :: calls)) := by
        refine List.countP_mono_left fun t' _ hin => ?_
        simp only [decide_eq_true_eq] at hin ⊢
        exact hin.1
      have hsince : (between x y (allowed (allow rate burst) (full burst) (t :: calls)) : K) ≤
          since x (allowed (allow rate burst) (full burst) (t :: calls)) := Nat.cast_le.mpr hsince
      rcases le_or_gt x t with hxt | hxt
      · have htokens := since_add_tokens_le burst hrate hsorted hxt
        have hleft := tokens_nonneg burst hrate hsorted
        have hlonger : rate * (t - x) ≤ rate * (y - x) :=
          mul_le_mul_of_nonneg_left (sub_le_sub_right hty x) hrate
        linarith
      · have hnone : since x (allowed (allow rate burst) (full burst) (t :: calls)) = 0 := by
          apply since_eq_zero
          intro t' ht'
          rcases List.mem_cons.mp (mem_of_mem_allowed _ _ ht') with rfl | hmem
          · exact hxt
          · exact lt_of_le_of_lt (List.rel_of_pairwise_cons hsorted hmem) hxt
        rw [hnone, Nat.cast_zero] at hsince
        have hburst : (0 : K) ≤ burst := Nat.cast_nonneg _
        linarith

end Bucket

/-- The limiter that counts tokens. -/
def tokenBucket (rate : K) (burst : Nat) (hrate : 0 ≤ rate) : Limiter rate burst where
  σ := Bucket K
  new := Bucket.full burst
  allow := Bucket.allow rate burst
  bounded _ := Bucket.rateBound_allowed hrate

end RateLimit
