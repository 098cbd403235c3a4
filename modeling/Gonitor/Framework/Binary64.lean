import Mathlib.Data.Int.Log
import Mathlib.Data.Rat.Floor
import Mathlib.Tactic.Linarith
import Mathlib.Tactic.Positivity
import Mathlib.Tactic.FieldSimp
import Mathlib.Tactic.Ring

/-!
# Rounding to Binary64

A `float64` operation answers the exact result rounded to 53 significant bits, half to even.  For
values whose exponent is in range, which those of integers and their quotients are, this is a
function on rational numbers: the value is counted in units of its last place, and the count is
rounded to an integer.

## Main Results

- `round_eq_self_iff`: the values that are exact are the multiples of their unit.
- `round_natCast_of_le`: the integers up to 2^53 are exact.
- `round_round`: what has been rounded is exact.
- `exists_round_natCast`: an integer is rounded to an integer.
- `ceil_round_div`: rounding a quotient of integers below 2^53 does not change its ceiling.
-/

namespace Binary64

/-- The nearest integer, and of two the even one. -/
def roundEven (q : ℚ) : ℤ :=
  if Int.fract q < 1 / 2 then ⌊q⌋
  else if 1 / 2 < Int.fract q then ⌊q⌋ + 1
  else if Even ⌊q⌋ then ⌊q⌋ else ⌊q⌋ + 1

/-- The value of the last of the 53 bits of `q`. -/
def unit (q : ℚ) : ℚ := 2 ^ (Int.log 2 |q| - 52)

/-- `q`, rounded to 53 significant bits. -/
def round (q : ℚ) : ℚ := roundEven (q / unit q) * unit q

theorem unit_pos (q : ℚ) : 0 < unit q := by
  unfold unit
  exact zpow_pos (by norm_num) _

@[simp] theorem roundEven_intCast (m : ℤ) : roundEven m = m := by
  simp [roundEven]

theorem floor_le_roundEven (q : ℚ) : ⌊q⌋ ≤ roundEven q := by
  unfold roundEven
  split
  · exact le_rfl
  · split
    · omega
    · split <;> omega

theorem roundEven_le (q : ℚ) : roundEven q ≤ ⌊q⌋ + 1 := by
  unfold roundEven
  split
  · omega
  · split
    · exact le_rfl
    · split <;> omega

theorem roundEven_le_of_le {q : ℚ} {m : ℤ} (h : q ≤ m) : roundEven q ≤ m := by
  obtain rfl | hlt := h.eq_or_lt
  · rw [roundEven_intCast]
  · have hfloor : ⌊q⌋ < m := Int.floor_lt.mpr hlt
    have hle := roundEven_le q
    omega

theorem lt_roundEven {q : ℚ} {m : ℤ} (h : m + 1 / 2 < q) : m < roundEven q := by
  have hfloor : m ≤ ⌊q⌋ := Int.le_floor.mpr (by linarith)
  obtain rfl | hlt := hfloor.eq_or_lt
  · -- the fraction is more than a half
    have hfract : 1 / 2 < Int.fract q := by
      rw [Int.fract]
      linarith
    rw [roundEven, if_neg (not_lt.mpr hfract.le), if_pos hfract]
    exact Int.lt_succ _
  · exact hlt.trans_le (floor_le_roundEven q)

/-- **The exact values.** -/
theorem round_eq_self_iff {q : ℚ} : round q = q ↔ ∃ m : ℤ, q = m * unit q := by
  constructor
  · intro h
    exact ⟨roundEven (q / unit q), h.symm⟩
  · rintro ⟨m, hm⟩
    have hcount : q / unit q = m := (div_eq_iff (unit_pos q).ne').mpr hm
    rw [round, hcount, roundEven_intCast]
    exact hm.symm

@[simp] theorem round_zero : round 0 = 0 := by
  rw [round_eq_self_iff]
  exact ⟨0, by simp⟩

theorem two_pow_52_mul (l : ℤ) : (2 : ℚ) ^ 52 * 2 ^ (l - 52) = 2 ^ l := by
  rw [← zpow_natCast, ← zpow_add₀ (by norm_num)]
  norm_num

theorem two_pow_52_mul_unit {q : ℚ} (hq : 0 < q) : 2 ^ 52 * unit q = 2 ^ Int.log 2 q := by
  rw [unit, abs_of_pos hq, two_pow_52_mul]

theorem two_pow_53_mul_unit {q : ℚ} (hq : 0 < q) : 2 ^ 53 * unit q = 2 ^ (Int.log 2 q + 1) := by
  rw [zpow_add₀ (by norm_num), ← two_pow_52_mul_unit hq]
  ring

/-- A value is a number of units with 53 bits. -/
theorem count_bounds {q : ℚ} (hq : 0 < q) : 2 ^ 52 ≤ q / unit q ∧ q / unit q < 2 ^ 53 := by
  have hlow : (2 : ℚ) ^ Int.log 2 q ≤ q := by
    exact_mod_cast Int.zpow_log_le_self (b := 2) (by decide) hq
  have hhigh : q < (2 : ℚ) ^ (Int.log 2 q + 1) := by
    exact_mod_cast Int.lt_zpow_succ_log_self (b := 2) (by decide) q
  rw [le_div_iff₀ (unit_pos q), div_lt_iff₀ (unit_pos q), two_pow_52_mul_unit hq,
    two_pow_53_mul_unit hq]
  exact ⟨hlow, hhigh⟩

/-- Values between the same powers of two have the same unit. -/
theorem unit_eq {r : ℚ} {l : ℤ} (hlow : 2 ^ l ≤ r) (hhigh : r < 2 ^ (l + 1)) :
    unit r = 2 ^ (l - 52) := by
  have hr : 0 < r := lt_of_lt_of_le (zpow_pos (by norm_num) l) hlow
  have hle : l ≤ Int.log 2 r :=
    (Int.zpow_le_iff_le_log (b := 2) (by decide) hr).mp (by exact_mod_cast hlow)
  have hlt : Int.log 2 r < l + 1 :=
    (Int.lt_zpow_iff_log_lt (b := 2) (by decide) hr).mp (by exact_mod_cast hhigh)
  have hlog : Int.log 2 r = l := by omega
  rw [unit, abs_of_pos hr, hlog]

/-- **Rounding a second time** changes nothing. -/
theorem round_round {q : ℚ} (hq : 0 < q) : round (round q) = round q := by
  obtain ⟨hlow, hhigh⟩ := count_bounds hq
  have hfloor : (2 : ℤ) ^ 52 ≤ ⌊q / unit q⌋ := Int.le_floor.mpr (by exact_mod_cast hlow)
  have hfloor' : ⌊q / unit q⌋ < (2 : ℤ) ^ 53 := Int.floor_lt.mpr (by exact_mod_cast hhigh)
  have hcount := floor_le_roundEven (q / unit q)
  have hcount' := roundEven_le (q / unit q)
  generalize hm : roundEven (q / unit q) = m at hcount hcount'
  have hround : round q = m * unit q := by rw [round, hm]
  rw [round_eq_self_iff, hround]
  have hunit := unit_pos q
  have hlow' : (2 : ℚ) ^ Int.log 2 q ≤ m * unit q := by
    rw [← two_pow_52_mul_unit hq]
    have hle : (2 : ℚ) ^ 52 ≤ m := by exact_mod_cast hfloor.trans hcount
    exact mul_le_mul_of_nonneg_right hle hunit.le
  by_cases htop : m = 2 ^ 53
  · -- one bit more: half as many units of twice the size
    refine ⟨2 ^ 52, ?_⟩
    have hvalue : (m : ℚ) * unit q = 2 ^ (Int.log 2 q + 1) := by
      rw [← two_pow_53_mul_unit hq, htop]
      norm_num
    have hunit' : unit (m * unit q) = 2 ^ (Int.log 2 q + 1 - 52) := by
      rw [hvalue]
      apply unit_eq le_rfl
      exact zpow_lt_zpow_right₀ (by norm_num) (by omega)
    rw [hunit', hvalue, ← two_pow_52_mul]
    push_cast
    rfl
  · refine ⟨m, ?_⟩
    have hlt : (m : ℚ) < 2 ^ 53 := by
      have hm' : m < 2 ^ 53 := by omega
      exact_mod_cast hm'
    have hunit' : unit (m * unit q) = 2 ^ (Int.log 2 q - 52) := by
      apply unit_eq hlow'
      rw [← two_pow_53_mul_unit hq]
      exact mul_lt_mul_of_pos_right hlt hunit
    rw [hunit', unit, abs_of_pos hq]

theorem round_nonneg {q : ℚ} (hq : 0 ≤ q) : 0 ≤ round q := by
  have hcount : 0 ≤ q / unit q := div_nonneg hq (unit_pos q).le
  have hround : 0 ≤ roundEven (q / unit q) := (Int.floor_nonneg.mpr hcount).trans (floor_le_roundEven _)
  exact mul_nonneg (by exact_mod_cast hround) (unit_pos q).le

/-- Below 2^53 the unit is a fraction of 1. -/
theorem exists_unit_eq {q : ℚ} (hq : 0 < q) (h : q < 2 ^ 53) :
    ∃ k : ℕ, unit q = ((2 : ℚ) ^ k)⁻¹ := by
  have hlog : Int.log 2 q < 53 := by
    apply (Int.lt_zpow_iff_log_lt (b := 2) (by decide) hq).mp
    exact_mod_cast h
  obtain ⟨k, hk⟩ := Int.eq_ofNat_of_zero_le (show 0 ≤ 52 - Int.log 2 q by omega)
  refine ⟨k, ?_⟩
  rw [unit, abs_of_pos hq, ← zpow_natCast, ← zpow_neg]
  congr 1
  omega

/-- Rounding does not reach the integers below, if they are more than half a unit away. -/
theorem ceil_round_of_apart {q : ℚ} (hq : 0 < q) (hlt : q < 2 ^ 53)
    (h : ∀ m : ℤ, (m : ℚ) < q → unit q < 2 * (q - m)) : ⌈round q⌉ = ⌈q⌉ := by
  obtain ⟨k, hk⟩ := exists_unit_eq hq hlt
  have hpos : (0 : ℚ) < 2 ^ k := by positivity
  have hround : round q = roundEven (q * 2 ^ k) * ((2 : ℚ) ^ k)⁻¹ := by
    rw [round, hk, div_inv_eq_mul]
  rw [Int.ceil_eq_iff, hround, ← div_eq_mul_inv, lt_div_iff₀ hpos, div_le_iff₀ hpos]
  -- an integer is a number of units as well
  constructor
  · have hbelow : ((⌈q⌉ - 1 : ℤ) : ℚ) < q := by
      push_cast
      linarith [Int.ceil_lt_add_one q]
    have hapart := h _ hbelow
    rw [hk, inv_lt_iff_one_lt_mul₀ hpos] at hapart
    have hmore : (⌈q⌉ - 1) * 2 ^ k < roundEven (q * 2 ^ k) := by
      apply lt_roundEven
      push_cast at hapart ⊢
      linarith
    exact_mod_cast hmore
  · have hless : roundEven (q * 2 ^ k) ≤ ⌈q⌉ * 2 ^ k := by
      apply roundEven_le_of_le
      push_cast
      exact mul_le_mul_of_nonneg_right (Int.le_ceil q) hpos.le
    exact_mod_cast hless

/-! ## Integers -/

theorem round_natCast_of_lt {n : ℕ} (hn : 0 < n) (h : n < 2 ^ 53) : round n = n := by
  have hpos : (0 : ℚ) < n := by exact_mod_cast hn
  obtain ⟨k, hunit⟩ := exists_unit_eq hpos (by exact_mod_cast h)
  rw [round_eq_self_iff]
  refine ⟨n * 2 ^ k, ?_⟩
  rw [hunit]
  push_cast
  field_simp

/-- **The integers up to 2^53 are exact.** -/
theorem round_natCast_of_le {n : ℕ} (h : n ≤ 2 ^ 53) : round n = n := by
  obtain rfl | hn := Nat.eq_zero_or_pos n
  · simp
  · obtain hlt | rfl := lt_or_eq_of_le h
    · exact round_natCast_of_lt hn hlt
    · have hunit : unit ((2 ^ 53 : ℕ) : ℚ) = 2 ^ ((53 : ℤ) - 52) := by
        apply unit_eq <;> norm_num
      rw [round_eq_self_iff, hunit]
      exact ⟨2 ^ 52, by norm_num⟩

/-- **An integer is rounded to an integer.** -/
theorem exists_round_natCast (n : ℕ) : ∃ m : ℤ, round n = m := by
  by_cases h : n ≤ 2 ^ 53
  · exact ⟨n, round_natCast_of_le h⟩
  · have hpos : (0 : ℚ) < n := by exact_mod_cast (show 0 < n by omega)
    have hlog : 53 ≤ Int.log 2 (n : ℚ) := by
      apply (Int.zpow_le_iff_le_log (b := 2) (by decide) hpos).mp
      exact_mod_cast (not_le.mp h).le
    -- the unit is an integer
    obtain ⟨k, hk⟩ := Int.eq_ofNat_of_zero_le (show 0 ≤ Int.log 2 (n : ℚ) - 52 by omega)
    refine ⟨roundEven (n / unit n) * 2 ^ k, ?_⟩
    rw [round]
    push_cast
    rw [unit, abs_of_pos hpos, hk, zpow_natCast]

/-- **The ceiling of a quotient** is exact below 2^53. -/
theorem ceil_round_div {n l : ℕ} (hl : 0 < l) (hn : n < 2 ^ 53) :
    ⌈round (n / l)⌉ = ⌈(n / l : ℚ)⌉ := by
  obtain rfl | hpos := Nat.eq_zero_or_pos n
  · simp
  have hl' : (0 : ℚ) < l := by exact_mod_cast hl
  have hn' : (n : ℚ) < 2 ^ 53 := by exact_mod_cast hn
  have hq : (0 : ℚ) < n / l := div_pos (by exact_mod_cast hpos) hl'
  have hle : (n / l : ℚ) ≤ n := div_le_self (by positivity) (by exact_mod_cast hl)
  apply ceil_round_of_apart hq (hle.trans_lt hn')
  intro m hm
  have hunit : unit (n / l : ℚ) < 2 / l := by
    have hcount := (count_bounds hq).1
    rw [le_div_iff₀ (unit_pos _), le_div_iff₀ hl'] at hcount
    rw [lt_div_iff₀ hl']
    linarith
  -- quotients by the same number that are not equal are one part of it apart
  have hapart : 1 / (l : ℚ) ≤ n / l - m := by
    rw [lt_div_iff₀ hl'] at hm
    have hnext : m * l + 1 ≤ n := by exact_mod_cast hm
    have hnext' : (m : ℚ) * l + 1 ≤ n := by exact_mod_cast hnext
    rw [le_sub_iff_add_le, le_div_iff₀ hl', add_mul, one_div_mul_cancel hl'.ne']
    linarith
  calc unit (n / l : ℚ) < 2 / l := hunit
    _ = 2 * (1 / l) := by ring
    _ ≤ 2 * (n / l - m) := by linarith

end Binary64
