import Mathlib.Algebra.Ring.Int.Defs
import Mathlib.Data.List.Basic

/-!
# Integers as Text

Decimal numerals with an optional sign, as `strconv.ParseInt` of Go reads them and `strconv.FormatInt`
writes them.  The texts are lists of characters.

- `parseInt_eq_some_iff`: what is read is what a numeral stands for, where it fits.
- `numeral_formatInt`: what is written is a numeral.
-/

namespace IntegerText

/-! ## Numerals -/

/-- At least one digit, and nothing else. -/
structure Digits (text : List Char) : Prop where
  nonempty : text ≠ []
  isDigit : ∀ c ∈ text, c.isDigit = true

/-- The number that the digits stand for. -/
def value (digits : List Char) : Nat := Nat.ofDigitChars 10 digits 0

/-- The text stands for the integer. -/
inductive Numeral : List Char → Int → Prop
  | plain {digits : List Char} : Digits digits → Numeral digits (value digits)
  | plus {digits : List Char} : Digits digits → Numeral ('+' :: digits) (value digits)
  | minus {digits : List Char} : Digits digits → Numeral ('-' :: digits) (-value digits)

/-- A number of so many bits, one of which is the sign. -/
def Fits (bits : Nat) (n : Int) : Prop := -2 ^ (bits - 1) ≤ n ∧ n < 2 ^ (bits - 1)

instance (bits : Nat) (n : Int) : Decidable (Fits bits n) := inferInstanceAs (Decidable (_ ∧ _))

/-! ## Reading -/

def parseDigits (digits : List Char) : Option Nat :=
  if digits.isEmpty || !digits.all Char.isDigit then none else some (value digits)

/-- `strconv.ParseInt`, for base 10 -/
def parseInt (bits : Nat) (text : List Char) : Option Int :=
  let n : Option Int :=
    match text with
    | '-' :: digits => (parseDigits digits).map fun n : Nat => -(n : Int)
    | '+' :: digits => (parseDigits digits).map fun n : Nat => (n : Int)
    | digits => (parseDigits digits).map fun n : Nat => (n : Int)
  n.filter fun n => Fits bits n

section Reading

variable {bits : Nat} {text : List Char} {n : Int}

theorem parseDigits_eq_some_iff {n : Nat} : parseDigits text = some n ↔ Digits text ∧ n = value text := by
  unfold parseDigits
  split
  · rename_i hnot
    simp only [Bool.or_eq_true, List.isEmpty_iff, Bool.not_eq_true', List.all_eq_false] at hnot
    refine iff_of_false (by simp) ?_
    rintro ⟨hdigits, -⟩
    rcases hnot with hnil | ⟨c, hc, hnotDigit⟩
    · exact hdigits.nonempty hnil
    · exact hnotDigit (hdigits.isDigit c hc)
  · rename_i hyes
    simp only [Bool.or_eq_true, List.isEmpty_iff, Bool.not_eq_true', not_or, Bool.not_eq_false,
      List.all_eq_true] at hyes
    have hdigits : Digits text := ⟨hyes.1, hyes.2⟩
    simp [hdigits, eq_comm]

/-- A numeral has digits and signs in it. -/
theorem Numeral.isDigit_or_sign (h : Numeral text n) {c : Char} (hc : c ∈ text) :
    c.isDigit = true ∨ c = '+' ∨ c = '-' := by
  cases h with
  | plain hdigits => exact .inl (hdigits.isDigit c hc)
  | plus hdigits =>
    rcases List.mem_cons.mp hc with rfl | hdigit
    · exact .inr (.inl rfl)
    · exact .inl (hdigits.isDigit c hdigit)
  | minus hdigits =>
    rcases List.mem_cons.mp hc with rfl | hdigit
    · exact .inr (.inr rfl)
    · exact .inl (hdigits.isDigit c hdigit)

theorem Numeral.ne_nil (h : Numeral text n) : text ≠ [] := by
  cases h with
  | plain hdigits => exact hdigits.nonempty
  | plus => exact List.cons_ne_nil _ _
  | minus => exact List.cons_ne_nil _ _

/-- A sign is no digit. -/
theorem Numeral.cases_head {c : Char} {rest : List Char} (h : Numeral (c :: rest) n) :
    (Digits (c :: rest) ∧ c ≠ '-' ∧ c ≠ '+' ∧ n = value (c :: rest)) ∨
    (c = '+' ∧ Digits rest ∧ n = value rest) ∨ (c = '-' ∧ Digits rest ∧ n = -value rest) := by
  cases h with
  | plain hdigits =>
    have hdigit := hdigits.isDigit c List.mem_cons_self
    refine .inl ⟨hdigits, ?_, ?_, rfl⟩
    · rintro rfl
      exact absurd hdigit (by decide)
    · rintro rfl
      exact absurd hdigit (by decide)
  | plus hdigits => exact .inr (.inl ⟨rfl, hdigits, rfl⟩)
  | minus hdigits => exact .inr (.inr ⟨rfl, hdigits, rfl⟩)

/-- **What is read** is what the text stands for, if it fits; any other text is refused. -/
theorem parseInt_eq_some_iff : parseInt bits text = some n ↔ Numeral text n ∧ Fits bits n := by
  simp only [parseInt, Option.filter_eq_some_iff, decide_eq_true_eq]
  refine and_congr_left fun _ => ?_
  split
  · rename_i digits
    simp only [Option.map_eq_some_iff, parseDigits_eq_some_iff]
    constructor
    · rintro ⟨m, ⟨hdigits, rfl⟩, rfl⟩
      exact .minus hdigits
    · intro h
      rcases h.cases_head with ⟨-, hne, -⟩ | ⟨hc, -⟩ | ⟨-, hdigits, rfl⟩
      · exact absurd rfl hne
      · exact absurd hc (by decide)
      · exact ⟨value digits, ⟨hdigits, rfl⟩, rfl⟩
  · rename_i digits
    simp only [Option.map_eq_some_iff, parseDigits_eq_some_iff]
    constructor
    · rintro ⟨m, ⟨hdigits, rfl⟩, rfl⟩
      exact .plus hdigits
    · intro h
      rcases h.cases_head with ⟨-, -, hne, -⟩ | ⟨-, hdigits, rfl⟩ | ⟨hc, -⟩
      · exact absurd rfl hne
      · exact ⟨value digits, ⟨hdigits, rfl⟩, rfl⟩
      · exact absurd hc (by decide)
  · rename_i hminus hplus
    simp only [Option.map_eq_some_iff, parseDigits_eq_some_iff]
    constructor
    · rintro ⟨m, ⟨hdigits, rfl⟩, rfl⟩
      exact .plain hdigits
    · intro h
      cases h with
      | plain hdigits => exact ⟨value text, ⟨hdigits, rfl⟩, rfl⟩
      | plus => exact absurd rfl (hplus _)
      | minus => exact absurd rfl (hminus _)

end Reading

/-! ## Writing -/

/-- `strconv.FormatInt`, for base 10 -/
def formatInt (n : Int) : List Char :=
  (if n < 0 then ['-'] else []) ++ Nat.toDigits 10 n.natAbs

theorem digits_toDigits (n : Nat) : Digits (Nat.toDigits 10 n) where
  nonempty := Nat.toDigits_ne_nil
  isDigit _ hc := Nat.isDigit_of_mem_toDigits (by decide) (by decide) hc

theorem value_toDigits (n : Nat) : value (Nat.toDigits 10 n) = n := by simp [value]

/-- What is written stands for the integer. -/
theorem numeral_formatInt (n : Int) : Numeral (formatInt n) n := by
  have hdigits := digits_toDigits n.natAbs
  have hvalue := value_toDigits n.natAbs
  unfold formatInt
  split
  · have h := Numeral.minus hdigits
    rw [hvalue, show -(n.natAbs : Int) = n by omega] at h
    exact h
  · have h := Numeral.plain hdigits
    rw [hvalue, show (n.natAbs : Int) = n by omega] at h
    exact h

end IntegerText
