import Gonitor.Framework.CivilTime

/-!
# Dates and Times as Text

Instants are written and read by the layout `2006-01-02 15:04:05`, as `Format` and `Parse` of Go's
package `time` do it: the text shows the wall clock of some zone, and it does not show the zone.
Instants are nanoseconds from the beginning of the year 1; the texts are lists of characters.

`Parse` reads a little more than `Format` writes: more than one blank, hours of one digit, and
fractions of a second.

- `parse_format`: what comes back is the wall clock, without the fraction of its second, as long as
  its year has four digits.
- `parse_format_eq_none`: otherwise nothing comes back.
-/

namespace DateTimeText

open CivilTime

/-! ## Numbers -/

/-- A number, with zeros in front. -/
def digits (width n : Nat) : List Char := (Nat.toDigits 10 n).leftpad width '0'

/-- `appendInt` -/
def appendInt (x : Int) (width : Nat) : List Char :=
  (if x < 0 then ['-'] else []) ++ digits width x.natAbs

/-- `getnum`: a number of two digits or, unless it is `fixed`, of one. -/
def getnum (fixed : Bool) : List Char → Option (Nat × List Char)
  | c :: d :: rest =>
    if ¬ c.isDigit then none
    else if d.isDigit then some (Nat.ofDigitChars 10 [c, d] 0, rest)
    else if fixed then none
    else some (Nat.ofDigitChars 10 [c] 0, d :: rest)
  | [c] => if c.isDigit ∧ ¬ fixed then some (Nat.ofDigitChars 10 [c] 0, []) else none
  | [] => none

/-- A year, of four digits. -/
def getYear : List Char → Option (Nat × List Char)
  | a :: b :: c :: d :: rest =>
    if [a, b, c, d].all Char.isDigit then some (Nat.ofDigitChars 10 [a, b, c, d] 0, rest) else none
  | _ => none

/-- `skip`, for one character of the layout other than a blank. -/
def skip (c : Char) : List Char → Option (List Char)
  | c' :: rest => if c' = c then some rest else none
  | [] => none

/-- `skip`, for a blank. -/
def skipBlank : List Char → Option (List Char)
  | c :: rest => if c = ' ' then some (rest.dropWhile (· == ' ')) else none
  | [] => some []

/-- A fraction of a second, in nanoseconds; digits after the ninth are dropped. -/
def fraction : List Char → Nat × List Char
  | c :: d :: rest =>
    if (c = '.' ∨ c = ',') ∧ d.isDigit then
      let ds := (d :: rest.takeWhile Char.isDigit).take 9
      (Nat.ofDigitChars 10 (ds.rightpad 9 '0') 0, rest.dropWhile Char.isDigit)
    else (0, c :: d :: rest)
  | text => (0, text)

/-! ## The layout -/

/-- Nanoseconds in a second. -/
def nanos : Int := 1000000000

/-- The wall clock `t`, written by the layout. -/
def formatClock (t : Int) : List Char :=
  let second := t / nanos
  let date := civil (second / 86400)
  let clock := (second % 86400).toNat
  appendInt date.year 4 ++ '-' :: (digits 2 date.month ++ '-' :: (digits 2 date.day ++ ' ' ::
    (digits 2 (clock / 3600) ++ ':' :: (digits 2 (clock % 3600 / 60) ++ ':' ::
      digits 2 (clock % 60)))))

/-- `Format`, for an instant and the offset of the zone in seconds. -/
def format (offset t : Int) : List Char := formatClock (t + offset * nanos)

/-- The time of the day: hour, minute and second. -/
def parseClock (text : List Char) : Option (Nat × List Char) := do
  let (hour, text) ← getnum false text
  let text ← skip ':' text
  let (minute, text) ← getnum true text
  let text ← skip ':' text
  let (second, text) ← getnum true text
  if hour < 24 ∧ minute < 60 ∧ second < 60 then
    some (3600 * hour + 60 * minute + second, text)
  else none

/-- `Parse`: the wall clock of the text, taken as one of the zone UTC. -/
def parse (text : List Char) : Option Int := do
  let (year, text) ← getYear text
  let text ← skip '-' text
  let (month, text) ← getnum true text
  let text ← skip '-' text
  let (day, text) ← getnum true text
  let text ← skipBlank text
  let (clock, text) ← parseClock text
  let (nsec, text) := fraction text
  if (⟨year, month, day⟩ : Date).Valid ∧ text = [] then
    some ((dayNumber ⟨year, month, day⟩ * 86400 + clock) * nanos + nsec)
  else none

/-! ## Reading what has been written -/

/-- A number that is not too large is written with the digits asked for. -/
theorem length_digits {width n : Nat} (h : (Nat.toDigits 10 n).length ≤ width) :
    (digits width n).length = width := by
  simp only [digits, List.length_leftpad]
  omega

theorem isDigit_of_mem_digits {width n : Nat} {c : Char} (h : c ∈ digits width n) :
    c.isDigit = true := by
  rw [digits, List.leftpad, List.mem_append] at h
  rcases h with hzero | hdigit
  · rw [List.eq_of_mem_replicate hzero]
    rfl
  · exact Nat.isDigit_of_mem_toDigits (by decide) (by decide) hdigit

/-- The zeros in front do not count. -/
theorem ofDigitChars_digits (width n : Nat) : Nat.ofDigitChars 10 (digits width n) 0 = n := by
  simp [digits, List.leftpad, Nat.ofDigitChars_append]

/-- A number of two digits comes back, and the text after it stays. -/
theorem getnum_digits {fixed : Bool} {n : Nat} (h : n < 100) (rest : List Char) :
    getnum fixed (digits 2 n ++ rest) = some (n, rest) := by
  have hvalue := ofDigitChars_digits 2 n
  have hdigit : ∀ c ∈ digits 2 n, c.isDigit = true := fun c => isDigit_of_mem_digits
  have hfits : (Nat.toDigits 10 n).length ≤ 2 :=
    (Nat.length_toDigits_le_iff (by decide) (by decide)).mpr h
  have hlength := length_digits hfits
  match hchars : digits 2 n with
  | [c, d] =>
    rw [hchars] at hvalue hdigit
    simp only [List.mem_cons, List.not_mem_nil, or_false, forall_eq_or_imp, forall_eq] at hdigit
    simp [getnum, hdigit, hvalue]
  | [] | [_] | _ :: _ :: _ :: _ => simp [hchars] at hlength

theorem getYear_digits {n : Nat} (h : n < 10000) (rest : List Char) :
    getYear (digits 4 n ++ rest) = some (n, rest) := by
  have hvalue := ofDigitChars_digits 4 n
  have hdigit : (digits 4 n).all Char.isDigit = true :=
    List.all_eq_true.mpr fun c => isDigit_of_mem_digits
  have hfits : (Nat.toDigits 10 n).length ≤ 4 :=
    (Nat.length_toDigits_le_iff (by decide) (by decide)).mpr h
  have hlength := length_digits hfits
  match hchars : digits 4 n with
  | [a, b, c, d] =>
    rw [hchars] at hvalue hdigit
    simp only [List.cons_append, List.nil_append, getYear, hdigit, hvalue, if_true]
  | [] | [_] | [_, _] | [_, _, _] | _ :: _ :: _ :: _ :: _ :: _ =>
    simp [hchars] at hlength

/-- A digit is not a blank. -/
theorem dropWhile_digits (width n : Nat) (rest : List Char) :
    (digits width n ++ rest).dropWhile (· == ' ') = digits width n ++ rest := by
  have hdigit : ∀ c ∈ digits width n, c.isDigit = true := fun c => isDigit_of_mem_digits
  cases hchars : digits width n with
  | nil =>
    have hempty := congrArg List.length hchars
    simp [digits] at hempty
  | cons c cs =>
    have hc := hdigit c (hchars ▸ List.mem_cons_self)
    have hne : c ≠ ' ' := by
      rintro rfl
      cases hc
    simp [hne]

/-- The time of the day comes back. -/
theorem parseClock_digits {clock : Nat} (h : clock < 86400) :
    parseClock (digits 2 (clock / 3600) ++ ':' :: (digits 2 (clock % 3600 / 60) ++ ':' ::
      digits 2 (clock % 60))) = some (clock, []) := by
  have hhour : clock / 3600 < 24 := by omega
  have hminute : clock % 3600 / 60 < 60 := by omega
  have hsecond : clock % 60 < 60 := by omega
  have hlast : getnum true (digits 2 (clock % 60)) = some (clock % 60, []) := by
    simpa only [List.append_nil] using getnum_digits (show clock % 60 < 100 by omega) []
  have hsum : 3600 * (clock / 3600) + 60 * (clock % 3600 / 60) + clock % 60 = clock := by omega
  simp only [parseClock, getnum_digits (show clock / 3600 < 100 by omega), skip, if_true,
    getnum_digits (show clock % 3600 / 60 < 100 by omega), hlast, hhour, hminute, hsecond,
    and_self, hsum, Option.bind_eq_bind, Option.bind_some]

/-- The parts of a date and the time of a day come back. -/
theorem parse_digits {y month day clock : Nat} (hyear : y < 10000) (hmonth : month < 100)
    (hday : day < 100) (hclock : clock < 86400) (hvalid : (⟨y, month, day⟩ : Date).Valid) :
    parse (appendInt y 4 ++ '-' :: (digits 2 month ++ '-' :: (digits 2 day ++ ' ' ::
      (digits 2 (clock / 3600) ++ ':' :: (digits 2 (clock % 3600 / 60) ++ ':' ::
        digits 2 (clock % 60)))))) =
      some ((dayNumber ⟨y, month, day⟩ * 86400 + clock) * nanos + (0 : Nat)) := by
  have hneg : ¬ (y : Int) < 0 := by omega
  simp only [parse, appendInt, hneg, if_false, List.nil_append, Int.natAbs_natCast,
    getYear_digits hyear, skip, if_true, getnum_digits hmonth, getnum_digits hday, skipBlank,
    dropWhile_digits, parseClock_digits hclock, fraction, hvalid, and_self,
    Option.bind_eq_bind, Option.bind_some]

/-- **What is read** is what has been written, without the fraction of its second. -/
theorem parse_formatClock {t : Int} (hmin : 0 ≤ (civil (t / nanos / 86400)).year)
    (hmax : (civil (t / nanos / 86400)).year ≤ 9999) :
    parse (formatClock t) = some (t / nanos * nanos) := by
  obtain ⟨hvalid, hdays⟩ := civil_spec (t / nanos / 86400)
  simp only [formatClock]
  generalize civil (t / nanos / 86400) = date at *
  obtain ⟨year, month, day⟩ := date
  obtain ⟨y, rfl⟩ := Int.eq_ofNat_of_zero_le hmin
  have hyear : y < 10000 := by
    change (y : Int) ≤ 9999 at hmax
    omega
  have hmonth : month ≤ 12 := hvalid.1.2
  have hday : day ≤ 31 := Nat.le_trans hvalid.2.2 (daysInMonth_le _ _ hmonth)
  rw [parse_digits hyear (by omega) (by omega) (by omega) hvalid, hdays]
  -- days and the time of the day are the seconds again
  have hseconds : t / nanos / 86400 * 86400 + ((t / nanos % 86400).toNat : Int) = t / nanos := by
    omega
  rw [hseconds, Int.natCast_zero, Int.add_zero]

/-- A text that begins with more than four digits, or with a sign, is not read. -/
theorem parse_eq_none {front text : List Char} (hlong : 4 < front.length)
    (hfront : (∀ c ∈ front, c.isDigit = true) ∨ front.head? = some '-') :
    parse (front ++ text) = none := by
  match front, hlong with
  | a :: b :: c :: d :: e :: front, _ =>
    rcases hfront with hdigit | hsign
    · simp only [List.forall_mem_cons] at hdigit
      obtain ⟨ha, hb, hc, hd, he, -⟩ := hdigit
      have hne : e ≠ '-' := by
        rintro rfl
        cases he
      simp [parse, getYear, skip, ha, hb, hc, hd, hne]
    · obtain rfl : a = '-' := by simpa using hsign
      simp [parse, getYear]

/-- **A year outside** of 0 to 9999 is written, but the text is not read. -/
theorem parse_formatClock_eq_none {t : Int} (h : ¬ (0 ≤ (civil (t / nanos / 86400)).year ∧
    (civil (t / nanos / 86400)).year ≤ 9999)) : parse (formatClock t) = none := by
  simp only [formatClock]
  generalize civil (t / nanos / 86400) = date at *
  obtain ⟨year, month, day⟩ := date
  change ¬ (0 ≤ year ∧ year ≤ 9999) at h
  have hlength : 4 ≤ (digits 4 year.natAbs).length := by
    simp only [digits, List.length_leftpad]
    omega
  by_cases hneg : year < 0
  · apply parse_eq_none
    · simp only [appendInt, hneg, if_true, List.length_append, List.length_singleton]
      omega
    · simp [appendInt, hneg]
  · have hlarge : 4 < (Nat.toDigits 10 year.natAbs).length := by
      rw [← Nat.not_le, Nat.length_toDigits_le_iff (by decide) (by decide)]
      omega
    apply parse_eq_none
    · simp only [appendInt, hneg, if_false, List.nil_append, digits, List.length_leftpad]
      omega
    · simp only [appendInt, hneg, if_false, List.nil_append]
      exact .inl fun c => isDigit_of_mem_digits

end DateTimeText
