import Gonitor.Model.Pagination
import Mathlib.Order.Bounds.Basic
import Mathlib.Order.Interval.Finset.Basic
import Mathlib.Data.Int.Interval

/-!
# Reading a Table Page by Page

The pages of a list should be a partition of it: as many as are needed, every row on one of them,
and nothing after the last one.  That is so as long as the numbers are small.  The number of pages
is not defined where the page size is left to its default, it is off by the rounding of `float64`
for very long lists, and the offset of a page far behind the last one wraps around to a negative
number, which the query leaves out.

## Main Results

- `flatMap_pages`: the pages of a list, put together, are the list.
- `pages_right_in_range`: what is right for every page size, as long as the numbers are small.
- `pages_right_iff`: for which page sizes and tables all of that is right.
- `default_size_has_no_pages`: without a page size, the number of pages is a quotient by zero.
-/

namespace Gonitor.Integrity

open Gonitor.Model SoftDelete

/-! ## Pages of a list -/

section Pages

variable {α : Type}

/-- The rows of the page of number `k`, counted from 0. -/
def pageOf (rows : List α) (limit k : Nat) : List α := (rows.drop (k * limit)).take limit

/-- The first pages have the first rows. -/
theorem flatMap_pageOf (rows : List α) (limit k : Nat) :
    (List.range k).flatMap (pageOf rows limit) = rows.take (k * limit) := by
  induction k with
  | zero => simp
  | succ k ih =>
    rw [List.range_succ, List.flatMap_append, ih, List.flatMap_singleton, pageOf, Nat.succ_mul,
      List.take_add]

/-- **The pages of a list**, put together, are the list, if they are enough to hold it. -/
theorem flatMap_pages {rows : List α} {limit pages : Nat} (h : rows.length ≤ pages * limit) :
    (List.range pages).flatMap (pageOf rows limit) = rows := by
  rw [flatMap_pageOf, List.take_of_length_le h]

/-- A page behind enough pages is empty. -/
theorem pageOf_eq_nil {rows : List α} {limit pages k : Nat} (hk : pages ≤ k)
    (h : rows.length ≤ pages * limit) : pageOf rows limit k = [] := by
  have hle : rows.length ≤ k * limit := h.trans (Nat.mul_le_mul_right limit hk)
  rw [pageOf, List.drop_of_length_le hle, List.take_nil]

end Pages

/-! ## What is right -/

/-- The largest `int`. -/
def maxInt : ℤ := 2 ^ 63 - 1

section Right

variable {ρ T : Type} [Row ρ T]

/-- The listing of a page. -/
def listing (t : Table ρ) (condition : ρ → Bool) (pageSize : Option Int64) (page : Int64) :
    Listing ρ :=
  paginate t condition (initPagination (some page) pageSize)

/-- The limit that is applied. -/
def appliedLimit (pageSize : Option Int64) : ℤ := (initPagination none pageSize).getLimit.toInt

/-- The pages are right: there are just enough of them, put together they are the rows, the later
    ones are empty, and no offset wraps around. -/
structure PagesRight (t : Table ρ) (condition : ρ → Bool) (pageSize : Option Int64) : Prop where
  /-- a quotient by zero has no value -/
  total : ∀ page, ∃ pages : ℕ, (listing t condition pageSize page).totalPages = some (pages : ℤ) ∧
    IsLeast {k : ℕ | ((t.find condition).length : ℤ) ≤ k * appliedLimit pageSize} pages
  complete : ∀ pages : ℕ, (listing t condition pageSize 1).totalPages = some (pages : ℤ) →
    (List.range pages).flatMap
      (fun k : ℕ => (listing t condition pageSize (Int64.ofInt ((k : ℤ) + 1))).rows) =
        t.find condition
  later : ∀ pages : ℕ, (listing t condition pageSize 1).totalPages = some (pages : ℤ) →
    ∀ page : Int64, (pages : ℤ) < page.toInt → (listing t condition pageSize page).rows = []
  offset : ∀ page : Int64, 0 < page.toInt →
    (initPagination (some page) pageSize).getOffset.toInt =
      (page.toInt - 1) * appliedLimit pageSize

/-- The keys of the rows are of type `int64`. -/
def KeysInRange (t : Table ρ) : Prop := ∀ r ∈ t.rows, rowId r ≤ maxInt

end Right

section Sizes

variable {ρ T : Type} [Row ρ T] {t : Table ρ} {condition : ρ → Bool} {pageSize : Option Int64}

/-- There are no more rows than keys. -/
theorem length_find_le (hkeys : KeysInRange t) : ((t.find condition).length : ℤ) ≤ maxInt := by
  have hnodup : ((t.find condition).map rowId).Nodup :=
    List.pairwise_map.mpr ((t.pairwise_find condition).imp fun hlt => Int.ne_of_lt hlt)
  have hsubset : ((t.find condition).map rowId).toFinset ⊆ Finset.Ioc 0 maxInt := by
    intro i hi
    obtain ⟨r, hr, rfl⟩ := List.mem_map.mp (List.mem_toFinset.mp hi)
    have hmem : r ∈ t.rows := List.mem_of_mem_filter hr
    exact Finset.mem_Ioc.mpr ⟨t.ids_pos r hmem, hkeys r hmem⟩
  have hcard := Finset.card_le_card hsubset
  rw [List.toFinset_card_of_nodup hnodup, List.length_map, Int.card_Ioc] at hcard
  have hmax : (0 : ℤ) ≤ maxInt := by decide
  omega

/-! ### The applied limit -/

theorem toInt_sub_one {page : Int64} (h : 0 < page.toInt) : (page - 1).toInt = page.toInt - 1 := by
  have hlt := page.toInt_lt
  rw [Int64.toInt_sub, show (1 : Int64).toInt = 1 from rfl]
  apply Int.bmod_eq_of_le <;> omega

theorem getPage_of_pos {page : Int64} (h : 0 < page.toInt) (pageSize : Option Int64) :
    (initPagination (some page) pageSize).getPage = page := by
  apply if_neg
  rintro rfl
  exact absurd h (by decide)

/-- No offset wraps around for pages of one row only. -/
theorem appliedLimit_le_one (h : ∀ page : Int64, 0 < page.toInt →
    (initPagination (some page) pageSize).getOffset.toInt =
      (page.toInt - 1) * appliedLimit pageSize) : appliedLimit pageSize ≤ 1 := by
  have hlast : Int64.maxValue.toInt = 2 ^ 63 - 1 := by decide
  have hoffset := h Int64.maxValue (by rw [hlast]; norm_num)
  have hlt := (initPagination (some Int64.maxValue) pageSize).getOffset.toInt_lt
  rw [hoffset, hlast] at hlt
  by_contra hmore
  nlinarith

/-- Where there is a number of pages, the limit is the page size. -/
theorem eq_appliedLimit {page : Int64} {pages : ℤ}
    (h : (listing t condition pageSize page).totalPages = some pages) :
    ∃ size : Int64, pageSize = some size ∧ size.toInt = appliedLimit pageSize ∧ size ≠ 0 := by
  have hlimit : (initPagination (some page) pageSize).limit ≠ 0 := by
    intro hzero
    simp [listing, paginate, Pagination.totalPages, hzero] at h
  cases pageSize with
  | none => exact absurd rfl hlimit
  | some size => exact ⟨size, rfl, (congrArg Int64.toInt (if_neg hlimit)).symm, hlimit⟩

/-! ### Pages in range -/

section InRange

variable {size page : Int64}

theorem getLimit_of_pos (h : 0 < size.toInt) (page : Option Int64) :
    (initPagination page (some size)).getLimit = size := by
  apply if_neg
  rintro rfl
  exact absurd h (by decide)

/-- An offset that is in range does not wrap around. -/
theorem getOffset_of_lt (hpage : 0 < page.toInt) (hsize : 0 < size.toInt)
    (h : (page.toInt - 1) * size.toInt < 2 ^ 63) :
    (initPagination (some page) (some size)).getOffset.toInt = (page.toInt - 1) * size.toInt := by
  have hnonneg : 0 ≤ (page.toInt - 1) * size.toInt := by
    apply mul_nonneg <;> omega
  rw [Pagination.getOffset, getPage_of_pos hpage, getLimit_of_pos hsize, Int64.toInt_mul,
    toInt_sub_one hpage]
  apply Int.bmod_eq_of_le <;> omega

/-- The rows of a page whose offset is in range. -/
theorem rows_of_lt (hpage : 0 < page.toInt) (hsize : 0 < size.toInt)
    (h : (page.toInt - 1) * size.toInt < 2 ^ 63) :
    (listing t condition (some size) page).rows =
      pageOf (t.find condition) size.toInt.toNat (page.toInt - 1).toNat := by
  have hoffset := getOffset_of_lt hpage hsize h
  have hnonneg : ¬ (initPagination (some page) (some size)).getOffset < 0 := by
    rw [Int64.lt_iff_toInt_lt, hoffset, not_lt]
    apply mul_nonneg <;> omega
  have hsize' : ¬ size < 0 := by
    rw [Int64.lt_iff_toInt_lt, not_lt]
    exact hsize.le
  simp only [listing, paginate, offsetLimit, if_neg hnonneg, hoffset, getLimit_of_pos hsize,
    if_neg hsize', pageOf]
  rw [Int.toNat_mul (by omega) hsize.le]

/-- The number of pages is the least that is enough, as long as no number has more than 53 bits. -/
theorem totalPages_isLeast {n : Nat} (hn : n < 2 ^ 53) (hsize : 0 < size.toInt)
    (hsize' : size.toInt ≤ 2 ^ 53) (page : Option Int64) :
    ∃ pages : ℕ, (initPagination page (some size)).totalPages n = some (pages : ℤ) ∧
      IsLeast {k : ℕ | (n : ℤ) ≤ k * size.toInt} pages := by
  obtain ⟨l, hl⟩ := Int.eq_ofNat_of_zero_le hsize.le
  rw [hl] at hsize hsize' ⊢
  have hpos : 0 < l := by omega
  have hpos' : (0 : ℚ) < l := by exact_mod_cast hpos
  have hlimit : (initPagination page (some size)).limit = size := rfl
  have hne : size ≠ 0 := by
    rintro rfl
    rw [show (0 : Int64).toInt = 0 from rfl] at hl
    omega
  have hpages : ⌈Binary64.round (Binary64.round n / Binary64.round size.toInt)⌉ =
      (⌈(n / l : ℚ)⌉₊ : ℤ) := by
    rw [hl, Int.cast_natCast, Binary64.round_natCast_of_le hn.le,
      Binary64.round_natCast_of_le (by omega), Binary64.ceil_round_div hpos hn,
      Int.natCast_ceil_eq_ceil (by positivity)]
  have henough (k : ℕ) : (n : ℤ) ≤ k * l ↔ ⌈(n / l : ℚ)⌉₊ ≤ k := by
    rw [Nat.ceil_le, div_le_iff₀ hpos']
    exact_mod_cast Iff.rfl
  have hle : ⌈(n / l : ℚ)⌉₊ ≤ n := by
    rw [← henough]
    exact_mod_cast Nat.le_mul_of_pos_right n hpos
  refine ⟨⌈(n / l : ℚ)⌉₊, ?_, (henough _).mpr le_rfl, fun k hk => (henough k).mp hk⟩
  rw [Pagination.totalPages, hlimit, if_neg hne, hpages, if_pos (by omega)]

end InRange

/-! ### Pages of one row -/

theorem appliedLimit_one : appliedLimit (some 1) = 1 := rfl

theorem getOffset_one {page : Int64} (h : 0 < page.toInt) :
    (initPagination (some page) (some 1)).getOffset.toInt = page.toInt - 1 := by
  have hlt := page.toInt_lt
  have hone : (1 : Int64).toInt = 1 := rfl
  rw [getOffset_of_lt h (by decide) (by rw [hone]; omega), hone, mul_one]

theorem rows_one {page : Int64} (h : 0 < page.toInt) :
    (listing t condition (some 1) page).rows =
      pageOf (t.find condition) 1 (page.toInt - 1).toNat := by
  have hlt := page.toInt_lt
  have hone : (1 : Int64).toInt = 1 := rfl
  rw [rows_of_lt h (by decide) (by rw [hone]; omega)]
  rfl

/-- The number of pages of one row, as it is computed. -/
theorem totalPages_one (n : Nat) (page : Option Int64) :
    (initPagination page (some 1)).totalPages n =
      if ⌈Binary64.round n⌉ < 2 ^ 63 then some ⌈Binary64.round n⌉ else none := by
  have hone : Binary64.round ((1 : Int64).toInt : ℚ) = 1 := by
    have hexact := Binary64.round_natCast_of_le (n := 1) (by norm_num)
    simpa using hexact
  have hround : Binary64.round (Binary64.round n) = Binary64.round n := by
    obtain rfl | hn := Nat.eq_zero_or_pos n
    · simp
    · exact Binary64.round_round (by exact_mod_cast hn)
  have hnonneg : 0 ≤ ⌈Binary64.round n⌉ := Int.ceil_nonneg (Binary64.round_nonneg (by positivity))
  have hlow : -2 ^ 63 ≤ ⌈Binary64.round n⌉ := le_trans (by norm_num) hnonneg
  have hlimit : (initPagination page (some 1)).limit = 1 := rfl
  rw [Pagination.totalPages, hlimit, if_neg (by decide), hone, div_one, hround]
  simp only [hlow, true_and]

/-- Pages of one row are as many as the rows, if the number of rows is exact. -/
theorem totalPages_one_eq_length_iff {n : Nat} (hn : (n : ℤ) ≤ maxInt) (page : Option Int64) :
    (initPagination page (some 1)).totalPages n = some (n : ℤ) ↔ Binary64.round n = n := by
  obtain ⟨m, hm⟩ := Binary64.exists_round_natCast n
  rw [totalPages_one, hm, Int.ceil_intCast]
  constructor
  · intro h
    split at h
    · rw [Option.some.inj h]
      rfl
    · cases h
  · intro h
    have hmn : m = n := by exact_mod_cast h
    rw [hmn, if_pos]
    exact lt_of_le_of_lt hn (by decide)

/-- Pages of one row are right, if their number is exact. -/
theorem pagesRight_one (hkeys : KeysInRange t)
    (hexact : Binary64.round (t.find condition).length = ((t.find condition).length : ℚ)) :
    PagesRight t condition (some 1) := by
  have hlength : ((t.find condition).length : ℤ) ≤ maxInt := length_find_le hkeys
  have htotal (page : Int64) : (listing t condition (some 1) page).totalPages =
      some ((t.find condition).length : ℤ) := (totalPages_one_eq_length_iff hlength _).mpr hexact
  have hpages {pages : ℕ} (h : (listing t condition (some 1) 1).totalPages = some (pages : ℤ)) :
      pages = (t.find condition).length := by
    rw [htotal] at h
    exact_mod_cast (Option.some.inj h).symm
  constructor
  case total =>
    intro page
    refine ⟨_, htotal page, ?_⟩
    rw [appliedLimit_one]
    exact ⟨by simp, fun k hk => by simpa using hk⟩
  case complete =>
    intro pages h
    rw [hpages h]
    have hpage : ∀ k ∈ List.range (t.find condition).length,
        (listing t condition (some 1) (Int64.ofInt ((k : ℤ) + 1))).rows =
          pageOf (t.find condition) 1 k := by
      intro k hk
      have hlt : (k : ℤ) + 1 ≤ maxInt := by
        have hk' := List.mem_range.mp hk
        omega
      have hnumber : (Int64.ofInt (k + 1)).toInt = k + 1 := by
        apply Int64.toInt_ofInt_of_le (by omega)
        exact lt_of_le_of_lt hlt (by decide)
      rw [rows_one (by omega), hnumber]
      simp
    rw [List.flatMap_congr hpage]
    exact flatMap_pages (by simp)
  case later =>
    intro pages h page hpage
    rw [hpages h] at hpage
    have hbehind : (t.find condition).length ≤ (page.toInt - 1).toNat := by omega
    rw [rows_one (by omega)]
    exact pageOf_eq_nil hbehind (by simp)
  case offset =>
    intro page hpage
    rw [getOffset_one hpage, appliedLimit_one, mul_one]

/-- Where the pages are right, they are of one row: any more wrap an offset around. -/
theorem pageSize_of_pagesRight (hsize : ∀ size ∈ pageSize, 0 ≤ size.toInt)
    (h : PagesRight t condition pageSize) : pageSize = some 1 := by
  obtain ⟨pages, htotal, -⟩ := h.total 1
  obtain ⟨size, rfl, hlimit, hne⟩ := eq_appliedLimit htotal
  have hle := appliedLimit_le_one h.offset
  have hnonneg := hsize size rfl
  rw [← hlimit] at hle
  have hzero : size.toInt ≠ 0 := fun hzero => hne (Int64.toInt_inj.mp hzero)
  have hone : size = 1 := Int64.toInt_inj.mp (show size.toInt = 1 by omega)
  rw [hone]

/-- **Pages in range**: with a page size, the pages of any table are right as far as their offsets are
    in range, as long as no number has more than 53 bits. -/
theorem pages_right_in_range {size : Int64} (hrows : (t.find condition).length < 2 ^ 53)
    (hsize : 0 < size.toInt) (hsize' : size.toInt ≤ 2 ^ 53) :
    ∃ pages : ℕ, IsLeast {k : ℕ | ((t.find condition).length : ℤ) ≤ k * size.toInt} pages ∧
      (∀ page, (listing t condition (some size) page).totalPages = some (pages : ℤ)) ∧
      (List.range pages).flatMap
        (fun k : ℕ => (listing t condition (some size) (Int64.ofInt ((k : ℤ) + 1))).rows) =
          t.find condition ∧
      ∀ page : Int64, (pages : ℤ) < page.toInt → (page.toInt - 1) * size.toInt < 2 ^ 63 →
        (listing t condition (some size) page).rows = [] := by
  obtain ⟨pages, htotal, hleast⟩ := totalPages_isLeast hrows hsize hsize' none
  have henough : (t.find condition).length ≤ pages * size.toInt.toNat := by
    have hmem : ((t.find condition).length : ℤ) ≤ pages * size.toInt := hleast.1
    rw [← Int.toNat_of_nonneg hsize.le] at hmem
    exact_mod_cast hmem
  refine ⟨pages, hleast, fun page => htotal, ?_, ?_⟩
  · have hpage : ∀ k ∈ List.range pages,
        (listing t condition (some size) (Int64.ofInt ((k : ℤ) + 1))).rows =
          pageOf (t.find condition) size.toInt.toNat k := by
      intro k hk
      have hlt := List.mem_range.mp hk
      -- one page less is not enough
      have hfew : (k : ℤ) * size.toInt < (t.find condition).length :=
        not_le.mp fun hle => absurd (hleast.2 hle) (not_le.mpr hlt)
      have hk' : (k : ℤ) ≤ k * size.toInt := le_mul_of_one_le_right (by omega) hsize
      have hnumber : (Int64.ofInt (k + 1)).toInt = k + 1 := by
        apply Int64.toInt_ofInt_of_le <;> omega
      rw [rows_of_lt (by omega) hsize (by rw [hnumber, add_sub_cancel_right]; omega), hnumber]
      simp
    rw [List.flatMap_congr hpage]
    exact flatMap_pages henough
  · intro page hpage hrange
    rw [rows_of_lt (by omega) hsize hrange]
    exact pageOf_eq_nil (by omega) henough

end Sizes

/-- **Pages that are right**: for every table whose keys are in range and every page size, the pages
    are right if and only if they are pages of one row and the number of the rows is a `float64`. -/
theorem pages_right_iff {ρ T : Type} [Row ρ T] {t : Table ρ} {condition : ρ → Bool}
    {pageSize : Option Int64} (hkeys : KeysInRange t)
    (hsize : ∀ size ∈ pageSize, 0 ≤ size.toInt) :
    PagesRight t condition pageSize ↔
      pageSize = some 1 ∧
        Binary64.round (t.find condition).length = ((t.find condition).length : ℚ) := by
  have hlength : ((t.find condition).length : ℤ) ≤ maxInt := length_find_le hkeys
  constructor
  · intro h
    obtain rfl := pageSize_of_pagesRight hsize h
    refine ⟨rfl, ?_⟩
    obtain ⟨pages, htotal, hleast⟩ := h.total 1
    -- the least number of pages of one row is the number of rows
    have hpages : pages = (t.find condition).length := by
      apply hleast.unique
      rw [appliedLimit_one]
      exact ⟨by simp, fun k hk => by simpa using hk⟩
    rw [hpages] at htotal
    exact (totalPages_one_eq_length_iff hlength _).mp htotal
  · rintro ⟨rfl, hexact⟩
    exact pagesRight_one hkeys hexact

/-! ## The log of a task -/

/-- What is right for `GetTaskLogList` is what is right for its pages of ended runs. -/
theorem getTaskLogList_eq_listing (t : Table TaskLog) (taskId : Int) (pageSize : Option Int64)
    (page : Int64) : getTaskLogList t taskId (some page) pageSize =
      listing t (endedRuns taskId) pageSize page := rfl

/-- Without a page size, the log of no task has a number of pages. -/
theorem totalPages_getTaskLogList (t : Table TaskLog) (taskId : Int) (page : Int64) :
    (getTaskLogList t taskId (some page) none).totalPages = none := by
  by_contra hsome
  obtain ⟨pages, htotal⟩ := Option.ne_none_iff_exists'.mp hsome
  rw [getTaskLogList_eq_listing] at htotal
  obtain ⟨size, hsize, -⟩ := eq_appliedLimit htotal
  cases hsize

/-- A run of a task, as it is created. -/
def createdLog (taskId : Int) (status : Bool) : TaskLog := { toStamps := ⟨0, 0, 0, none⟩, taskId, status }

/-- Two ended runs of the task 1, one that goes on, and an ended run of the task 2. -/
def someLogs : Table TaskLog :=
  (((Table.empty.create (createdLog 1 false) 0).create (createdLog 2 false) 0).create (createdLog 1 true) 0).create
    (createdLog 1 false) 0

theorem someLogs_keysInRange : KeysInRange someLogs := by
  have hrows : someLogs.rows = [_, _, _, _] := rfl
  unfold KeysInRange
  simp only [hrows, List.forall_mem_cons]
  decide

/-- In pages of one row, the pages are right. -/
theorem pages_right_iff_someLogs : PagesRight someLogs (endedRuns 1) (some 1) ∧
    (someLogs.find (endedRuns 1)).length = 2 := by
  refine ⟨(pages_right_iff someLogs_keysInRange (by simp)).mpr ⟨rfl, ?_⟩, rfl⟩
  exact Binary64.round_natCast_of_le (n := 2) (by norm_num)

/-- Without a page size, there is no number of pages. -/
theorem default_size_has_no_pages : ¬ ∀ (t : Table TaskLog) (condition : TaskLog → Bool)
    (pageSize : Option Int64), KeysInRange t → (∀ size ∈ pageSize, 0 ≤ size.toInt) →
    PagesRight t condition pageSize := by
  intro hall
  obtain ⟨pages, htotal, -⟩ := (hall someLogs (endedRuns 1) none someLogs_keysInRange nofun).total 1
  rw [← getTaskLogList_eq_listing, totalPages_getTaskLogList] at htotal
  cases htotal

end Gonitor.Integrity
