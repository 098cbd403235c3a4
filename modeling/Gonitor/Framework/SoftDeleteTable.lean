import Mathlib.Data.List.Pairwise
import Mathlib.Order.Basic
import Mathlib.Tactic.ByContra

/-!
# Tables with Soft Deletion

A table of rows with an integer primary key that the table hands out in ascending order
and never hands out twice.  Deleting a row only stamps its deletion time; a query sees the
rows without that stamp (the *live* rows), while the key of a deleted row stays taken.

`Table.row?` looks a row up whether it is live or deleted, `Table.byId` only sees live
rows; `byId_eq_some` ties them.  Every operation has one lemma saying what `row?` answers
afterwards.
-/

namespace SoftDelete

/-- The columns every row has: its key and its three time stamps. -/
structure Stamps (T : Type) where
  id : Int
  createdAt : T
  updatedAt : T
  deletedAt : Option T
  deriving DecidableEq, Repr

/-- Rows of a table: values that carry the common columns. -/
class Row (ρ : Type) (T : outParam Type) where
  stamps : ρ → Stamps T
  setStamps : ρ → Stamps T → ρ
  stamps_setStamps : ∀ r s, stamps (setStamps r s) = s

export Row (stamps setStamps)

attribute [simp] Row.stamps_setStamps

variable {ρ T : Type} [Row ρ T]

/-- The primary key of a row. -/
def rowId (r : ρ) : Int := (stamps r).id

/-- Is the row visible to queries? -/
def live (r : ρ) : Bool := (stamps r).deletedAt.isNone

/-- Stamp the deletion time. -/
def markDeleted (now : T) (r : ρ) : ρ := setStamps r { stamps r with deletedAt := some now }

@[simp] theorem rowId_markDeleted (now : T) (r : ρ) : rowId (markDeleted now r) = rowId r := by
  simp [rowId, markDeleted]

@[simp] theorem live_markDeleted (now : T) (r : ρ) : live (markDeleted now r) = false := by
  simp [live, markDeleted]

/-- A table.  The fields state that keys are positive, ascending, and below the next key
    the table hands out. -/
structure Table (ρ : Type) {T : Type} [Row ρ T] where
  rows : List ρ
  nextId : Int
  nextId_pos : 0 < nextId
  ids_pos : ∀ r ∈ rows, 0 < rowId r
  ids_lt : ∀ r ∈ rows, rowId r < nextId
  ids_sorted : rows.Pairwise (fun r r' => rowId r < rowId r')

namespace Table

/-- The table without rows. -/
def empty : Table ρ where
  rows := []
  nextId := 1
  nextId_pos := by decide
  ids_pos := by simp
  ids_lt := by simp
  ids_sorted := .nil

/-! ## Lookups -/

/-- The row with key `i`, live or deleted. -/
def row? (t : Table ρ) (i : Int) : Option ρ := t.rows.find? (fun r => rowId r == i)

/-- The live row of smallest key that satisfies `p`. -/
def first (t : Table ρ) (p : ρ → Bool) : Option ρ := t.rows.find? (fun r => live r && p r)

/-- The live row with key `i`. -/
def byId (t : Table ρ) (i : Int) : Option ρ := t.first (fun r => rowId r == i)

/-- The live rows that satisfy `p`, in ascending order of keys. -/
def find (t : Table ρ) (p : ρ → Bool) : List ρ := t.rows.filter (fun r => live r && p r)

theorem row?_eq_some {t : Table ρ} {i : Int} {r : ρ} (h : t.row? i = some r) :
    r ∈ t.rows ∧ rowId r = i :=
  ⟨List.mem_of_find?_eq_some h, by simpa using List.find?_some h⟩

theorem rowId_of_row? {t : Table ρ} {i : Int} {r : ρ} (h : t.row? i = some r) : rowId r = i :=
  (row?_eq_some h).2

/-- Keys are unique. -/
theorem eq_of_rowId_eq {t : Table ρ} {r r' : ρ} (h : r ∈ t.rows) (h' : r' ∈ t.rows)
    (he : rowId r = rowId r') : r = r' := by
  by_contra hne
  have hpair : t.rows.Pairwise (fun r r' => rowId r ≠ rowId r') :=
    t.ids_sorted.imp fun hlt => Int.ne_of_lt hlt
  have : Std.Symm (fun r r' : ρ => rowId r ≠ rowId r') := ⟨fun _ _ h => h.symm⟩
  exact hpair.forall h h' hne he

theorem row?_of_mem {t : Table ρ} {r : ρ} (h : r ∈ t.rows) : t.row? (rowId r) = some r := by
  cases hf : t.row? (rowId r) with
  | none =>
    have := List.find?_eq_none.mp hf r h
    simp at this
  | some r' =>
    obtain ⟨hmem, hid⟩ := row?_eq_some hf
    rw [eq_of_rowId_eq hmem h hid]

/-- A query by key answers the row of that key if it is live. -/
theorem byId_eq_some {t : Table ρ} {i : Int} {r : ρ} :
    t.byId i = some r ↔ t.row? i = some r ∧ live r = true := by
  constructor
  · intro h
    have hmem : r ∈ t.rows := List.mem_of_find?_eq_some h
    have hp : (live r && rowId r == i) = true := List.find?_some (p := fun r => live r && rowId r == i) h
    simp only [Bool.and_eq_true, beq_iff_eq] at hp
    exact ⟨hp.2 ▸ row?_of_mem hmem, hp.1⟩
  · rintro ⟨h, hl⟩
    obtain ⟨hmem, hid⟩ := row?_eq_some h
    cases hf : t.byId i with
    | none =>
      have := List.find?_eq_none.mp hf r hmem
      simp [hl, hid] at this
    | some r' =>
      have hmem' : r' ∈ t.rows := List.mem_of_find?_eq_some hf
      have hp : (live r' && rowId r' == i) = true := List.find?_some (p := fun r => live r && rowId r == i) hf
      simp only [Bool.and_eq_true, beq_iff_eq] at hp
      rw [eq_of_rowId_eq hmem' hmem (hp.2.trans hid.symm)]

/-- A live row is found by its key. -/
theorem byId_of_mem {t : Table ρ} {r : ρ} (h : r ∈ t.rows) (hl : live r = true) :
    t.byId (rowId r) = some r :=
  byId_eq_some.mpr ⟨row?_of_mem h, hl⟩

/-- What a query by key answers is a live row of the table, of that key. -/
theorem mem_of_byId {t : Table ρ} {i : Int} {r : ρ} (h : t.byId i = some r) :
    r ∈ t.rows ∧ rowId r = i ∧ live r = true := by
  obtain ⟨hrow, hl⟩ := byId_eq_some.mp h
  obtain ⟨hmem, hid⟩ := row?_eq_some hrow
  exact ⟨hmem, hid, hl⟩

/-- A query answers the live rows that satisfy its condition. -/
theorem mem_find {t : Table ρ} {p : ρ → Bool} {r : ρ} :
    r ∈ t.find p ↔ t.byId (rowId r) = some r ∧ p r = true := by
  simp only [find, List.mem_filter, Bool.and_eq_true]
  constructor
  · rintro ⟨hmem, hlive, hp⟩
    exact ⟨byId_of_mem hmem hlive, hp⟩
  · rintro ⟨hrow, hp⟩
    obtain ⟨hmem, -, hlive⟩ := mem_of_byId hrow
    exact ⟨hmem, hlive, hp⟩

/-- Its answer has one row under each key. -/
theorem pairwise_find (t : Table ρ) (p : ρ → Bool) :
    (t.find p).Pairwise (fun r r' => rowId r < rowId r') :=
  t.ids_sorted.sublist List.filter_sublist

/-- Rows that are added at the end hide none. -/
theorem byId_of_rows_append {t t' : Table ρ} {rows : List ρ} {i : Int} {r : ρ}
    (h : t'.rows = t.rows ++ rows) (hr : t.byId i = some r) : t'.byId i = some r := by
  unfold byId first at hr ⊢
  rw [h, List.find?_append, hr]
  rfl

theorem byId_eq_none {t : Table ρ} {i : Int} :
    t.byId i = none ↔ ∀ r, t.row? i = some r → live r = false := by
  constructor
  · intro h r hr
    cases hl : live r with
    | false => rfl
    | true =>
      rw [byId_eq_some.mpr ⟨hr, hl⟩] at h
      cases h
  · intro h
    cases hb : t.byId i with
    | none => rfl
    | some r =>
      obtain ⟨hr, hl⟩ := byId_eq_some.mp hb
      rw [h r hr] at hl
      cases hl

theorem rowId_lt_nextId {t : Table ρ} {i : Int} {r : ρ} (h : t.row? i = some r) :
    i < t.nextId := by
  obtain ⟨hmem, hid⟩ := row?_eq_some h
  exact hid ▸ t.ids_lt r hmem

/-- The key the table hands out next belongs to no row. -/
theorem row?_nextId (t : Table ρ) : t.row? t.nextId = none := by
  cases h : t.row? t.nextId with
  | none => rfl
  | some r => exact absurd (rowId_lt_nextId h) (Int.lt_irrefl _)

/-! ## Updates -/

/-- Change rows without changing their keys. -/
def mapRows (t : Table ρ) (f : ρ → ρ) (hf : ∀ r, rowId (f r) = rowId r) : Table ρ where
  rows := t.rows.map f
  nextId := t.nextId
  nextId_pos := t.nextId_pos
  ids_pos := by
    intro r hr
    obtain ⟨r', hr', rfl⟩ := List.mem_map.mp hr
    exact hf r' ▸ t.ids_pos r' hr'
  ids_lt := by
    intro r hr
    obtain ⟨r', hr', rfl⟩ := List.mem_map.mp hr
    exact hf r' ▸ t.ids_lt r' hr'
  ids_sorted := by
    refine List.pairwise_map.mpr (t.ids_sorted.imp ?_)
    intro r r' hlt
    rwa [hf r, hf r']

theorem row?_mapRows (t : Table ρ) (f : ρ → ρ) (hf : ∀ r, rowId (f r) = rowId r) (i : Int) :
    (t.mapRows f hf).row? i = (t.row? i).map f := by
  have hcomp : ((fun r => rowId r == i) ∘ f) = fun r => rowId r == i := by
    funext r
    simp [hf r]
  simp only [row?, mapRows, List.find?_map, hcomp]

/-- The row that inserting `r` stores: a new key and fresh time stamps. -/
def inserted (t : Table ρ) (r : ρ) (now : T) : ρ := setStamps r ⟨t.nextId, now, now, none⟩

@[simp] theorem rowId_inserted (t : Table ρ) (r : ρ) (now : T) :
    rowId (t.inserted r now) = t.nextId := by
  simp [rowId, inserted]

/-- Insert a row under the next key. -/
def create (t : Table ρ) (r : ρ) (now : T) : Table ρ where
  rows := t.rows ++ [t.inserted r now]
  nextId := t.nextId + 1
  nextId_pos := by have := t.nextId_pos; omega
  ids_pos := by
    intro r' hr'
    rcases List.mem_append.mp hr' with h | h
    · exact t.ids_pos r' h
    · rw [List.mem_singleton.mp h, rowId_inserted]
      exact t.nextId_pos
  ids_lt := by
    intro r' hr'
    rcases List.mem_append.mp hr' with h | h
    · have := t.ids_lt r' h; omega
    · rw [List.mem_singleton.mp h, rowId_inserted]
      omega
  ids_sorted := by
    refine List.pairwise_append.mpr ⟨t.ids_sorted, List.pairwise_singleton _ _, ?_⟩
    intro r' hr' r'' hr''
    rw [List.mem_singleton.mp hr'', rowId_inserted]
    exact t.ids_lt r' hr'

theorem row?_create (t : Table ρ) (r : ρ) (now : T) (i : Int) :
    (t.create r now).row? i = if i = t.nextId then some (t.inserted r now) else t.row? i := by
  split
  · rename_i hi
    subst hi
    have hmem : t.inserted r now ∈ (t.create r now).rows := by simp [create]
    have := row?_of_mem hmem
    rwa [rowId_inserted] at this
  · rename_i hi
    have hbeq : (t.nextId == i) = false := beq_eq_false_iff_ne.mpr (Ne.symm hi)
    simp [row?, create, List.find?_append, hbeq]

/-- The rows after an insertion. -/
theorem mem_create {t : Table ρ} {r x : ρ} {now : T} :
    x ∈ (t.create r now).rows ↔ x ∈ t.rows ∨ x = t.inserted r now := by
  simp [create]

@[simp] theorem live_inserted (t : Table ρ) (r : ρ) (now : T) : live (t.inserted r now) = true := by
  simp [live, inserted]

/-- An inserted row is live. -/
theorem byId_create (t : Table ρ) (r : ρ) (now : T) (i : Int) :
    (t.create r now).byId i = if i = t.nextId then some (t.inserted r now) else t.byId i := by
  apply Option.ext
  intro a
  rw [byId_eq_some, row?_create]
  split
  · rw [Option.some.injEq]
    refine ⟨And.left, fun h => ⟨h, ?_⟩⟩
    rw [← h, live_inserted]
  · rw [byId_eq_some]

/-- Inserting a row brings no earlier key back. -/
theorem byId_create_eq_none {t : Table ρ} {i : Int} (h : t.byId i = none) (hi : i < t.nextId)
    (r : ρ) (now : T) : (t.create r now).byId i = none := by
  refine byId_eq_none.mpr fun r' hr' => byId_eq_none.mp h r' ?_
  rwa [row?_create, if_neg (Int.ne_of_lt hi)] at hr'

/-- The row that saving `r` stores: every column of `r`, with a new update time. -/
def saved (r : ρ) (now : T) : ρ := setStamps r { stamps r with updatedAt := now }

@[simp] theorem rowId_saved (r : ρ) (now : T) : rowId (saved r now) = rowId r := by
  simp [rowId, saved]

@[simp] theorem live_saved (r : ρ) (now : T) : live (saved r now) = live r := by
  simp [live, saved]

/-- Replace every column of the live row with the key of `r`.  Where there is none, the
    layer above tries to insert `r` under its old key, which a deleted row still holds, so
    the save fails. -/
def save (t : Table ρ) (r : ρ) (now : T) : Option (Table ρ) :=
  if (t.byId (rowId r)).isSome then
    some (t.mapRows (fun x => if rowId x = rowId r then saved r now else x) (by
      intro x
      split
      · rename_i h
        rw [rowId_saved, h]
      · rfl))
  else none

theorem row?_save {t t' : Table ρ} {r : ρ} {now : T} (h : t.save r now = some t') (i : Int) :
    t'.row? i = if i = rowId r then some (saved r now) else t.row? i := by
  unfold save at h
  split at h
  · rename_i hsome
    cases h
    obtain ⟨r₀, hr₀⟩ := Option.isSome_iff_exists.mp hsome
    rw [row?_mapRows]
    split
    · rename_i hi
      subst hi
      rw [(byId_eq_some.mp hr₀).1, Option.map_some, rowId_of_row? (byId_eq_some.mp hr₀).1]
      simp
    · rename_i hi
      cases hrow : t.row? i with
      | none => rfl
      | some x => simp [rowId_of_row? hrow, hi]
  · cases h

/-- The rows after a save: the row saved, and those of other keys. -/
theorem mem_of_save {t t' : Table ρ} {r x : ρ} {now : T} (h : t.save r now = some t')
    (hx : x ∈ t'.rows) : x = saved r now ∨ (x ∈ t.rows ∧ rowId x ≠ rowId r) := by
  have hrow := row?_of_mem hx
  rw [row?_save h] at hrow
  split at hrow
  · exact .inl (Option.some.inj hrow).symm
  · rename_i hne
    exact .inr ⟨(row?_eq_some hrow).1, hne⟩

/-- A save keeps the rows of other keys. -/
theorem mem_save_of_ne {t t' : Table ρ} {r x : ρ} {now : T} (h : t.save r now = some t')
    (hx : x ∈ t.rows) (hne : rowId x ≠ rowId r) : x ∈ t'.rows := by
  have hrow : t'.row? (rowId x) = some x := by
    rw [row?_save h, if_neg hne]
    exact row?_of_mem hx
  exact (row?_eq_some hrow).1

/-- A live row that has been saved is live under its key. -/
theorem byId_save {t t' : Table ρ} {r : ρ} {now : T} (h : t.save r now = some t')
    (hl : live r = true) (i : Int) :
    t'.byId i = if i = rowId r then some (saved r now) else t.byId i := by
  apply Option.ext
  intro a
  rw [byId_eq_some, row?_save h]
  split
  · rw [Option.some.injEq]
    refine ⟨And.left, fun heq => ⟨heq, ?_⟩⟩
    rw [← heq, live_saved, hl]
  · rw [byId_eq_some]

/-- Saving a row replaces it where it stands. -/
theorem rows_save {t t' : Table ρ} {r r₀ : ρ} {now : T} {front back : List ρ}
    (h : t.save r now = some t') (hrows : t.rows = front ++ r₀ :: back)
    (hid : rowId r₀ = rowId r) : t'.rows = front ++ saved r now :: back := by
  have hsorted := t.ids_sorted
  rw [hrows, List.pairwise_append, List.pairwise_cons] at hsorted
  obtain ⟨-, ⟨hback, -⟩, hfront⟩ := hsorted
  unfold save at h
  split at h
  · cases h
    simp only [mapRows, hrows, List.map_append, List.map_cons, hid, if_true]
    -- no other row has the key of the row saved
    congr 1
    · refine (List.map_congr_left fun x hx => if_neg ?_).trans (List.map_id _)
      exact Int.ne_of_lt (hid ▸ hfront x hx r₀ List.mem_cons_self)
    · congr 1
      refine (List.map_congr_left fun x hx => if_neg ?_).trans (List.map_id _)
      exact (Int.ne_of_lt (hid ▸ hback x hx)).symm
  · cases h

/-- What is saved was live. -/
theorem byId_of_save {t t' : Table ρ} {r : ρ} {now : T} (h : t.save r now = some t') :
    ∃ r₀, t.byId (rowId r) = some r₀ := by
  unfold save at h
  split at h
  · rename_i hsome
    exact Option.isSome_iff_exists.mp hsome
  · cases h

/-- Saving a live row leaves the live keys as they are. -/
theorem isSome_byId_save {t t' : Table ρ} {r : ρ} {now : T} (h : t.save r now = some t')
    (hl : live r = true) (i : Int) : (t'.byId i).isSome = (t.byId i).isSome := by
  rw [byId_save h hl]
  split
  · rename_i hi
    subst hi
    obtain ⟨r₀, hr₀⟩ := byId_of_save h
    rw [hr₀]
    rfl
  · rfl

/-- Nothing else keeps a row from being saved. -/
theorem byId_of_save_eq_none {t : Table ρ} {r : ρ} {now : T} (h : t.save r now = none) :
    t.byId (rowId r) = none := by
  unfold save at h
  split at h
  · cases h
  · rename_i hnone
    simpa using hnone

/-- Saving a row brings no deleted row back. -/
theorem byId_save_eq_none {t t' : Table ρ} {r : ρ} {now : T} (hs : t.save r now = some t')
    {i : Int} (h : t.byId i = none) : t'.byId i = none := by
  refine byId_eq_none.mpr fun r' hr' => ?_
  rw [row?_save hs] at hr'
  split at hr'
  · rename_i hi
    obtain ⟨r₀, hr₀⟩ := byId_of_save hs
    rw [← hi, h] at hr₀
    cases hr₀
  · exact byId_eq_none.mp h r' hr'

theorem nextId_save {t t' : Table ρ} {r : ρ} {now : T} (h : t.save r now = some t') :
    t'.nextId = t.nextId := by
  unfold save at h
  split at h
  · cases h; rfl
  · cases h

/-- Stamp the deletion time of the live rows that satisfy `p`. -/
def deleteWhere (t : Table ρ) (p : ρ → Bool) (now : T) : Table ρ :=
  t.mapRows (fun x => if p x = true ∧ live x = true then markDeleted now x else x) (by
    intro x
    split
    · exact rowId_markDeleted now x
    · rfl)

/-- Stamp the deletion time of the live row with key `i`, if there is one. -/
def delete (t : Table ρ) (i : Int) (now : T) : Table ρ :=
  t.mapRows (fun x => if rowId x = i ∧ live x = true then markDeleted now x else x) (by
    intro x
    split
    · exact rowId_markDeleted now x
    · rfl)

theorem row?_delete (t : Table ρ) (i j : Int) (now : T) :
    (t.delete i now).row? j =
      (t.row? j).map (fun x => if j = i ∧ live x = true then markDeleted now x else x) := by
  rw [delete, row?_mapRows]
  cases hrow : t.row? j with
  | none => rfl
  | some x => simp [rowId_of_row? hrow]

/-- A deletion takes one key out of the live ones. -/
theorem byId_delete (t : Table ρ) (i j : Int) (now : T) :
    (t.delete i now).byId j = if j = i then none else t.byId j := by
  apply Option.ext
  intro a
  rw [byId_eq_some, row?_delete]
  rcases eq_or_ne j i with rfl | hne
  · rw [if_pos rfl]
    refine ⟨?_, nofun⟩
    rintro ⟨hrow, hl⟩
    obtain ⟨r, -, rfl⟩ := Option.map_eq_some_iff.mp hrow
    -- what is left under the key is not live
    cases hlive : live r <;> simp_all
  · simp [hne, byId_eq_some]

/-- What is live after a deletion of rows was live before, and is not among those deleted. -/
theorem byId_of_deleteWhere {t : Table ρ} {p : ρ → Bool} {i : Int} {now : T} {r : ρ}
    (h : (t.deleteWhere p now).byId i = some r) : t.byId i = some r ∧ p r = false := by
  obtain ⟨hrow, hl⟩ := byId_eq_some.mp h
  rw [deleteWhere, row?_mapRows] at hrow
  obtain ⟨x, hx, rfl⟩ := Option.map_eq_some_iff.mp hrow
  split at hl
  · simp at hl
  · rename_i hnot
    rw [if_neg hnot]
    refine ⟨byId_eq_some.mpr ⟨hx, hl⟩, ?_⟩
    simpa [hl] using hnot

/-- After a deletion the key is not live, and no other key has become live. -/
theorem byId_delete_eq_none (t : Table ρ) {i j : Int} (now : T) (h : j = i ∨ t.byId j = none) :
    (t.delete i now).byId j = none := by
  refine byId_eq_none.mpr fun r' hr' => ?_
  rw [row?_delete] at hr'
  obtain ⟨r, hr, rfl⟩ := Option.map_eq_some_iff.mp hr'
  split
  · exact live_markDeleted now r
  · rename_i hnot
    rcases h with rfl | hnone
    · simpa using hnot
    · exact byId_eq_none.mp hnone r hr

/-! ## Keys -/

section Keys

variable {t₀ t t' : Table ρ} {rows : List ρ} {now : T}

/-- The keys that the next `n` rows get. -/
def nextKeys (t : Table ρ) (n : Nat) : List Int := (List.range n).map fun k : Nat => t.nextId + k

/-- The later table has the rows of the earlier one, by their keys, and after them those that have
    been inserted since. -/
def Grown (t t' : Table ρ) : Prop :=
  ∃ n : Nat, t'.nextId = t.nextId + n ∧ t'.rows.map rowId = t.rows.map rowId ++ t.nextKeys n

theorem le_of_mem_nextKeys {t : Table ρ} {n : Nat} {i : Int} (h : i ∈ t.nextKeys n) :
    t.nextId ≤ i := by
  obtain ⟨k, -, rfl⟩ := List.mem_map.mp h
  exact Int.le_add_of_nonneg_right (Int.natCast_nonneg k)

theorem Grown.refl (t : Table ρ) : Grown t t := ⟨0, by simp, by simp [nextKeys]⟩

theorem Grown.create (h : Grown t₀ t) (r : ρ) (now : T) : Grown t₀ (t.create r now) := by
  obtain ⟨n, hnext, hkeys⟩ := h
  refine ⟨n + 1, ?_, ?_⟩
  · simp only [Table.create, hnext]
    push_cast
    rw [Int.add_assoc]
  · simp only [Table.create, List.map_append, List.map_cons, List.map_nil, rowId_inserted, hkeys,
      hnext, nextKeys, List.range_succ, List.append_assoc]

theorem Grown.mapRows (h : Grown t₀ t) {f : ρ → ρ} (hf : ∀ r, rowId (f r) = rowId r) :
    Grown t₀ (t.mapRows f hf) := by
  obtain ⟨n, hnext, hkeys⟩ := h
  refine ⟨n, hnext, ?_⟩
  rw [← hkeys, Table.mapRows, List.map_map]
  exact List.map_congr_left fun r _ => hf r

theorem Grown.save (h : Grown t₀ t) {r : ρ} (hsave : t.save r now = some t') : Grown t₀ t' := by
  unfold Table.save at hsave
  split at hsave
  · cases hsave
    exact h.mapRows _
  · cases hsave

/-- The rows at the end have the keys that were next. -/
theorem Grown.keys_eq (h : Grown t t') (hrows : t'.rows = t.rows ++ rows) :
    rows.map rowId = t.nextKeys rows.length := by
  obtain ⟨n, -, hkeys⟩ := h
  rw [hrows, List.map_append] at hkeys
  have hnew := List.append_cancel_left hkeys
  have hlength : rows.length = n := by simpa [nextKeys] using congrArg List.length hnew
  rw [hnew, hlength]

end Keys

/-! ## Columns without duplicates -/

section Columns

variable {κ : Type} {t : Table ρ} {column : ρ → κ} {k : κ} {r : ρ} {now : T}

/-- No live row has the value `k` in the column. -/
def Free (t : Table ρ) (column : ρ → κ) (k : κ) : Prop := ∀ i r, t.byId i = some r → column r ≠ k

/-- No two live rows have the same value in the column. -/
def Distinct (t : Table ρ) (column : ρ → κ) : Prop :=
  ∀ i j r r', t.byId i = some r → t.byId j = some r' → column r = column r' → i = j

theorem distinct_of_rows_nil (h : t.rows = []) : t.Distinct column := by
  intro i j r r' hr
  rw [byId, first, h] at hr
  cases hr

/-- A value that a query does not find is free. -/
theorem free_of_first [DecidableEq κ] (h : t.first (fun r => column r == k) = none) :
    t.Free column k := by
  intro i r hr hk
  obtain ⟨hmem, -, hlive⟩ := mem_of_byId hr
  have := List.find?_eq_none.mp h r hmem
  simp [hlive, hk] at this

theorem Free.create (h : t.Free column k) (hne : column (t.inserted r now) ≠ k) :
    (t.create r now).Free column k := by
  intro i x hx
  rw [byId_create] at hx
  split at hx
  · cases hx
    exact hne
  · exact h i x hx

/-- A row whose value is free may be inserted. -/
theorem Distinct.create (h : t.Distinct column)
    (hfree : t.Free column (column (t.inserted r now))) : (t.create r now).Distinct column := by
  intro i j x y hx hy heq
  rw [byId_create] at hx hy
  split at hx <;> split at hy
  · rename_i hi hj
    rw [hi, hj]
  · cases hx
    exact absurd heq.symm (hfree j y hy)
  · cases hy
    exact absurd heq (hfree i x hx)
  · exact h i j x y hx hy heq

theorem Free.deleteWhere {p : ρ → Bool} (h : t.Free column k) (now : T) :
    (t.deleteWhere p now).Free column k :=
  fun i r hr => h i r (byId_of_deleteWhere hr).1

theorem Distinct.deleteWhere {p : ρ → Bool} (h : t.Distinct column) (now : T) :
    (t.deleteWhere p now).Distinct column :=
  fun i j r r' hr hr' => h i j r r' (byId_of_deleteWhere hr).1 (byId_of_deleteWhere hr').1

/-- Deleting the rows with a value makes it free. -/
theorem free_deleteWhere [DecidableEq κ] (t : Table ρ) (column : ρ → κ) (k : κ) (now : T) :
    (t.deleteWhere (fun r => column r == k) now).Free column k := by
  intro i r hr
  simpa using (byId_of_deleteWhere hr).2

end Columns

end Table

end SoftDelete
