import Mathlib.Data.Finset.Basic

/-!
# Sets Kept by a Log of Insertions and Removals

A set that follows a list of orders, each to insert an element or to remove one.  The list may be what
is still on its way to the set, so it is read from any set on: `follow_mono` compares two of them.
-/

namespace Toggles

variable {α : Type} [DecidableEq α]

/-- Insert the element if the flag is set, and remove it if not. -/
def toggle (s : Finset α) (order : α × Bool) : Finset α :=
  if order.2 then insert order.1 s else s.erase order.1

/-- Follow the orders, the first one first. -/
def follow (s : Finset α) (orders : List (α × Bool)) : Finset α := orders.foldl toggle s

variable {s t : Finset α} {a : α} {orders : List (α × Bool)}

@[simp] theorem toggle_insert : toggle s (a, true) = insert a s := rfl

@[simp] theorem toggle_erase : toggle s (a, false) = s.erase a := rfl

@[simp] theorem follow_nil (s : Finset α) : follow s [] = s := rfl

@[simp] theorem follow_cons (order : α × Bool) :
    follow s (order :: orders) = follow (toggle s order) orders := rfl

@[simp] theorem follow_append (later : List (α × Bool)) :
    follow s (orders ++ later) = follow (follow s orders) later :=
  List.foldl_append

theorem toggle_mono (h : s ⊆ t) (order : α × Bool) : toggle s order ⊆ toggle t order := by
  obtain ⟨a, flag⟩ := order
  cases flag with
  | true => simpa using Finset.insert_subset_insert a h
  | false => simpa using Finset.erase_subset_erase a h

/-- What is in the smaller set at the end is also in the larger one. -/
theorem follow_mono (h : s ⊆ t) : follow s orders ⊆ follow t orders := by
  induction orders generalizing s t with
  | nil => simpa using h
  | cons order orders ih => simpa using ih (toggle_mono h order)

/-- What is inserted ahead of the orders stays if none of them is about it. -/
theorem mem_follow_insert {b : α} :
    b ∈ follow (insert a s) orders ↔ b ∈ follow s orders ∨ (b = a ∧ ∀ order ∈ orders, order.1 ≠ a) := by
  induction orders generalizing s with
  | nil => simp [or_comm]
  | cons order orders ih =>
    obtain ⟨c, flag⟩ := order
    rcases eq_or_ne c a with rfl | hne
    · -- the order decides
      have hsame : toggle (insert c s) (c, flag) = toggle s (c, flag) := by
        cases flag <;> simp
      simp [hsame]
    · have hlater : toggle (insert a s) (c, flag) = insert a (toggle s (c, flag)) := by
        cases flag with
        | true => simp [Finset.insert_comm]
        | false => simp [Finset.erase_insert_of_ne hne.symm]
      simp [hlater, ih, hne]

/-- Orders to insert, and no others. -/
theorem mem_follow_inserts (elements : List α) :
    a ∈ follow s (elements.map fun a => (a, true)) ↔ a ∈ s ∨ a ∈ elements := by
  induction elements generalizing s with
  | nil => simp
  | cons b elements ih => simp [ih, or_assoc, or_left_comm]

end Toggles
