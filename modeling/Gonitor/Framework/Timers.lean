import Mathlib.Data.List.Nodup

/-!
# Timers of an Event Loop

A program that runs one callback at a time sets timers, clears them, and gets one callback when one is
due.  It remembers the number of a timer in a variable, and nothing but its own care keeps the variable
right: `Holds` says that it is.

- `Holds.set`, `Holds.clear`, `Holds.fire`: how a variable is kept right.
-/

namespace EventLoop

variable {κ : Type}

/-- Timers that are pending, each with its number and what it calls. -/
structure Timers (κ : Type) where
  pending : List (Nat × κ)
  next : Nat
  lt_next : ∀ x ∈ pending, x.1 < next
  nodup : (pending.map Prod.fst).Nodup

namespace Timers

/-- No timer has been set yet. -/
def empty : Timers κ := ⟨[], 0, fun _ h => (nomatch h), List.nodup_nil⟩

/-- `setTimeout`; the number of the timer is `next`. -/
def set (t : Timers κ) (k : κ) : Timers κ where
  pending := (t.next, k) :: t.pending
  next := t.next + 1
  lt_next := by
    intro x hx
    rcases List.mem_cons.mp hx with rfl | hx
    · exact Nat.lt_succ_self _
    · exact Nat.lt_succ_of_lt (t.lt_next x hx)
  nodup := by
    refine List.nodup_cons.mpr ⟨fun hmem => ?_, t.nodup⟩
    obtain ⟨x, hx, heq⟩ := List.mem_map.mp hmem
    exact Nat.ne_of_lt (t.lt_next x hx) heq

/-- The timers but those with the number. -/
def without (t : Timers κ) (id : Nat) : Timers κ where
  pending := t.pending.filter (fun x => x.1 != id)
  next := t.next
  lt_next x hx := t.lt_next x (List.mem_of_mem_filter hx)
  nodup := t.nodup.sublist (List.filter_sublist.map _)

/-- `clearTimeout`, of what is in a variable. -/
def clear (t : Timers κ) : Option Nat → Timers κ
  | none => t
  | some id => t.without id

/-- What the timer of this number calls, if it is pending. -/
def callback (t : Timers κ) (id : Nat) : Option κ := (t.pending.find? (fun x => x.1 == id)).map Prod.snd

@[simp] theorem mem_set {t : Timers κ} {k : κ} {x : Nat × κ} :
    x ∈ (t.set k).pending ↔ x = (t.next, k) ∨ x ∈ t.pending := List.mem_cons

@[simp] theorem mem_without {t : Timers κ} {id : Nat} {x : Nat × κ} :
    x ∈ (t.without id).pending ↔ x ∈ t.pending ∧ x.1 ≠ id := by
  simp [without]

theorem mem_of_mem_clear {t : Timers κ} {slot : Option Nat} {x : Nat × κ}
    (h : x ∈ (t.clear slot).pending) : x ∈ t.pending := by
  cases slot with
  | none => exact h
  | some id => exact (mem_without.mp h).1

/-- Timers of one number are one. -/
theorem eq_of_mem {t : Timers κ} {x y : Nat × κ} (hx : x ∈ t.pending) (hy : y ∈ t.pending)
    (h : x.1 = y.1) : x = y :=
  List.inj_on_of_nodup_map t.nodup hx hy h

theorem callback_eq_some {t : Timers κ} {id : Nat} {k : κ} :
    t.callback id = some k ↔ (id, k) ∈ t.pending := by
  rw [callback, Option.map_eq_some_iff]
  constructor
  · rintro ⟨x, hfind, rfl⟩
    have hid : x.1 = id := by simpa using List.find?_some hfind
    exact hid ▸ List.mem_of_find?_eq_some hfind
  · intro hmem
    cases hfind : t.pending.find? (fun x => x.1 == id) with
    | none => simpa using List.find?_eq_none.mp hfind _ hmem
    | some x =>
      have hid : x.1 = id := by simpa using List.find?_some hfind
      have hx : x = (id, k) := eq_of_mem (List.mem_of_find?_eq_some hfind) hmem hid
      exact ⟨x, rfl, by rw [hx]⟩

end Timers

/-! ## Variables that hold timers -/

/-- The variable holds the number of every pending timer of the kind, so that there is one at most, and
    it never holds the number of another timer that is pending. -/
structure Holds (kind : κ → Prop) (slot : Option Nat) (t : Timers κ) : Prop where
  only : ∀ x ∈ t.pending, kind x.2 → slot = some x.1
  own : ∀ x ∈ t.pending, slot = some x.1 → kind x.2
  known : ∀ id, slot = some id → id < t.next

/-- No timer of the kind is pending. -/
def Idle (kind : κ → Prop) (t : Timers κ) : Prop := ∀ x ∈ t.pending, ¬ kind x.2

section Rules

variable {kind : κ → Prop} {slot slot' : Option Nat} {t : Timers κ} {k : κ} {id : Nat} {x y : Nat × κ}

theorem Holds.empty : Holds kind none (.empty : Timers κ) where
  only _ hx := by cases hx
  own _ hx := by cases hx
  known _ hid := by cases hid

/-- There is one at most. -/
theorem Holds.eq_of_mem (h : Holds kind slot t) (hx : x ∈ t.pending) (hy : y ∈ t.pending)
    (hkx : kind x.2) (hky : kind y.2) : x = y :=
  Timers.eq_of_mem hx hy (Option.some.inj ((h.only x hx hkx).symm.trans (h.only y hy hky)))

/-- A timer of another kind makes no difference. -/
theorem Holds.set_other (h : Holds kind slot t) (hk : ¬ kind k) : Holds kind slot (t.set k) where
  only x hx hkx := by
    rcases Timers.mem_set.mp hx with rfl | hx
    · exact absurd hkx hk
    · exact h.only x hx hkx
  own x hx hslot := by
    rcases Timers.mem_set.mp hx with rfl | hx
    · exact absurd (h.known _ hslot) (Nat.lt_irrefl _)
    · exact h.own x hx hslot
  known id hid := Nat.lt_succ_of_lt (h.known id hid)

theorem Idle.set_other (h : Idle kind t) (hk : ¬ kind k) : Idle kind (t.set k) := by
  intro x hx
  rcases Timers.mem_set.mp hx with rfl | hx
  · exact hk
  · exact h x hx

/-- The number of a new timer is remembered, where no other one is pending. -/
theorem Idle.set (h : Idle kind t) (hk : kind k) : Holds kind (some t.next) (t.set k) where
  only x hx hkx := by
    rcases Timers.mem_set.mp hx with rfl | hx
    · rfl
    · exact absurd hkx (h x hx)
  own x hx hslot := by
    rcases Timers.mem_set.mp hx with rfl | hx
    · exact hk
    · exact absurd (Option.some.inj hslot).symm (Nat.ne_of_lt (t.lt_next x hx))
  known id hid := by
    cases hid
    exact Nat.lt_succ_self _

/-- Timers that go make no difference. -/
theorem Holds.clear_other (h : Holds kind slot t) : Holds kind slot (t.clear slot') where
  only x hx := h.only x (Timers.mem_of_mem_clear hx)
  own x hx := h.own x (Timers.mem_of_mem_clear hx)
  known id hid := by
    cases slot' <;> exact h.known id hid

theorem Idle.clear (h : Idle kind t) : Idle kind (t.clear slot) := fun x hx =>
  h x (Timers.mem_of_mem_clear hx)

theorem Idle.fire (h : Idle kind t) : Idle kind (t.without id) :=
  (h.clear : Idle kind (t.clear (some id)))

/-- What has been cleared by its variable is pending no more. -/
theorem Holds.clear (h : Holds kind slot t) : Idle kind (t.clear slot) := by
  intro x hx hkx
  have hslot := h.only x (Timers.mem_of_mem_clear hx) hkx
  subst hslot
  exact (Timers.mem_without.mp hx).2 rfl

/-- A timer that fires was the only one of its kind. -/
theorem Holds.fire (h : Holds kind slot t) (hmem : (id, k) ∈ t.pending) (hk : kind k) :
    Idle kind (t.without id) := by
  intro x hx hkx
  obtain ⟨hx, hne⟩ := Timers.mem_without.mp hx
  exact hne (congrArg Prod.fst (h.eq_of_mem hx hmem hkx hk))

/-- Clearing leaves the timers of other kinds. -/
theorem Holds.mem_clear (h : Holds kind slot t) (hx : x ∈ t.pending) (hkx : ¬ kind x.2) :
    x ∈ (t.clear slot).pending := by
  cases slot with
  | none => exact hx
  | some id =>
    refine Timers.mem_without.mpr ⟨hx, fun heq => hkx (h.own x hx ?_)⟩
    rw [heq]

end Rules

end EventLoop
