import Mathlib.Logic.Relation

/-!
# Acyclic Relations

A relation is acyclic if no path of one or more steps returns to where it started.  Dropping
steps keeps it acyclic.  Where only the steps out of one point are replaced, every new cycle goes
through that point, so it is enough to know that no new step leads to where the old steps lead
back (`Acyclic.redirect`); and nothing less is enough (`acyclic_redirect_iff`).
-/

namespace AcyclicRelation

open Relation

variable {α : Type} {r r' : α → α → Prop}

/-- No path returns to its start. -/
def Acyclic (r : α → α → Prop) : Prop := ∀ a, ¬ TransGen r a a

/-- A relation without steps has no cycles. -/
theorem acyclic_of_empty (h : ∀ a b, ¬ r a b) : Acyclic r := by
  intro a hcycle
  obtain ⟨b, hstep, -⟩ := TransGen.head'_iff.mp hcycle
  exact h a b hstep

/-- Dropping steps creates no cycle. -/
theorem Acyclic.mono (h : Acyclic r) (hsub : ∀ a b, r' a b → r a b) : Acyclic r' := by
  intro a hcycle
  exact h a (TransGen.mono hsub a a hcycle)

section Redirect

variable {a : α} (hother : ∀ x y, x ≠ a → r' x y → r x y)
include hother

/-- A new path into `a` takes old steps until it first gets there. -/
theorem reaches_of_redirected {x : α} (h : ReflTransGen r' x a) : ReflTransGen r x a := by
  induction h using ReflTransGen.head_induction_on with
  | refl => exact .refl
  | @head x y hstep _ ih =>
    by_cases hx : x = a
    · rw [hx]
    · exact .head (hother x y hx hstep) ih

/-- A new path is an old one, or it passes through `a`. -/
theorem redirected_path {x z : α} (h : TransGen r' x z) :
    TransGen r x z ∨ ∃ y, ReflTransGen r' x a ∧ r' a y ∧ ReflTransGen r' y z := by
  induction h using TransGen.head_induction_on with
  | @single x hstep =>
    by_cases hx : x = a
    · subst hx
      exact .inr ⟨z, .refl, hstep, .refl⟩
    · exact .inl (.single (hother x z hx hstep))
  | @head x y hstep hpath ih =>
    by_cases hx : x = a
    · subst hx
      exact .inr ⟨y, .refl, hstep, hpath.to_reflTransGen⟩
    · rcases ih with hold | ⟨w, hto, hout, hfrom⟩
      · exact .inl (.head (hother x y hx hstep) hold)
      · exact .inr ⟨w, .head hstep hto, hout, hfrom⟩

/-- **Replacing the steps out of one point** creates no cycle, if no new step leads to where the
    old steps lead back. -/
theorem Acyclic.redirect (h : Acyclic r) (hnew : ∀ y, r' a y → ¬ ReflTransGen r y a) :
    Acyclic r' := by
  intro x hcycle
  rcases redirected_path hother hcycle with hold | ⟨y, hto, hout, hfrom⟩
  · exact h x hold
  · -- the cycle, turned so that it starts at `a`
    exact hnew y hout (reaches_of_redirected hother (hfrom.trans hto))

end Redirect

/-- Where the old steps out of the other points stay, the condition is exact. -/
theorem acyclic_redirect_iff {a : α} (h : Acyclic r) (hother : ∀ x y, x ≠ a → (r' x y ↔ r x y)) :
    Acyclic r' ↔ ∀ y, r' a y → ¬ ReflTransGen r y a := by
  constructor
  · intro h' y hout hback
    -- an old path into `a` takes new steps until it first gets there
    have hback' : ReflTransGen r' y a :=
      reaches_of_redirected (fun x z hx hstep => (hother x z hx).mpr hstep) hback
    exact h' a (TransGen.head' hout hback')
  · intro hnew
    exact h.redirect (fun x y hx hstep => (hother x y hx).mp hstep) hnew

end AcyclicRelation
