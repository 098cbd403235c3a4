import Mathlib.Order.Lattice
import Mathlib.Data.Option.Basic

/-!
# Incremental Pulls

A source holds rows under keys, each with the stamp of its last write.  A replica pulls from it: a
full pull takes over everything, an incremental one only the rows that were written after a given
stamp.

- `pull_eq_iff`: when an incremental pull makes the replica equal to the source.
- `pull_eq_iff_keeps`: after any evolution of the source it does if and only if no row of the replica
  has been taken away, where the stamp asked for is not later than the replica, ties apart.
-/

namespace IncrementalPull

variable {κ ρ T : Type} [LinearOrder T] (stamp : ρ → T)

/-- What a replica holds after it has taken over the rows written after `since`. -/
def pull (since : T) (source replica : κ → Option ρ) (k : κ) : Option ρ :=
  match source k with
  | some r => if since < stamp r then some r else replica k
  | none => replica k

variable {stamp} {since τ τ' : T} {source source' replica S S' S'' : κ → Option ρ}

/-- An incremental pull is as good as a full one where the replica has no row that the source has
    not, and has the rows that were not written after `since`. -/
theorem pull_eq_iff : pull stamp since source replica = source ↔ ∀ k,
    (source k = none → replica k = none) ∧
      ∀ r, source k = some r → ¬ since < stamp r → replica k = some r := by
  rw [funext_iff]
  apply forall_congr'
  intro k
  unfold pull
  cases source k with
  | none => simp
  | some r =>
    by_cases hnew : since < stamp r
    · simp [hnew]
    · simp [hnew, not_lt.mp hnew]

/-! ## Evolution of a source -/

/-- The rows that are there were there before, or have been written from the instant `τ` on. -/
def Evolves (stamp : ρ → T) (τ : T) (S S' : κ → Option ρ) : Prop :=
  ∀ k r, S' k = some r → S k = some r ∨ τ ≤ stamp r

/-- No row has been taken away. -/
def Keeps (S S' : κ → Option ρ) : Prop := ∀ k, (S k).isSome = true → (S' k).isSome = true

theorem Evolves.refl (τ : T) (S : κ → Option ρ) : Evolves stamp τ S S := fun _ _ h => .inl h

theorem Evolves.trans (h : Evolves stamp τ S S') (h' : Evolves stamp τ' S' S'') (hle : τ ≤ τ') :
    Evolves stamp τ S S'' := by
  intro k r hr
  rcases h' k r hr with hold | hnew
  · exact h k r hold
  · exact .inr (le_trans hle hnew)

theorem Keeps.refl (S : κ → Option ρ) : Keeps S S := fun _ h => h

theorem Keeps.trans (h : Keeps S S') (h' : Keeps S' S'') : Keeps S S'' := fun k hk => h' k (h k hk)

section Exact

variable (hev : Evolves stamp τ replica source) (hsince : since ≤ τ)
  (htie : ∀ k r, source k = some r → stamp r = since → replica k = some r)

include hev hsince htie

/-- What the replica has missed has been written from `τ` on, and nothing later than `τ` is asked
    for.  A row written exactly at the stamp asked for is not sent, so it has to be held already. -/
theorem held_of_evolves (k : κ) (r : ρ) (hr : source k = some r) (hold : ¬ since < stamp r) :
    replica k = some r := by
  rcases hev k r hr with hheld | hwritten
  · exact hheld
  · have heq : stamp r = since := le_antisymm (le_of_not_gt hold) (le_trans hsince hwritten)
    exact htie k r hr heq

/-- A pull leaves the replica with every row of the source. -/
theorem covers_pull (k : κ) (r : ρ) (hr : source k = some r) :
    pull stamp since source replica k = some r := by
  rw [pull, hr]
  by_cases hnew : since < stamp r
  · exact if_pos hnew
  · exact (if_neg hnew).trans (held_of_evolves hev hsince htie k r hr hnew)

/-- **Incremental pulls are exact** as long as the source loses no row that the replica has, and no
    longer. -/
theorem pull_eq_iff_keeps : pull stamp since source replica = source ↔ Keeps replica source := by
  rw [pull_eq_iff]
  apply forall_congr'
  intro k
  rw [and_iff_left (held_of_evolves hev hsince htie k)]
  cases source k <;> cases replica k <;> simp

end Exact

end IncrementalPull
