import Mathlib.Data.List.DropRight

/-!
# Texts Between Separators

A list of texts that is written as one text, with a separator between them, and read by splitting that
and dropping what is blank.  Nothing is escaped.

- `split_join_iff`: which lists come back.
- `filter_eq_map_filter_iff`: when it makes no difference whether the pieces are trimmed before they are
  looked at.
-/

namespace SeparatedText

/-! ## Trimming -/

section Trimming

variable {α : Type} {p : α → Bool} {s : List α}

/-- What is left without the characters of a kind at both ends. -/
def trim (p : α → Bool) (s : List α) : List α := (s.dropWhile p).rdropWhile p

/-- Only blanks are trimmed away as a whole. -/
theorem trim_eq_nil_iff : trim p s = [] ↔ ∀ a ∈ s, p a = true := by
  rw [trim, List.rdropWhile_eq_nil_iff]
  constructor
  · intro h
    have hall : ∀ a ∈ s.takeWhile p ++ s.dropWhile p, p a = true := by
      intro a ha
      rcases List.mem_append.mp ha with htaken | hdropped
      · exact List.mem_takeWhile_imp htaken
      · exact h a hdropped
    rwa [List.takeWhile_append_dropWhile] at hall
  · intro h a ha
    exact h a ((List.dropWhile_sublist p).subset ha)

/-- What is left is not blank. -/
theorem trim_trim_ne_nil (h : trim p s ≠ []) : trim p (trim p s) ≠ [] := by
  rw [ne_eq, trim_eq_nil_iff]
  intro hall
  -- the last character would be one of those that are trimmed
  have hlast := List.rdropWhile_last_not p (s.dropWhile p) h
  exact hlast (hall _ (List.getLast_mem h))

/-- What is put around a text that has no such characters is trimmed away. -/
theorem trim_padded {front back : List α} (hfront : ∀ a ∈ front, p a = true)
    (hback : ∀ a ∈ back, p a = true) (hs : ∀ a ∈ s, p a = false) :
    trim p (front ++ (s ++ back)) = s := by
  rw [trim, List.dropWhile_append_of_pos hfront]
  cases s with
  | nil =>
    rw [List.nil_append, List.dropWhile_eq_nil_iff.mpr hback, List.rdropWhile_nil]
  | cons a s =>
    have hback' : ∀ a ∈ back.reverse, p a = true := fun a ha => hback a (List.mem_reverse.mp ha)
    rw [List.cons_append, List.dropWhile_cons_of_neg (by simp [hs a List.mem_cons_self]),
      ← List.cons_append, List.rdropWhile, List.reverse_append,
      List.dropWhile_append_of_pos hback', ← List.rdropWhile, List.rdropWhile_eq_self_iff]
    intro hne
    simp [hs _ (List.getLast_mem hne)]

/-- Every text is what is left of it, with what is trimmed away around that. -/
theorem exists_padded (p : α → Bool) (s : List α) : ∃ front back, (∀ a ∈ front, p a = true) ∧
    (∀ a ∈ back, p a = true) ∧ front ++ (trim p s ++ back) = s := by
  refine ⟨s.takeWhile p, (s.dropWhile p).rtakeWhile p, fun a => List.mem_takeWhile_imp,
    fun a => List.mem_rtakeWhile_imp, ?_⟩
  rw [trim, List.rdropWhile_append_rtakeWhile, List.takeWhile_append_dropWhile]

end Trimming

/-! ## Splitting -/

section Splitting

variable {α : Type} [DecidableEq α] {sep : α} {s : List α}

/-- No piece has a separator. -/
theorem not_mem_of_mem_splitOn {piece : List α} (h : piece ∈ s.splitOn sep) : sep ∉ piece := by
  induction s generalizing piece with
  | nil =>
    rw [List.splitOn_nil, List.mem_singleton] at h
    simp [h]
  | cons a s ih =>
    rw [List.splitOn_cons_eq_if_modifyHead] at h
    split at h
    · rcases List.mem_cons.mp h with rfl | hmem
      · exact List.not_mem_nil
      · exact ih hmem
    · rename_i hne
      cases hpieces : s.splitOn sep with
      | nil => exact absurd hpieces (List.splitOn_ne_nil sep s)
      | cons first rest =>
        rw [hpieces] at ih h
        rcases List.mem_cons.mp h with rfl | hmem
        · have hfirst := ih List.mem_cons_self
          intro hsep
          rcases List.mem_cons.mp hsep with rfl | hsep
          · simp at hne
          · exact hfirst hsep
        · exact ih (List.mem_cons_of_mem _ hmem)

/-- The texts with a separator between them. -/
def join (sep : α) (pieces : List (List α)) : List α := [sep].intercalate pieces

/-- **Which lists come back** when what is joined is split, and the blank pieces are dropped: those
    without a separator in a text. -/
theorem split_join_iff {keep : List α → Bool} {pieces : List (List α)}
    (hkeep : ∀ piece ∈ pieces, keep piece = true) (hnil : keep [] = false) :
    ((join sep pieces).splitOn sep).filter keep = pieces ↔ ∀ piece ∈ pieces, sep ∉ piece := by
  constructor
  · intro h piece hpiece
    rw [← h] at hpiece
    exact not_mem_of_mem_splitOn (List.mem_of_mem_filter hpiece)
  · intro h
    cases pieces with
    | nil => simp [join, hnil]
    | cons piece rest =>
      rw [join, List.splitOn_intercalate sep h (List.cons_ne_nil _ _), List.filter_eq_self]
      exact hkeep

end Splitting

/-! ## Two readers -/

section Readers

variable {α : Type} {keep : List α → Bool} {f : List α → List α}

/-- **Two readers**, one that keeps some pieces as they are, and one that trims all and drops the empty
    ones, read the same if and only if all the pieces that are kept are trimmed already. -/
theorem filter_eq_map_filter_iff {pieces : List (List α)} (hnil : keep [] = false)
    (hdropped : ∀ piece, keep piece = false → f piece = []) :
    pieces.filter keep = (pieces.map f).filter (fun piece => !piece.isEmpty) ↔
      ∀ piece ∈ pieces.filter keep, f piece = piece := by
  have hlength (pieces : List (List α)) :
      ((pieces.map f).filter fun piece => !piece.isEmpty).length ≤ (pieces.filter keep).length := by
    induction pieces with
    | nil => simp
    | cons piece pieces ih =>
      cases hkeep : keep piece with
      | false => simpa [hkeep, hdropped piece hkeep] using ih
      | true =>
        rw [List.map_cons, List.filter_cons, List.filter_cons_of_pos hkeep]
        split
        · simpa using ih
        · exact Nat.le_succ_of_le ih
  induction pieces with
  | nil => simp
  | cons piece pieces ih =>
    cases hkeep : keep piece with
    | false => simpa [hkeep, hdropped piece hkeep] using ih
    | true =>
      have hne : piece ≠ [] := by
        rintro rfl
        rw [hnil] at hkeep
        cases hkeep
      rw [List.filter_cons_of_pos hkeep, List.forall_mem_cons, List.map_cons]
      by_cases hempty : f piece = []
      · -- the first reader has one more piece
        have hmore := hlength pieces
        rw [hempty, List.filter_cons_of_neg (by simp)]
        constructor
        · intro heq
          have hsame := congrArg List.length heq
          rw [List.length_cons] at hsame
          omega
        · rintro ⟨hnil', -⟩
          exact absurd hnil'.symm hne
      · rw [List.filter_cons_of_pos (by simpa using hempty), List.cons.injEq,
          eq_comm (a := piece)]
        exact and_congr_right' ih

end Readers

end SeparatedText
