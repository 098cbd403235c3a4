import Gonitor.Framework.SeparatedText

/-!
# Paths of Elements Between Slashes

A path is shortened by its text alone: empty elements and single dots are dropped, two dots take back the
element before them, and none lead out of the root.

- `clean_rooted`: what is left of a path from the root has plain elements only.
- `joined_rooted`: a path from the root that is put under a plain directory stays under it.
- `shortened_of_no_dots`: without two dots nothing is taken back.
-/

namespace SlashPath

open SeparatedText

variable {path : List Char} {part : List Char} {parts parts' stack : List (List Char)} {rooted : Bool}

/-! ## Elements -/

def dot : List Char := ['.']

def dots : List Char := ['.', '.']

/-- The element names something: it is not empty, and neither one dot nor two. -/
def plain (part : List Char) : Bool := part != [] && part != dot && part != dots

theorem plain_iff : plain part = true ↔ part ≠ [] ∧ part ≠ dot ∧ part ≠ dots := by
  simp [plain, and_assoc]

/-- The elements of a path, the empty ones included. -/
def elements (path : List Char) : List (List Char) := path.splitOn '/'

@[simp] theorem elements_nil : elements [] = [[]] := List.splitOn_nil '/'

@[simp] theorem elements_append_slash (path path' : List Char) :
    elements (path ++ '/' :: path') = elements path ++ elements path' :=
  List.splitOn_append_cons_self path path'

@[simp] theorem elements_slash_cons (path : List Char) : elements ('/' :: path) = [] :: elements path :=
  elements_append_slash [] path

theorem elements_of_not_mem (h : '/' ∉ part) : elements part = [part] := List.splitOn_eq_singleton h

theorem not_slash_mem_of_mem_elements (h : part ∈ elements path) : '/' ∉ part :=
  not_mem_of_mem_splitOn h

/-- Elements that are joined are found again. -/
theorem elements_join (hne : parts ≠ []) (h : ∀ part ∈ parts, '/' ∉ part) :
    elements (join '/' parts) = parts :=
  List.splitOn_intercalate '/' h hne

/-- A path is its elements with slashes between them. -/
theorem join_elements (path : List Char) : join '/' (elements path) = path :=
  List.intercalate_splitOn '/'

@[simp] theorem join_singleton (part : List Char) : join '/' [part] = part := by
  simp [join, List.intercalate]

theorem join_cons_cons (part part' : List Char) (parts : List (List Char)) :
    join '/' (part :: part' :: parts) = part ++ '/' :: join '/' (part' :: parts) := by
  simp [join, List.intercalate]

/-- `fs.ValidPath` -/
def validPath (path : List Char) : Bool := path == dot || (elements path).all plain

/-! ## Shortening -/

/-- Names of directories and files, none of which stands for anything else. -/
def Names (parts : List (List Char)) : Prop := ∀ part ∈ parts, plain part = true ∧ '/' ∉ part

/-- One more element, on the stack of those before it. -/
def push (rooted : Bool) (stack : List (List Char)) (part : List Char) : List (List Char) :=
  if part = [] ∨ part = dot then stack
  else if part = dots then
    match stack with
    | [] => if rooted then [] else [dots]
    | top :: rest => if top = dots then dots :: top :: rest else rest
  else part :: stack

@[simp] theorem push_nil (rooted : Bool) (stack : List (List Char)) : push rooted stack [] = stack := by
  simp [push]

theorem push_plain (h : plain part = true) : push rooted stack part = part :: stack := by
  obtain ⟨hnil, hdot, hdots⟩ := plain_iff.mp h
  simp [push, hnil, hdot, hdots]

/-- The elements that are left, the last one first. -/
def shortened (rooted : Bool) (stack parts : List (List Char)) : List (List Char) :=
  parts.foldl (push rooted) stack

@[simp] theorem shortened_append (rooted : Bool) (stack parts parts' : List (List Char)) :
    shortened rooted stack (parts ++ parts') = shortened rooted (shortened rooted stack parts) parts' :=
  List.foldl_append

@[simp] theorem shortened_nil_cons (rooted : Bool) (stack parts : List (List Char)) :
    shortened rooted stack ([] :: parts) = shortened rooted stack parts := by
  simp [shortened]

/-- Plain elements all are left. -/
theorem shortened_of_plain (h : ∀ part ∈ parts, plain part = true) :
    shortened rooted stack parts = parts.reverse ++ stack := by
  induction parts generalizing stack with
  | nil => rfl
  | cons part parts ih =>
    obtain ⟨hpart, hparts⟩ := List.forall_mem_cons.mp h
    have hrest : shortened rooted (part :: stack) parts = parts.reverse ++ part :: stack := ih hparts
    rw [shortened] at hrest ⊢
    rw [List.foldl_cons, push_plain hpart, hrest]
    simp

/-- Also where they have been joined. -/
theorem shortened_join (h : Names parts) :
    shortened rooted stack (elements (join '/' parts)) = parts.reverse ++ stack := by
  cases parts with
  | nil => simp [join, shortened]
  | cons part parts =>
    rw [elements_join (List.cons_ne_nil _ _) fun part hpart => (h part hpart).2]
    exact shortened_of_plain fun part hpart => (h part hpart).1

/-- From the root, plain elements are left only. -/
theorem push_names (hstack : Names stack) (hpart : '/' ∉ part) : Names (push true stack part) := by
  unfold push
  split
  · exact hstack
  · split
    · split
      · exact hstack
      · rename_i top rest
        obtain ⟨htop, hrest⟩ := List.forall_mem_cons.mp hstack
        rw [if_neg (plain_iff.mp htop.1).2.2]
        exact hrest
    · rename_i hdot hdots
      rw [not_or] at hdot
      exact List.forall_mem_cons.mpr ⟨⟨plain_iff.mpr ⟨hdot.1, hdot.2, hdots⟩, hpart⟩, hstack⟩

theorem shortened_names (hstack : Names stack) (hparts : ∀ part ∈ parts, '/' ∉ part) :
    Names (shortened true stack parts) := by
  induction parts generalizing stack with
  | nil => exact hstack
  | cons part parts ih =>
    obtain ⟨hpart, hparts⟩ := List.forall_mem_cons.mp hparts
    exact ih (push_names hstack hpart) hparts

/-- Without two dots nothing is taken back. -/
theorem shortened_of_no_dots (h : dots ∉ parts) :
    ∃ more, shortened rooted stack parts = more ++ stack := by
  induction parts generalizing stack with
  | nil => exact ⟨[], rfl⟩
  | cons part parts ih =>
    obtain ⟨hpart, hparts⟩ := not_or.mp (mt List.mem_cons.mpr h)
    obtain ⟨more, hmore⟩ : ∃ more, shortened rooted (push rooted stack part) parts =
        more ++ push rooted stack part := ih hparts
    have hstep : shortened rooted stack (part :: parts) = more ++ push rooted stack part := hmore
    rw [hstep]
    by_cases hnil : part = [] ∨ part = dot
    · exact ⟨more, by simp [push, hnil]⟩
    · have hkept : push rooted stack part = part :: stack := by
        simp [push, hnil, Ne.symm hpart]
      exact ⟨more ++ [part], by simp [hkept]⟩

theorem Names.reverse (h : Names parts) : Names parts.reverse := fun part hpart =>
  h part (List.mem_reverse.mp hpart)

/-- `path.Clean` -/
def clean (path : List Char) : List Char :=
  if path.head? = some '/' then '/' :: join '/' (shortened true [] (elements path)).reverse
  else match (shortened false [] (elements path)).reverse with
    | [] => dot
    | parts => join '/' parts

/-- **What is left from the root** are names. -/
theorem clean_rooted (path : List Char) : ∃ parts, Names parts ∧
    parts.reverse = shortened true [] (elements path) ∧ clean ('/' :: path) = '/' :: join '/' parts := by
  have hnames : Names (shortened true [] (elements path)) :=
    shortened_names (fun _ h => nomatch h) fun _ => not_slash_mem_of_mem_elements
  exact ⟨_, hnames.reverse, List.reverse_reverse _, by simp [clean]⟩

/-- A path that starts with a name does not start at the root. -/
theorem head_ne_slash (h : elements path = part :: parts) (hpart : plain part = true) :
    path.head? ≠ some '/' := by
  intro hhead
  obtain ⟨rest, rfl⟩ := List.head?_eq_some_iff.mp hhead
  rw [elements_slash_cons, List.cons.injEq] at h
  exact (plain_iff.mp hpart).1 h.1.symm

/-! ## Putting paths together -/

/-- `filepath.Join`, where the separator is the slash. -/
def joined (paths : List (List Char)) : List Char :=
  match paths.dropWhile (· == []) with
  | [] => []
  | paths => clean (join '/' paths)

/-- **A path from the root stays under the directory** that it is put under. -/
theorem joined_rooted (hne : parts ≠ []) (h : Names parts) (h' : Names parts') :
    joined [join '/' parts, '/' :: join '/' parts'] = join '/' (parts ++ parts') := by
  obtain ⟨part, rest, rfl⟩ := List.exists_cons_of_ne_nil hne
  have hplain := (h part List.mem_cons_self).1
  have hparts := elements_join hne fun part hpart => (h part hpart).2
  have hdir : join '/' (part :: rest) ≠ [] := by
    intro hnil
    rw [hnil, elements_nil, List.cons.injEq] at hparts
    exact (plain_iff.mp hplain).1 hparts.1.symm
  have helements : elements (join '/' [join '/' (part :: rest), '/' :: join '/' parts']) =
      part :: (rest ++ [] :: elements (join '/' parts')) := by
    rw [join_cons_cons, join_singleton, elements_append_slash, hparts, elements_slash_cons,
      List.cons_append]
  have hleft : (shortened false [] (part :: (rest ++ [] :: elements (join '/' parts')))).reverse =
      part :: rest ++ parts' := by
    rw [← List.cons_append, shortened_append, shortened_nil_cons,
      shortened_of_plain fun part hpart => (h part hpart).1, shortened_join h']
    simp
  simp only [joined, List.dropWhile_cons, beq_iff_eq, hdir, if_false, clean, head_ne_slash helements hplain,
    helements, hleft, List.cons_append]

end SlashPath
