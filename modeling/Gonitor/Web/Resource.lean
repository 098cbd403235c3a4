import Gonitor.Framework.SlashPath

/-!
# The Files of the Web Page

The files of the page are compiled into the program, and `Resource.Open` is how the web server opens them.
Names come from the request.  A name is first made a path from the root, so that dots in it lead nowhere;
but backslashes become slashes only afterwards.  It is `embed.FS` that refuses the dots which appear then.

## Main Results

- `open_static`: which files a request can open.
-/

namespace Gonitor.Web.Resource

open SeparatedText SlashPath

variable {File : Type} {path : List Char} {parts : List (List Char)}

/-! ## Embedded files -/

/-- `client/build` -/
def buildDir : List (List Char) := ["client".toList, "build".toList]

/-- `client/build/static` -/
def staticDir : List (List Char) := buildDir ++ ["static".toList]

/-- The files that match the pattern `client/build/static/*`, and their directories. -/
structure Embedded (File : Type) where
  lookup : List Char → Option File
  matched : ∀ name file, lookup name = some file → name = dot ∨ name = "client".toList ∨
    name = join '/' buildDir ∨ ∃ rest, elements name = staticDir ++ rest

/-- `embed.FS.Open` -/
def Embedded.open (fs : Embedded File) (name : List Char) : Option File :=
  if validPath name then fs.lookup name else none

/-! ## `Resource.Open` -/

/-- `strings.ReplaceAll(_, "\\", "/")` -/
def slashes (path : List Char) : List Char := path.map fun c => if c = '\\' then '/' else c

/-- The name under which the file is looked up.  (The separator of the system is the slash, so no name is
    refused for it, and `filepath.FromSlash` changes nothing.) -/
def fullName (name : List Char) : List Char :=
  slashes (joined [join '/' buildDir, clean ("/static/".toList ++ name)])

def «open» (fs : Embedded File) (name : List Char) : Option File := fs.open (fullName name)

/-! ## Which name is looked up -/

/-- Only where a backslash is, an element becomes several. -/
theorem elements_slashes_join (hne : parts ≠ []) :
    elements (slashes (join '/' parts)) = parts.flatMap fun part => elements (slashes part) := by
  induction parts with
  | nil => exact absurd rfl hne
  | cons part parts ih =>
    cases parts with
    | nil => simp
    | cons part' parts =>
      have happend : slashes (part ++ '/' :: join '/' (part' :: parts)) =
          slashes part ++ '/' :: slashes (join '/' (part' :: parts)) := by simp [slashes]
      rw [join_cons_cons, happend, elements_append_slash, ih (List.cons_ne_nil _ _)]
      simp only [List.flatMap_cons]

/-- The path from the root, and the name that is looked up. -/
theorem fullName_eq (name : List Char) : ∃ parts, Names parts ∧
    parts.reverse = shortened true ["static".toList] (elements name) ∧
    fullName name = slashes (join '/' (buildDir ++ parts)) := by
  obtain ⟨parts, hparts, hleft, hclean⟩ := clean_rooted ("static".toList ++ '/' :: name)
  have hbuild : Names buildDir := by
    intro part hpart
    simp only [buildDir, List.mem_cons, List.not_mem_nil, or_false] at hpart
    rcases hpart with rfl | rfl <;> decide
  refine ⟨parts, hparts, ?_, ?_⟩
  · rw [hleft, elements_append_slash, shortened_append, elements_of_not_mem (by decide)]
    rfl
  · have hroot : "/static/".toList ++ name = '/' :: ("static".toList ++ '/' :: name) := rfl
    rw [fullName, hroot, hclean, joined_rooted (by decide) hbuild hparts]

/-- It is in `client/build`. -/
theorem elements_fullName (name : List Char) : ∃ parts, Names parts ∧
    parts.reverse = shortened true ["static".toList] (elements name) ∧
    elements (fullName name) = buildDir ++ parts.flatMap fun part => elements (slashes part) := by
  obtain ⟨parts, hparts, hleft, hfull⟩ := fullName_eq name
  refine ⟨parts, hparts, hleft, ?_⟩
  rw [hfull, elements_slashes_join (by simp [buildDir]), List.flatMap_append]
  congr 1

/-! ## Which files are opened -/

/-- The file is in `client/build/static`, and no element of its name leads out of it. -/
def InStatic (name : List Char) : Prop :=
  ∃ rest, elements name = staticDir ++ rest ∧ ∀ part ∈ rest, plain part = true

/-- A file that is opened has a valid name, under which it is embedded. -/
theorem open_eq_some {fs : Embedded File} {name : List Char} {file : File}
    (h : «open» fs name = some file) :
    (∀ part ∈ elements (fullName name), plain part = true) ∧ fs.lookup (fullName name) = some file := by
  unfold «open» Embedded.open at h
  split at h
  · rename_i hvalid
    refine ⟨?_, h⟩
    obtain ⟨parts, -, -, helements⟩ := elements_fullName name
    have hne : fullName name ≠ dot := by
      intro hdot
      rw [hdot] at helements
      exact absurd (List.cons.inj helements).1 (by decide)
    simpa [validPath, hne] using hvalid
  · cases h

theorem inStatic_of_elements {name : List Char} {rest : List (List Char)}
    (h : elements name = staticDir ++ rest) (hplain : ∀ part ∈ elements name, plain part = true) :
    InStatic name :=
  ⟨rest, h, fun part hpart => hplain part (h ▸ List.mem_append_right _ hpart)⟩

/-- **What is opened** is the directory `client/build`, or in `client/build/static`. -/
theorem open_contained {fs : Embedded File} {name : List Char} {file : File}
    (h : «open» fs name = some file) : fullName name = join '/' buildDir ∨ InStatic (fullName name) := by
  obtain ⟨hplain, hlookup⟩ := open_eq_some h
  obtain ⟨parts, -, -, helements⟩ := elements_fullName name
  rcases fs.matched _ _ hlookup with hname | hname | hname | ⟨rest, hname⟩
  · rw [hname] at helements
    exact absurd (List.cons.inj helements).1 (by decide)
  · -- `client` has one element
    rw [hname, elements_of_not_mem (by decide)] at helements
    exact absurd (congrArg List.length helements) (by simp [buildDir])
  · exact .inl hname
  · exact .inr (inStatic_of_elements hname hplain)

/-- Without two dots in the request it is in `client/build/static`. -/
theorem open_inStatic {fs : Embedded File} {name : List Char} {file : File}
    (hdots : dots ∉ elements name) (h : «open» fs name = some file) : InStatic (fullName name) := by
  obtain ⟨parts, -, hleft, helements⟩ := elements_fullName name
  obtain ⟨more, hmore⟩ : ∃ more, shortened true ["static".toList] (elements name) =
      more ++ ["static".toList] := shortened_of_no_dots hdots
  have hparts : parts = "static".toList :: more.reverse := by
    rw [← List.reverse_reverse parts, hleft, hmore]
    simp
  have hrest : elements (fullName name) =
      staticDir ++ more.reverse.flatMap fun part => elements (slashes part) := by
    rw [helements, hparts, List.flatMap_cons, ← List.append_assoc]
    congr 1
  exact inStatic_of_elements hrest (open_eq_some h).1

/-- The one element of a plain word. -/
theorem plain_of_mem_elements {word part : List Char} (hslash : '/' ∉ word) (hword : plain word = true)
    (h : part ∈ elements word) : plain part = true := by
  rw [elements_of_not_mem hslash, List.mem_singleton] at h
  rwa [h]

/-- **A plain name** is looked up as it is in `client/build/static`. -/
theorem open_plain (fs : Embedded File) {name : List Char}
    (h : ∀ part ∈ elements (slashes name), plain part = true) :
    «open» fs name = fs.lookup ("client/build/static/".toList ++ slashes name) := by
  have hflat : elements (slashes (join '/' (elements name))) =
      (elements name).flatMap fun part => elements (slashes part) :=
    elements_slashes_join (List.splitOn_ne_nil _ _)
  rw [join_elements] at hflat
  have hnames : Names (elements name) := by
    intro part hpart
    refine ⟨plain_iff.mpr ?_, not_slash_mem_of_mem_elements hpart⟩
    -- an element that is not plain would be one of the name looked up
    have hmem : ∀ odd, part = odd → odd ∈ elements (slashes odd) → odd ∈ elements (slashes name) := by
      rintro odd rfl hodd
      rw [hflat]
      exact List.mem_flatMap.mpr ⟨part, hpart, hodd⟩
    refine ⟨fun heq => ?_, fun heq => ?_, fun heq => ?_⟩
    · exact absurd (h _ (hmem _ heq (by decide))) (by decide)
    · exact absurd (h _ (hmem _ heq (by decide))) (by decide)
    · exact absurd (h _ (hmem _ heq (by decide))) (by decide)
  obtain ⟨parts, -, hleft, hfull⟩ := fullName_eq name
  have hparts : parts = "static".toList :: elements name := by
    rw [← List.reverse_reverse parts, hleft, shortened_of_plain fun part hpart => (hnames part hpart).1]
    simp
  have hfull' : fullName name = "client/build/static/".toList ++ slashes name := by
    rw [hfull, hparts]
    obtain ⟨part, rest, helements⟩ := List.exists_cons_of_ne_nil (List.splitOn_ne_nil '/' name)
    have hname := join_elements name
    rw [elements, helements] at hname ⊢
    simp only [buildDir, List.cons_append, List.nil_append, join_cons_cons, hname]
    simp [slashes]
  have hvalid : validPath (fullName name) = true := by
    have hdir : "client/build/static/".toList ++ slashes name =
        "client".toList ++ '/' :: ("build".toList ++ '/' :: ("static".toList ++ '/' :: slashes name)) := rfl
    rw [hfull', hdir, validPath, Bool.or_eq_true, List.all_eq_true]
    refine .inr fun part hpart => ?_
    simp only [elements_append_slash, List.mem_append] at hpart
    rcases hpart with hpart | hpart | hpart | hpart
    · exact plain_of_mem_elements (by decide) (by decide) hpart
    · exact plain_of_mem_elements (by decide) (by decide) hpart
    · exact plain_of_mem_elements (by decide) (by decide) hpart
    · exact h part hpart
  rw [«open», Embedded.open, hvalid, if_pos rfl, hfull']

/-- **Which files a request can open**: none outside `client/build`; without two dots in the name none
    outside its directory `static`; and there every file that has a plain name, under this name. -/
theorem open_static (fs : Embedded File) (name : List Char) :
    (∀ file, «open» fs name = some file →
      fullName name = join '/' buildDir ∨ InStatic (fullName name)) ∧
    (dots ∉ elements name → ∀ file, «open» fs name = some file → InStatic (fullName name)) ∧
    ((∀ part ∈ elements (slashes name), plain part = true) →
      «open» fs name = fs.lookup ("client/build/static/".toList ++ slashes name)) :=
  ⟨fun _ => open_contained, fun hdots _ => open_inStatic hdots, open_plain fs⟩

/-- A page with one script. -/
def oneScript : Embedded String where
  lookup name := if name = "client/build/static/js/main.js".toList then some "script" else none
  matched name file h := by
    split at h
    · rename_i hname
      exact .inr (.inr (.inr ⟨["js".toList, "main.js".toList], by rw [hname]; decide⟩))
    · cases h

/-- The script is opened by its name, also with a backslash, and not from outside. -/
theorem open_static_oneScript : «open» oneScript "js\\..\\js\\main.js".toList = none ∧
    «open» oneScript "js\\main.js".toList = some "script" ∧
    InStatic (fullName "js\\main.js".toList) := by
  have hopen : «open» oneScript "js\\main.js".toList = some "script" := by
    rw [(open_static oneScript _).2.2 (by decide)]
    decide
  exact ⟨by decide, hopen, (open_static oneScript _).2.1 (by decide) _ hopen⟩

end Gonitor.Web.Resource
