import Mathlib.Data.List.DropRight

/-!
# Flat YAML Documents

Block documents of two levels: named sections of `Key: value` lines, with an empty line between
two sections.  A value is spliced into its line as it is, without quotes.

What such a value denotes is the business of the YAML reader: it cuts off a comment, takes the
blanks away at both ends, knows a few words for the empty value, and does not take a value for a
plain one that begins with an indicator or contains the mark of a key.

## Main Results

- `readPlain_eq_self_iff`: which values denote their own text.
- `parse_text`: a document is read back from its text, section by section and line by line.
-/

namespace FlatYaml

abbrev Text := List Char

/-! ## Plain values -/

def isBlank (c : Char) : Bool := c == ' ' || c == '\t'

/-- The characters that a line can have: no control characters and no line breaks, among which
    YAML counts U+0085, U+2028 and U+2029. -/
def isReadable (c : Char) : Bool :=
  c.toNat == 0x09 || (0x20 ≤ c.toNat && c.toNat ≤ 0x7e) ||
    (0xa0 ≤ c.toNat && c.toNat ≤ 0xfffd && c.toNat != 0x2028 && c.toNat != 0x2029) ||
    0x10000 ≤ c.toNat

/-- The text up to a comment: a `#` after a blank. -/
def cutComment : Text → Text
  | [] => []
  | c :: rest => if isBlank c ∧ rest.head? = some '#' then [] else c :: cutComment rest

/-- The text without the blanks at its ends. -/
def trim (v : Text) : Text := (v.dropWhile isBlank).rdropWhile isBlank

/-- The plain values that denote the empty value. -/
def nullWords : List Text := [[], "~".toList, "null".toList, "Null".toList, "NULL".toList]

/-- Does the text have a `:` at its end, or before a blank? -/
def hasColon : Text → Bool
  | [] => false
  | c :: rest => (c == ':' && rest.head?.all isBlank) || hasColon rest

/-- The characters that begin something else than a plain value. -/
def indicators : Text := ",[]\x7b\x7d#&*!|>'\"%@`".toList

/-- Can a plain value begin so?  A hyphen, a question mark and a colon need something after
    them. -/
def startsPlain : Text → Bool
  | [] => false
  | c :: rest => c ∉ indicators ∧ (c ∈ ['-', '?', ':'] → rest.head?.any fun d => !isBlank d)

/-- What a plain value denotes, without its comment and its margins. -/
def readBody (body : Text) : Option Text :=
  if nullWords.contains body then some []
  else if startsPlain body ∧ ¬ hasColon body then some body
  else none

/-- What a value that stands after `Key: ` denotes, if it is a plain one.  The blank before the
    value counts where it begins with a `#`. -/
def readPlain (v : Text) : Option Text :=
  if v.all isReadable then readBody (trim (cutComment (' ' :: v))) else none

/-- A value that can be written as it is: nothing is cut off, and nothing has a meaning of its
    own. -/
structure IsLiteral (v : Text) : Prop where
  readable : v.all isReadable
  not_null : v ∉ nullWords
  starts : startsPlain v
  no_colon : ¬ hasColon v
  no_comment : cutComment (' ' :: v) = ' ' :: v
  no_margin : trim v = v

/-! ### What is cut off -/

theorem cutComment_isPrefixOf (v : Text) : cutComment v <+: v := by
  induction v with
  | nil => exact List.nil_prefix
  | cons c rest ih =>
    unfold cutComment
    split
    · exact List.nil_prefix
    · exact (List.prefix_cons_inj c).mpr ih

theorem trim_blank_cons (v : Text) : trim (' ' :: v) = trim v := rfl

theorem length_trim_le (v : Text) : (trim v).length ≤ v.length :=
  (List.rdropWhile_prefix isBlank _).length_le.trans (List.dropWhile_suffix isBlank).length_le

/-- If nothing is missing, there was no comment. -/
theorem cutComment_eq_self_of_trim {v : Text} (hv : v ≠ [])
    (h : trim (cutComment (' ' :: v)) = v) : cutComment (' ' :: v) = ' ' :: v := by
  unfold cutComment at h ⊢
  split at h
  · exact absurd h.symm hv
  · rename_i hcomment
    rw [if_neg hcomment]
    have hlength : v.length ≤ (cutComment v).length := by
      calc v.length = (trim (cutComment v)).length := by rw [← trim_blank_cons, h]
        _ ≤ (cutComment v).length := length_trim_le _
    rw [(cutComment_isPrefixOf v).eq_of_length_le hlength]

/-- **The values that denote their own text** are the literal ones. -/
theorem readPlain_eq_self_iff {v : Text} (hv : v ≠ []) : readPlain v = some v ↔ IsLiteral v := by
  unfold readPlain readBody
  constructor
  · intro h
    split at h
    · rename_i hreadable
      split at h
      · exact absurd (Option.some.inj h).symm hv
      · rename_i hnull
        split at h
        · rename_i hplain
          have hbody := Option.some.inj h
          have hcomment := cutComment_eq_self_of_trim hv hbody
          rw [hbody] at hnull hplain
          rw [hcomment, trim_blank_cons] at hbody
          rw [List.contains_iff_mem] at hnull
          exact ⟨hreadable, hnull, hplain.1, hplain.2, hcomment, hbody⟩
        · cases h
    · cases h
  · intro h
    have hbody : trim (cutComment (' ' :: v)) = v := by
      rw [h.no_comment, trim_blank_cons, h.no_margin]
    simp [hbody, h.readable, h.not_null, h.starts, h.no_colon]

theorem IsLiteral.ne_nil {v : Text} (h : IsLiteral v) : v ≠ [] := by
  rintro rfl
  exact h.not_null (by decide)

/-! ### Values of simple characters -/

/-- Characters that have no meaning of their own, but for a hyphen at the beginning. -/
def isSimple (c : Char) : Bool := c.isAlphanum || c == '/' || c == '_' || c == '-' || c == '.'

theorem isReadable_of_alphanum {c : Char} (h : c.isAlphanum) : isReadable c := by
  have hranges : ((decide (c.val ≥ 'A'.val ∧ c.val ≤ 'Z'.val) ||
      (c.val ≥ 'a'.val && c.val ≤ 'z'.val)) || (c.val ≥ '0'.val && c.val ≤ '9'.val)) = true := h
  simp only [Bool.or_eq_true, Bool.and_eq_true, decide_eq_true_eq, ge_iff_le,
    UInt32.le_iff_toNat_le] at hranges
  have hval : c.val.toNat = c.toNat := rfl
  simp only [hval] at hranges
  simp only [isReadable, Bool.or_eq_true, Bool.and_eq_true, decide_eq_true_eq]
  left; left; right
  grind

theorem isReadable_of_simple {c : Char} (h : isSimple c) : isReadable c := by
  simp only [isSimple, Bool.or_eq_true, beq_iff_eq] at h
  obtain (((h | rfl) | rfl) | rfl) | rfl := h
  · exact isReadable_of_alphanum h
  all_goals decide

theorem not_isBlank_of_simple {c : Char} (h : isSimple c) : isBlank c = false := by
  by_contra hblank
  simp only [isBlank, Bool.not_eq_false, Bool.or_eq_true, beq_iff_eq] at hblank
  obtain rfl | rfl := hblank <;> exact absurd h (by decide)

theorem hasColon_of_not_mem {v : Text} (h : ':' ∉ v) : ¬ hasColon v := by
  induction v with
  | nil => decide
  | cons c rest ih =>
    obtain ⟨hc, hrest⟩ := List.ne_and_not_mem_of_not_mem_cons h
    simp [hasColon, ih hrest, hc.symm]

theorem cutComment_of_not_mem {v : Text} (h : '#' ∉ v) : cutComment v = v := by
  induction v with
  | nil => rfl
  | cons c rest ih =>
    obtain ⟨-, hrest⟩ := List.ne_and_not_mem_of_not_mem_cons h
    have hnext : rest.head? ≠ some '#' := fun hhead => hrest (List.mem_of_head? hhead)
    simp [cutComment, hnext, ih hrest]

theorem trim_of_forall {v : Text} (h : ∀ c ∈ v, isBlank c = false) : trim v = v := by
  have hleft : v.dropWhile isBlank = v := by
    cases v with
    | nil => rfl
    | cons c rest => exact List.dropWhile_cons_of_neg (by simp [h c])
  rw [trim, hleft, List.rdropWhile_eq_self_iff]
  intro hne
  simp [h _ (List.getLast_mem hne)]

theorem hasColon_append {a : Text} (h : ':' ∉ a) (b : Text) : hasColon (a ++ b) = hasColon b := by
  induction a with
  | nil => rfl
  | cons c a ih =>
    obtain ⟨hc, ha⟩ := List.ne_and_not_mem_of_not_mem_cons h
    simp [hasColon, ih ha, hc.symm]

/-- A text of simple characters and colons is literal if it is longer than the null words and
    begins and goes on as a plain value. -/
theorem isLiteral_of_colons {v : Text} (h : ∀ c ∈ v, isSimple c ∨ c = ':') (hcolon : ¬ hasColon v)
    (hstarts : startsPlain v) (hlength : 4 < v.length) : IsLiteral v := by
  have hnot : ∀ c, isSimple c = false → c ≠ ':' → c ∉ v := by
    intro c hc hne hmem
    obtain hsimple | rfl := h c hmem
    · rw [hc] at hsimple
      cases hsimple
    · exact hne rfl
  have hblank : ∀ c ∈ v, isBlank c = false := by
    intro c hc
    obtain hsimple | rfl := h c hc
    · exact not_isBlank_of_simple hsimple
    · decide
  refine ⟨?_, ?_, hstarts, hcolon, ?_, trim_of_forall hblank⟩
  · apply List.all_eq_true.mpr
    intro c hc
    obtain hsimple | rfl := h c hc
    · exact isReadable_of_simple hsimple
    · decide
  · intro hnull
    have hshort : ∀ w ∈ nullWords, w.length ≤ 4 := by decide
    exact absurd (hshort v hnull) (by omega)
  · exact cutComment_of_not_mem (by simp [hnot '#' (by decide) (by decide)])

/-- No indicator is a simple character. -/
theorem not_mem_indicators_of_simple {c : Char} (h : isSimple c) : c ∉ indicators := by
  intro hmem
  have hall : indicators.all (fun i => !isSimple i) = true := rfl
  have hnot := List.all_eq_true.mp hall c hmem
  simp [h] at hnot

/-- A text of simple characters that is longer than the null words is literal. -/
theorem isLiteral_of_simple {v : Text} (h : v.all isSimple) (hlength : 4 < v.length) :
    IsLiteral v := by
  have hsimple : ∀ c ∈ v, isSimple c = true := List.all_eq_true.mp h
  have hnot : ∀ c, isSimple c = false → c ∉ v := by
    intro c hc hmem
    rw [hsimple c hmem] at hc
    cases hc
  apply isLiteral_of_colons (fun c hc => .inl (hsimple c hc))
    (hasColon_of_not_mem (hnot ':' (by decide))) _ hlength
  obtain ⟨c, d, rest, rfl⟩ : ∃ c d rest, v = c :: d :: rest := by
    match v, hlength with
    | c :: d :: rest, _ => exact ⟨c, d, rest, rfl⟩
  have hc : c ∉ indicators := not_mem_indicators_of_simple (hsimple c List.mem_cons_self)
  have hd : isBlank d = false := not_isBlank_of_simple (hsimple d (by simp))
  simp [startsPlain, hc, hd]

/-- A number or a word is a plain value. -/
theorem readPlain_isSome_of_alphanum {v : Text} (h : v.all Char.isAlphanum) :
    (readPlain v).isSome := by
  have halphanum : ∀ c ∈ v, c.isAlphanum = true := List.all_eq_true.mp h
  have hnot : ∀ c, c.isAlphanum = false → c ∉ v := by
    intro c hc hmem
    rw [halphanum c hmem] at hc
    cases hc
  have hreadable : v.all isReadable :=
    List.all_eq_true.mpr fun c hc => isReadable_of_alphanum (halphanum c hc)
  have hblank : ∀ c ∈ v, isBlank c = false := fun c hc =>
    not_isBlank_of_simple (by simp [isSimple, halphanum c hc])
  have hbody : trim (cutComment (' ' :: v)) = v := by
    rw [cutComment_of_not_mem (by simp [hnot '#' (by decide)]), trim_blank_cons,
      trim_of_forall hblank]
  rw [readPlain, if_pos hreadable, hbody, readBody]
  split
  · rfl
  · rename_i hnull
    cases v with
    | nil => exact absurd (by decide) hnull
    | cons c rest =>
      have hc : c.isAlphanum = true := halphanum c List.mem_cons_self
      have hindicator : c ∉ indicators := not_mem_indicators_of_simple (by simp [isSimple, hc])
      -- nor is it one of the three that need something after them
      have hothers : ∀ i ∈ ['-', '?', ':'], i.isAlphanum = false := by simp
      have hother : c ∉ ['-', '?', ':'] := fun hmem =>
        hnot c (hothers c hmem) List.mem_cons_self
      have hstarts : startsPlain (c :: rest) = true := by
        simp only [startsPlain, hindicator, hother, not_false_eq_true, false_imp_iff, and_self,
          decide_true]
      rw [if_pos ⟨hstarts, hasColon_of_not_mem (hnot ':' (by decide))⟩]
      rfl

/-! ## Documents -/

/-- A line of a section: its key and its value. -/
abbrev Field := Text × Text

/-- A document: its sections, each with its fields. -/
abbrev Document := List (Text × List Field)

/-- The value of a key in a section. -/
def Document.value (doc : Document) (name key : Text) : Option Text :=
  (doc.lookup name).bind fun fields => fields.lookup key

/-- A name of a section or a key. -/
def IsName (name : Text) : Prop := name ≠ [] ∧ name.all Char.isAlphanum = true

instance (name : Text) : Decidable (IsName name) := inferInstanceAs (Decidable (_ ∧ _))

/-- The document can be written: its names are names, none twice, and no value breaks a line. -/
structure Document.WellFormed (doc : Document) : Prop where
  names : ∀ s ∈ doc, IsName s.1
  distinct : (doc.map Prod.fst).Nodup
  keys : ∀ s ∈ doc, ∀ f ∈ s.2, IsName f.1
  distinct_keys : ∀ s ∈ doc, (s.2.map Prod.fst).Nodup
  values : ∀ s ∈ doc, ∀ f ∈ s.2, '\n' ∉ f.2 ∧ '\r' ∉ f.2

/-! ### Writing -/

/-- `  Key: value` -/
def fieldLine (f : Field) : Text := ' ' :: ' ' :: (f.1 ++ ':' :: ' ' :: f.2)

/-- `Section:` and its fields. -/
def sectionLines (s : Text × List Field) : List Text := (s.1 ++ [':']) :: s.2.map fieldLine

/-- The lines of a document. -/
def documentLines : Document → List Text
  | [] => []
  | [s] => sectionLines s
  | s :: rest => sectionLines s ++ [] :: documentLines rest

/-- Lines, each with its end. -/
def joinLines (lines : List Text) : Text := (lines.map (· ++ ['\n'])).flatten

/-- The text of a document. -/
def text (doc : Document) : Text := joinLines (documentLines doc)

/-! ### Reading -/

/-- What a line of a document can be. -/
inductive Line
  | blank
  | header (name : Text)
  | field (f : Field)
  deriving DecidableEq

/-- Read a line. -/
def readLine : Text → Option Line
  | [] => some .blank
  | ' ' :: ' ' :: line =>
    match line.dropWhile (· != ':') with
    | ':' :: ' ' :: value => some (.field (line.takeWhile (· != ':'), value))
    | _ => none
  | line =>
    match line.dropWhile (· != ':') with
    | [':'] => some (.header (line.takeWhile (· != ':')))
    | _ => none

/-- Put the lines together: the fields that belong to the section before them, and the sections. -/
def assemble : List Line → List Field × Document
  | [] => ([], [])
  | .blank :: rest => assemble rest
  | .field f :: rest => (f :: (assemble rest).1, (assemble rest).2)
  | .header name :: rest => ([], (name, (assemble rest).1) :: (assemble rest).2)

/-- Read a document. -/
def parse (t : Text) : Option Document :=
  ((t.splitOn '\n').mapM readLine).bind fun lines =>
    if (assemble lines).1 = [] then some (assemble lines).2 else none

/-! ### Reading what has been written -/

theorem splitOn_joinLines {lines : List Text} (h : ∀ line ∈ lines, '\n' ∉ line) :
    (joinLines lines).splitOn '\n' = lines ++ [[]] := by
  induction lines with
  | nil => rfl
  | cons line lines ih =>
    obtain ⟨hline, hlines⟩ := List.forall_mem_cons.mp h
    have hjoin : joinLines (line :: lines) = line ++ '\n' :: joinLines lines := by simp [joinLines]
    rw [hjoin, List.splitOn_append_cons_self, List.splitOn_eq_singleton hline, ih hlines]
    rfl

theorem joinLines_eq_intercalate {lines : List Text} (h : lines ≠ []) :
    joinLines lines = ['\n'].intercalate lines ++ ['\n'] := by
  induction lines with
  | nil => exact absurd rfl h
  | cons line lines ih =>
    cases lines with
    | nil => simp [joinLines]
    | cons next lines =>
      have hrest := ih (List.cons_ne_nil _ _)
      have hjoin : joinLines (line :: next :: lines) = line ++ '\n' :: joinLines (next :: lines) := by
        simp [joinLines]
      rw [hjoin, hrest]
      simp [List.intercalate_cons_cons]

theorem takeWhile_name {name : Text} (h : ':' ∉ name) (rest : Text) :
    (name ++ ':' :: rest).takeWhile (· != ':') = name := by
  induction name with
  | nil => rfl
  | cons c name ih =>
    obtain ⟨hc, hname⟩ := List.ne_and_not_mem_of_not_mem_cons h
    simp [hc.symm, ih hname]

theorem dropWhile_name {name : Text} (h : ':' ∉ name) (rest : Text) :
    (name ++ ':' :: rest).dropWhile (· != ':') = ':' :: rest := by
  induction name with
  | nil => rfl
  | cons c name ih =>
    obtain ⟨hc, hname⟩ := List.ne_and_not_mem_of_not_mem_cons h
    simp [hc.symm, ih hname]

/-- A name has no character that is none of a name. -/
theorem IsName.not_mem {name : Text} (h : IsName name) {c : Char} (hc : c.isAlphanum = false) :
    c ∉ name := by
  intro hmem
  rw [List.all_eq_true.mp h.2 c hmem] at hc
  cases hc

theorem readLine_field {f : Field} (hkey : IsName f.1) :
    readLine (fieldLine f) = some (.field f) := by
  have hcolon : ':' ∉ f.1 := hkey.not_mem (by decide)
  simp only [readLine, fieldLine, dropWhile_name hcolon, takeWhile_name hcolon]

theorem readLine_header {name : Text} (hname : IsName name) :
    readLine (name ++ [':']) = some (.header name) := by
  have hcolon : ':' ∉ name := hname.not_mem (by decide)
  have hspace : ' ' ∉ name := hname.not_mem (by decide)
  have hdrop := dropWhile_name hcolon []
  have htake := takeWhile_name hcolon []
  obtain ⟨c, rest, rfl⟩ := List.exists_cons_of_ne_nil hname.1
  have hc : c ≠ ' ' := fun heq => hspace (heq ▸ List.mem_cons_self)
  rw [List.cons_append] at hdrop htake ⊢
  unfold readLine
  split
  · simp_all
  · simp_all
  · simp [hdrop, htake]

/-- What the lines of a document are. -/
def sectionTokens (s : Text × List Field) : List Line := .header s.1 :: s.2.map .field

def documentTokens : Document → List Line
  | [] => []
  | [s] => sectionTokens s
  | s :: rest => sectionTokens s ++ .blank :: documentTokens rest

theorem mapM_readLine_append {a b : List Text} {x y : List Line} (ha : a.mapM readLine = some x)
    (hb : b.mapM readLine = some y) : (a ++ b).mapM readLine = some (x ++ y) := by
  simp [List.mapM_append, ha, hb]

theorem mapM_readLine_fields {fields : List Field} (h : ∀ f ∈ fields, IsName f.1) :
    (fields.map fieldLine).mapM readLine = some (fields.map .field) := by
  induction fields with
  | nil => rfl
  | cons f fields ih =>
    obtain ⟨hf, hfields⟩ := List.forall_mem_cons.mp h
    simp [readLine_field hf, ih hfields]

theorem mapM_readLine_section {s : Text × List Field} (hname : IsName s.1)
    (hkeys : ∀ f ∈ s.2, IsName f.1) : (sectionLines s).mapM readLine = some (sectionTokens s) := by
  simp [sectionLines, sectionTokens, readLine_header hname, mapM_readLine_fields hkeys]

theorem mapM_readLine_document {doc : Document} (hnames : ∀ s ∈ doc, IsName s.1)
    (hkeys : ∀ s ∈ doc, ∀ f ∈ s.2, IsName f.1) :
    (documentLines doc).mapM readLine = some (documentTokens doc) := by
  induction doc with
  | nil => rfl
  | cons s rest ih =>
    obtain ⟨hname, hnames⟩ := List.forall_mem_cons.mp hnames
    obtain ⟨hkey, hkeys⟩ := List.forall_mem_cons.mp hkeys
    have hsection := mapM_readLine_section hname hkey
    cases rest with
    | nil => exact hsection
    | cons s' rest =>
      apply mapM_readLine_append hsection
      simp [readLine, ih hnames hkeys]

theorem assemble_fields (fields : List Field) (rest : List Line) :
    assemble (fields.map .field ++ rest) = (fields ++ (assemble rest).1, (assemble rest).2) := by
  induction fields with
  | nil => rfl
  | cons f fields ih => simp [assemble, ih]

theorem assemble_section (s : Text × List Field) {rest : List Line}
    (hrest : (assemble rest).1 = []) :
    assemble (sectionTokens s ++ rest) = ([], s :: (assemble rest).2) := by
  simp [sectionTokens, assemble, assemble_fields, hrest]

theorem assemble_document (doc : Document) : assemble (documentTokens doc ++ [.blank]) = ([], doc) := by
  induction doc with
  | nil => rfl
  | cons s rest ih =>
    cases rest with
    | nil => exact assemble_section s rfl
    | cons s' rest =>
      rw [documentTokens, List.append_assoc, List.cons_append, assemble_section s] <;>
        simp [assemble, ih]

theorem newline_not_mem_section {s : Text × List Field} (hname : IsName s.1)
    (hkeys : ∀ f ∈ s.2, IsName f.1) (hvalues : ∀ f ∈ s.2, '\n' ∉ f.2 ∧ '\r' ∉ f.2) :
    ∀ line ∈ sectionLines s, '\n' ∉ line := by
  intro line hline
  obtain rfl | hfield := List.mem_cons.mp hline
  · have hmem : '\n' ∉ s.1 := hname.not_mem (by decide)
    simp [hmem]
  · obtain ⟨f, hf, rfl⟩ := List.mem_map.mp hfield
    have hkey : '\n' ∉ f.1 := (hkeys f hf).not_mem (by decide)
    simp [fieldLine, hkey, hvalues f hf]

/-- No line of a document that can be written has an end inside it. -/
theorem newline_not_mem_lines {doc : Document} (h : doc.WellFormed) :
    ∀ line ∈ documentLines doc, '\n' ∉ line := by
  have hsections : ∀ s ∈ doc, ∀ line ∈ sectionLines s, '\n' ∉ line := fun s hs =>
    newline_not_mem_section (h.names s hs) (h.keys s hs) (h.values s hs)
  clear h
  induction doc with
  | nil => nofun
  | cons s rest ih =>
    obtain ⟨hs, hrest⟩ := List.forall_mem_cons.mp hsections
    cases rest with
    | nil => exact hs
    | cons s' rest =>
      rw [documentLines, List.forall_mem_append, List.forall_mem_cons]
      exact ⟨hs, List.not_mem_nil, ih hrest⟩
      simp

/-- **Round trip**: a document that can be written is read back from its text. -/
theorem parse_text {doc : Document} (h : doc.WellFormed) : parse (text doc) = some doc := by
  have hlines : (documentLines doc ++ [[]]).mapM readLine = some (documentTokens doc ++ [.blank]) :=
    mapM_readLine_append (mapM_readLine_document h.names h.keys) rfl
  rw [parse, text, splitOn_joinLines (newline_not_mem_lines h), hlines]
  simp [assemble_document]

end FlatYaml
