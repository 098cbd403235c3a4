import Mathlib.Data.List.Basic

/-!
# Reading Shell Texts

How a POSIX shell takes a text apart: lines, words with single quotes, redirections,
here-documents, lists of simple commands joined by `||`.  Every other construct (expansions,
compound commands, comments, …) is refused, so a reading never passes over one.

The body of a here-document is made of whole lines and ends at the first line that equals the
delimiter.

## Main Results

- `lexFrom_word`: a text of plain characters goes on with the word that is being read.
- `mem_lines_append`: what a line of a text is that begins inside a line.
- `read_utility`: a utility with an option and an argument of plain characters.
- `read_hereDoc_eq_iff`: a here-document ends at the last line of a text if and only if the
  delimiter is not among the lines before.
-/

namespace PosixShell

abbrev Text := List Char

/-! ## Lines -/

/-- The lines of a text. -/
def lines (text : Text) : List Text := text.splitOn '\n'

theorem lines_append_newline (a b : Text) : lines (a ++ '\n' :: b) = lines a ++ lines b :=
  List.splitOn_append_cons_self a b

theorem lines_of_not_mem {a : Text} (h : '\n' ∉ a) : lines a = [a] :=
  List.splitOn_eq_singleton h

theorem lines_ne_nil (a : Text) : lines a ≠ [] := List.splitOn_ne_nil _ _

/-- A text without a newline goes in front of the first line. -/
theorem lines_append {a : Text} (h : '\n' ∉ a) (b : Text) :
    lines (a ++ b) = (lines b).modifyHead (a ++ ·) := by
  induction a with
  | nil => cases hb : lines b <;> simp [hb]
  | cons c a ih =>
    obtain ⟨hc, ha⟩ := List.ne_and_not_mem_of_not_mem_cons h
    rw [List.cons_append, lines, List.splitOn_cons_eq_if_modifyHead,
      if_neg (by simpa using hc.symm)]
    rw [show (a ++ b).splitOn '\n' = lines (a ++ b) from rfl, ih ha, List.modifyHead_modifyHead]
    rfl

/-- A line that does not begin with `a` is one of the later lines of a text that begins so. -/
theorem mem_lines_append {a line : Text} (h : '\n' ∉ a) (hline : ¬ a <+: line) (b : Text) :
    line ∈ lines (a ++ b) ↔ line ∈ (lines b).tail := by
  rw [lines_append h]
  cases hb : lines b with
  | nil => exact absurd hb (lines_ne_nil b)
  | cons first rest =>
    have hne : line ≠ a ++ first := by
      rintro rfl
      exact hline (List.prefix_append a first)
    simp [hne]

/-- The lines of a text that ends in a newline. -/
def bodyLines (text : Text) : List Text := (lines text).dropLast

theorem bodyLines_concat (a : Text) : bodyLines (a ++ ['\n']) = lines a := by
  unfold bodyLines
  rw [lines_append_newline, lines_of_not_mem List.not_mem_nil, List.dropLast_concat]

/-- Lines that end in a newline come before the lines of what follows. -/
theorem lines_append_of_endsLine {a : Text} (h : ['\n'] <:+ a) (b : Text) :
    lines (a ++ b) = bodyLines a ++ lines b := by
  obtain ⟨a', rfl⟩ := h
  rw [bodyLines_concat, List.append_assoc, List.singleton_append, lines_append_newline]

theorem bodyLines_append {a : Text} (h : ['\n'] <:+ a) (b : Text) :
    bodyLines (a ++ b) = bodyLines a ++ bodyLines b := by
  rw [bodyLines, lines_append_of_endsLine h, List.dropLast_append_of_ne_nil (lines_ne_nil b)]
  rfl

/-- A line of a text that is put together from lines belongs to one of its parts. -/
theorem mem_bodyLines_flatten {line : Text} {texts : List Text} (h : ∀ text ∈ texts, ['\n'] <:+ text) :
    line ∈ bodyLines texts.flatten ↔ ∃ text ∈ texts, line ∈ bodyLines text := by
  induction texts with
  | nil =>
    rw [List.flatten_nil, bodyLines, lines_of_not_mem List.not_mem_nil]
    simp
  | cons text texts ih =>
    obtain ⟨htext, htexts⟩ := List.forall_mem_cons.mp h
    rw [List.flatten_cons, bodyLines_append htext, List.mem_append, ih htexts]
    simp only [List.mem_cons, exists_eq_or_imp]

/-! ## Words and operators -/

/-- A word, with its quotes removed; `quoted` tells whether it had any. -/
structure Word where
  text : Text
  quoted : Bool
  deriving DecidableEq

inductive Token
  | word (w : Word)
  | ioNumber (digits : Text)
  | great
  | dless
  | orIf
  deriving DecidableEq

/-- Characters without a meaning to the shell, wherever they stand. -/
def isPlain (c : Char) : Bool :=
  c.isAlphanum || c == '/' || c == '_' || c == '-' || c == '.' || c == ',' || c == ':' ||
    c == '+' || c == '@' || c == '%'

inductive CharClass
  | plain
  | blank
  | quote
  | bar
  | less
  | greater
  | other
  deriving DecidableEq

/-- What a character is to the shell outside quotes. -/
def charClass (c : Char) : CharClass :=
  if isPlain c then .plain
  else if c = ' ' ∨ c = '\t' then .blank
  else if c = '\'' then .quote
  else if c = '|' then .bar
  else if c = '<' then .less
  else if c = '>' then .greater
  else .other

/-- Where in a line the reader is: outside quotes, in a quote, or right after `|`, `<`, `<<`. -/
inductive Mode
  | outside
  | quote
  | bar
  | less
  | dless
  deriving DecidableEq

/-- What has been read of a line: the tokens, the word that goes on, and the mode. -/
structure LexState where
  tokens : List Token := []
  word : Option Word := none
  mode : Mode := .outside
  deriving DecidableEq

/-- The tokens, with the word that ends here. -/
def LexState.flush (st : LexState) : List Token :=
  match st.word with
  | none => st.tokens
  | some w => st.tokens ++ [.word w]

/-- The same before a redirection operator: an unquoted word of digits is the number of the
    file descriptor. -/
def LexState.flushNumber (st : LexState) : List Token :=
  match st.word with
  | none => st.tokens
  | some w =>
    if w.quoted = false ∧ w.text.all Char.isDigit then st.tokens ++ [.ioNumber w.text]
    else st.tokens ++ [.word w]

/-- One more character of the word. -/
def push (c : Char) : Option Word → Word
  | none => ⟨[c], false⟩
  | some w => ⟨w.text ++ [c], w.quoted⟩

/-- A quote opens in the word, or begins one. -/
def openQuote : Option Word → Word
  | none => ⟨[], true⟩
  | some w => ⟨w.text, true⟩

/-- A character outside quotes. -/
def stepOutside (st : LexState) (c : Char) : Option LexState :=
  match charClass c with
  | .plain => some ⟨st.tokens, some (push c st.word), .outside⟩
  | .blank => some ⟨st.flush, none, .outside⟩
  | .quote => some ⟨st.tokens, some (openQuote st.word), .quote⟩
  | .bar => some ⟨st.flush, none, .bar⟩
  | .less => some ⟨st.flushNumber, none, .less⟩
  | .greater => some ⟨st.flushNumber ++ [.great], none, .outside⟩
  | .other => none

/-- One character; `|` and `<` alone are refused, and so is the operator `<<-`. -/
def step (st : LexState) (c : Char) : Option LexState :=
  match st.mode with
  | .outside => stepOutside st c
  | .quote =>
    if c = '\'' then some { st with mode := .outside }
    else some { st with word := some (push c st.word) }
  | .bar => if c = '|' then some ⟨st.tokens ++ [.orIf], none, .outside⟩ else none
  | .less => if c = '<' then some ⟨st.tokens ++ [.dless], none, .dless⟩ else none
  | .dless => if c = '-' then none else stepOutside st c

/-- Read characters of a line. -/
def lexFrom (st : LexState) (text : Text) : Option LexState := text.foldlM step st

/-- The tokens of a line; one that ends in a quote or an operator is refused. -/
def lex (line : Text) : Option (List Token) :=
  (lexFrom {} line).bind fun st => if st.mode = .outside then some st.flush else none

theorem lexFrom_append (st : LexState) (a b : Text) :
    lexFrom st (a ++ b) = (lexFrom st a).bind fun st' => lexFrom st' b :=
  List.foldlM_append

theorem step_plain {c : Char} (h : isPlain c = true) (ts : List Token) (w : Option Word) :
    step ⟨ts, w, .outside⟩ c = some ⟨ts, some (push c w), .outside⟩ := by
  have hclass : charClass c = .plain := by
    unfold charClass
    rw [h]
    rfl
  show stepOutside _ c = _
  unfold stepOutside
  rw [hclass]

/-- Plain characters go on with the word that is being read. -/
theorem lexFrom_word {a : Text} (h : a.all isPlain = true) (ts : List Token) (w : Word) :
    lexFrom ⟨ts, some w, .outside⟩ a = some ⟨ts, some ⟨w.text ++ a, w.quoted⟩, .outside⟩ := by
  induction a generalizing w with
  | nil =>
    rw [List.append_nil]
    rfl
  | cons c a ih =>
    rw [List.all_cons, Bool.and_eq_true] at h
    obtain ⟨hc, ha⟩ := h
    have hrest := ih ha (push c (some w))
    simp only [lexFrom, List.foldlM_cons, step_plain hc] at hrest ⊢
    refine hrest.trans ?_
    simp [push]

/-- Some characters, all of them plain. -/
def IsPlainWord (a : Text) : Prop := a ≠ [] ∧ a.all isPlain = true

theorem IsPlainWord.append {a b : Text} (ha : IsPlainWord a) (hb : b.all isPlain = true) :
    IsPlainWord (a ++ b) := by
  refine ⟨fun hnil => ha.1 (List.append_eq_nil_iff.mp hnil).1, ?_⟩
  rw [List.all_append, ha.2, hb]
  rfl

/-- Plain characters begin a word. -/
theorem lexFrom_plain {a : Text} (hplain : IsPlainWord a) (ts : List Token) :
    lexFrom ⟨ts, none, .outside⟩ a = some ⟨ts, some ⟨a, false⟩, .outside⟩ := by
  obtain ⟨hne, h⟩ := hplain
  cases a with
  | nil => exact absurd rfl hne
  | cons c a =>
    rw [List.all_cons, Bool.and_eq_true] at h
    obtain ⟨hc, ha⟩ := h
    have hrest := lexFrom_word ha ts (push c none)
    simp only [lexFrom, List.foldlM_cons, step_plain hc] at hrest ⊢
    exact hrest

/-- A line of three plain words. -/
theorem lex_words {u o a : Text} (hu : IsPlainWord u) (ho : IsPlainWord o) (ha : IsPlainWord a) :
    lex (u ++ ' ' :: (o ++ ' ' :: a)) =
      some [.word ⟨u, false⟩, .word ⟨o, false⟩, .word ⟨a, false⟩] := by
  have hblank : ∀ ts w rest, lexFrom ⟨ts, some w, .outside⟩ (' ' :: rest) =
      lexFrom ⟨ts ++ [.word w], none, .outside⟩ rest := fun _ _ _ => rfl
  have hall : lexFrom {} (u ++ ' ' :: (o ++ ' ' :: a)) =
      some ⟨[.word ⟨u, false⟩, .word ⟨o, false⟩], some ⟨a, false⟩, .outside⟩ := by
    rw [lexFrom_append, lexFrom_plain hu, Option.bind_some, hblank, lexFrom_append,
      lexFrom_plain ho, Option.bind_some, hblank, lexFrom_plain ha]
    rfl
  rw [lex, hall]
  rfl

/-! ## Commands -/

/-- A redirection: the descriptor, and the file or the delimiter. -/
inductive Redirect
  | output (fd file : Text)
  | hereDoc (fd delimiter : Text) (quoted : Bool)
  deriving DecidableEq

/-- The words and redirections of a simple command. -/
structure Simple where
  words : List Word := []
  redirects : List Redirect := []
  deriving DecidableEq

def Simple.addWord (w : Word) (s : Simple) : Simple := { s with words := w :: s.words }

def Simple.addRedirect (r : Redirect) (s : Simple) : Simple :=
  { s with redirects := r :: s.redirects }

/-- The simple commands between the operators `||`. -/
def parse : List Token → Option (List Simple)
  | [] => some [{}]
  | .orIf :: ts => (parse ts).map ({} :: ·)
  | .word w :: ts => (parse ts).map (List.modifyHead (Simple.addWord w))
  | .great :: .word w :: ts =>
    (parse ts).map (List.modifyHead (Simple.addRedirect (.output ['1'] w.text)))
  | .dless :: .word w :: ts =>
    (parse ts).map (List.modifyHead (Simple.addRedirect (.hereDoc ['0'] w.text w.quoted)))
  | .ioNumber n :: .great :: .word w :: ts =>
    (parse ts).map (List.modifyHead (Simple.addRedirect (.output n w.text)))
  | .ioNumber n :: .dless :: .word w :: ts =>
    (parse ts).map (List.modifyHead (Simple.addRedirect (.hereDoc n w.text w.quoted)))
  | _ => none

/-- A utility with its options and operands. -/
structure Invocation where
  utility : Text
  options : List Text := []
  operands : List Text := []
  redirects : List Redirect := []
  deriving DecidableEq

/-- An argument that begins with a hyphen and is not the hyphen alone. -/
def isOption : Text → Bool
  | '-' :: _ :: _ => true
  | _ => false

/-- The options come first; `--` ends them. -/
def splitArguments : List Text → List Text × List Text
  | [] => ([], [])
  | a :: as =>
    if a = ['-', '-'] then ([a], as)
    else if isOption a then (a :: (splitArguments as).1, (splitArguments as).2)
    else ([], a :: as)

/-- The words that begin compound commands. -/
def reservedWords : List Text :=
  ["if", "then", "else", "elif", "fi", "do", "done", "case", "esac", "while", "until", "for",
    "in"].map String.toList

/-- What a simple command invokes; one without words, or one that begins with a reserved word,
    is refused. -/
def Simple.invocation (s : Simple) : Option Invocation :=
  match s.words with
  | [] => none
  | w :: ws =>
    if w.quoted = false ∧ w.text ∈ reservedWords then none
    else some ⟨w.text, (splitArguments (ws.map Word.text)).1, (splitArguments (ws.map Word.text)).2,
      s.redirects⟩

/-- The invocations of a line, of which a blank one has none. -/
def readLine (line : Text) : Option (List Invocation) :=
  match lex line with
  | none => none
  | some [] => some []
  | some (t :: ts) => (parse (t :: ts)).bind (List.mapM Simple.invocation)

/-- The delimiters of the here-documents that a line opens. -/
def delimiters (invocations : List Invocation) : List Text :=
  invocations.flatMap fun invocation => invocation.redirects.filterMap fun
    | .output _ _ => none
    | .hereDoc _ delimiter _ => some delimiter

/-- An argument that does not begin with a hyphen is an operand, and so is all that follows. -/
theorem splitArguments_operand {a : Text} (h : a.head? ≠ some '-') (as : List Text) :
    splitArguments (a :: as) = ([], a :: as) := by
  have hdash : a ≠ ['-', '-'] := by
    rintro rfl
    exact h rfl
  have hoption : isOption a = false := by
    unfold isOption
    split
    · exact absurd rfl h
    · rfl
  rw [splitArguments, if_neg hdash, hoption]
  rfl

/-- A hyphen makes an argument of more than one character an option. -/
theorem splitArguments_option {a : Text} (h : a.head? = some '-') (hlength : 1 < a.length)
    (as : List Text) : (splitArguments (a :: as)).1 ≠ [] := by
  match a, h, hlength with
  | c :: c' :: cs, h, _ =>
    cases h
    rw [splitArguments]
    split <;> simp [isOption]

/-- The option before does not matter. -/
theorem splitArguments_cons {o : Text} (h : isOption o = true) (hdash : o ≠ ['-', '-'])
    (as : List Text) :
    splitArguments (o :: as) = (o :: (splitArguments as).1, (splitArguments as).2) := by
  rw [splitArguments, if_neg hdash, if_pos h]

/-! ## Texts -/

/-- What the shell makes of the lines of a text: a list of commands, or the body of a
    here-document. -/
inductive Item
  | list (invocations : List Invocation)
  | hereDoc (body : List Text)
  deriving DecidableEq

/-- Read lines while here-documents with these delimiters are open, the first with this body so
    far.  A text that ends inside a here-document is refused. -/
def readLines : List Text → List Text → List Text → Option (List Item)
  | [], _, [] => some []
  | _ :: _, _, [] => none
  | [], _, line :: rest =>
    match readLine line with
    | none => none
    | some invocations =>
      (readLines (delimiters invocations) [] rest).map (.list invocations :: ·)
  | d :: ds, body, line :: rest =>
    if line = d then (readLines ds [] rest).map (.hereDoc body :: ·)
    else readLines (d :: ds) (body ++ [line]) rest

/-- The reading of a text. -/
def read (text : Text) : Option (List Item) := readLines [] [] (lines text)

theorem readLines_line {line : Text} {invocations : List Invocation}
    (h : readLine line = some invocations) (rest : List Text) :
    readLines [] [] (line :: rest) =
      (readLines (delimiters invocations) [] rest).map (.list invocations :: ·) := by
  rw [readLines, h]

/-- A here-document ends at the first line that equals its delimiter. -/
theorem readLines_hereDoc {d : Text} {body : List Text} (h : d ∉ body) (ds before rest : List Text) :
    readLines (d :: ds) before (body ++ d :: rest) =
      (readLines ds [] rest).map (.hereDoc (before ++ body) :: ·) := by
  induction body generalizing before with
  | nil => rw [List.nil_append, readLines, if_pos rfl, List.append_nil]
  | cons line body ih =>
    obtain ⟨hline, hbody⟩ := List.ne_and_not_mem_of_not_mem_cons h
    rw [List.cons_append, readLines, if_neg hline.symm, ih hbody]
    simp

/-- All lines but the last are the body of the here-document, if and only if the delimiter is
    not among them. -/
theorem readLines_hereDoc_eq_iff {d : Text} {body : List Text} :
    readLines [d] [] (body ++ [d]) = some [.hereDoc body] ↔ d ∉ body := by
  constructor
  · intro h hmem
    -- the body that is read ends where the delimiter comes first
    obtain ⟨first, rest, hsplit, hfirst⟩ := List.eq_append_cons_of_mem hmem
    rw [hsplit, List.append_assoc, List.cons_append, readLines_hereDoc hfirst] at h
    cases hrest : readLines [] [] (rest ++ [d]) with
    | none =>
      rw [hrest] at h
      cases h
    | some items =>
      rw [hrest] at h
      simp only [Option.map_some, Option.some.injEq, List.cons.injEq, Item.hereDoc.injEq,
        List.nil_append] at h
      have hlength := congrArg List.length h.1
      simp at hlength
  · intro h
    rw [readLines_hereDoc h]
    rfl

/-- A text of one line without here-documents. -/
theorem read_line {text : Text} {invocations : List Invocation} (hline : '\n' ∉ text)
    (h : readLine text = some invocations) (hdoc : delimiters invocations = []) :
    read text = some [.list invocations] := by
  unfold read
  rw [lines_of_not_mem hline, readLines_line h, hdoc]
  rfl

theorem newline_not_mem_of_plain {a : Text} (h : IsPlainWord a) : '\n' ∉ a := fun hmem => by
  have hplain := List.all_eq_true.mp h.2 _ hmem
  revert hplain
  decide

/-- A utility with an option and one more argument, all of plain characters. -/
theorem read_utility {u o a : Text} (hu : IsPlainWord u) (ho : IsPlainWord o) (ha : IsPlainWord a)
    (hunreserved : u ∉ reservedWords) (hoption : isOption o = true) (hdash : o ≠ ['-', '-']) :
    read (u ++ ' ' :: (o ++ ' ' :: a)) =
      some [.list [⟨u, o :: (splitArguments [a]).1, (splitArguments [a]).2, []⟩]] := by
  apply read_line
  · simp [newline_not_mem_of_plain hu, newline_not_mem_of_plain ho, newline_not_mem_of_plain ha]
  · unfold readLine
    rw [lex_words hu ho ha]
    show Option.bind (some [⟨[⟨u, false⟩, ⟨o, false⟩, ⟨a, false⟩], []⟩])
      (List.mapM Simple.invocation) = _
    simp [Simple.invocation, hunreserved, splitArguments_cons hoption hdash]
  · rfl

/-- A line that opens a here-document, its body and its delimiter: the body ends at the last
    line, if and only if no line of it is the delimiter. -/
theorem read_hereDoc_eq_iff {line body d : Text} {invocations : List Invocation}
    (hline : '\n' ∉ line) (h : readLine line = some invocations)
    (hdoc : delimiters invocations = [d]) (hd : '\n' ∉ d) (hbody : ['\n'] <:+ body) :
    read (line ++ '\n' :: (body ++ d)) = some [.list invocations, .hereDoc (bodyLines body)] ↔
      d ∉ bodyLines body := by
  unfold read
  rw [lines_append_newline, lines_of_not_mem hline, lines_append_of_endsLine hbody,
    lines_of_not_mem hd, List.singleton_append, readLines_line h, hdoc,
    ← readLines_hereDoc_eq_iff (d := d)]
  constructor
  · intro hmap
    obtain ⟨items, hitems, hcons⟩ := Option.map_eq_some_iff.mp hmap
    rw [hitems, (List.cons.inj hcons).2]
  · intro hitems
    rw [hitems]
    rfl

end PosixShell
