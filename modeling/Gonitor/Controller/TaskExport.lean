import Gonitor.Controller.Node
import Gonitor.Controller.TaskTransfer
import Gonitor.Framework.DateTimeText
import Gonitor.Framework.IntegerText
import Gonitor.Framework.SeparatedText

/-!
# Exporting Tasks

`ExportTasks` reads the ids that it is asked for from a text, in which they stand between commas, with
blanks around them or not; a blank text asks for all tasks.  One entry that is not a number of 64 bits
makes the whole request fail.

The query fails or not; the database may refuse one that names too many ids.

## Main Results

- `parseTaskIDs_eq_some_iff`: which texts are read, and as what.
- `exportTasks_answers`: which requests are answered, and with which tasks.
-/

namespace Gonitor.Controller

open Gonitor.Model Gonitor.Server SoftDelete SeparatedText IntegerText

/-! ## The ids -/

/-- `parseTaskIDs` -/
def parseTaskIDs (value : String) : Option (List Int) :=
  if trimSpace value = "" then some []
  else
    let parts := value.toList.splitOn ','
    parts.mapM fun part => parseInt 64 (trimSpace (String.ofList part)).toList

/-- A number of 64 bits, with blanks around it. -/
inductive Entry : List Char → Int → Prop
  | padded {front numeral back : List Char} {id : Int} (hfront : ∀ c ∈ front, isSpace c = true)
      (hback : ∀ c ∈ back, isSpace c = true) (hnumeral : Numeral numeral id) (hfits : Fits 64 id) :
      Entry (front ++ (numeral ++ back)) id

/-- The text stands for the ids; no ids, where it is blank. -/
inductive IdList : List Char → List Int → Prop
  | blank {text : List Char} (hblank : ∀ c ∈ text, isSpace c = true) : IdList text []
  | entries {parts : List (List Char)} {ids : List Int} (hne : parts ≠ [])
      (hentries : List.Forall₂ Entry parts ids) : IdList (join ',' parts) ids

section Ids

variable {value : String} {part text : List Char} {ids : List Int} {id : Int}

theorem toList_trimSpace (s : String) : (trimSpace s).toList = trim isSpace s.toList := by
  simp [trimSpace, trim, List.rdropWhile]

/-- A digit is no blank. -/
theorem isSpace_of_isDigit {c : Char} (h : c.isDigit = true) : isSpace c = false := by
  have hlist : (['\t', '\n', '\x0b', '\x0c', '\r', ' ', '\u0085', '\u00a0', '\u1680', '\u2028', '\u2029',
    '\u202f', '\u205f', '\u3000'].all fun c => !c.isDigit) = true := rfl
  rw [isSpace, Bool.or_eq_false_iff, decide_eq_false_iff_not]
  constructor
  · intro hmem
    simpa [h] using List.all_eq_true.mp hlist c hmem
  · have hlow : c.toNat ≤ 57 := (Char.isDigit_iff_toNat.mp h).2
    rw [Bool.and_eq_false_iff, decide_eq_false_iff_not, Char.le_def, UInt32.le_iff_toNat_le]
    exact .inl fun hhigh => absurd (Nat.le_trans hhigh hlow) (by decide)

theorem not_isSpace_of_numeral (h : Numeral text id) : ∀ c ∈ text, isSpace c = false := by
  intro c hc
  rcases h.isDigit_or_sign hc with hdigit | rfl | rfl
  · exact isSpace_of_isDigit hdigit
  · rfl
  · rfl

/-- An entry has no comma. -/
theorem Entry.comma_notMem (h : Entry part id) : ',' ∉ part := by
  intro hcomma
  cases h with
  | padded hfront hback hnumeral =>
    simp only [List.mem_append] at hcomma
    rcases hcomma with hmem | hmem | hmem
    · exact absurd (hfront _ hmem) (by decide)
    · rcases hnumeral.isDigit_or_sign hmem with h | h | h <;> exact absurd h (by decide)
    · exact absurd (hback _ hmem) (by decide)

/-- An entry is not blank. -/
theorem Entry.not_blank (h : Entry part id) : ∃ c ∈ part, isSpace c = false := by
  cases h with
  | padded hfront hback hnumeral =>
    obtain ⟨c, hc⟩ := List.exists_mem_of_ne_nil _ hnumeral.ne_nil
    exact ⟨c, by simp [hc], not_isSpace_of_numeral hnumeral c hc⟩

theorem parseInt_trimSpace_iff :
    parseInt 64 (trimSpace (String.ofList part)).toList = some id ↔ Entry part id := by
  rw [parseInt_eq_some_iff, toList_trimSpace, String.toList_ofList]
  constructor
  · rintro ⟨hnumeral, hfits⟩
    obtain ⟨front, back, hfront, hback, hpart⟩ := exists_padded isSpace part
    rw [← hpart]
    exact .padded hfront hback hnumeral hfits
  · intro h
    cases h with
    | padded hfront hback hnumeral hfits =>
      rw [trim_padded hfront hback (not_isSpace_of_numeral hnumeral)]
      exact ⟨hnumeral, hfits⟩

/-- All parts are read, or none. -/
theorem mapM_eq_some_iff {α β : Type} {f : α → Option β} {as : List α} {bs : List β} :
    as.mapM f = some bs ↔ List.Forall₂ (fun a b => f a = some b) as bs := by
  induction as generalizing bs with
  | nil => cases bs <;> simp
  | cons a as ih =>
    cases bs with
    | nil => simp [List.mapM_cons, Option.bind_eq_some_iff]
    | cons b bs =>
      simp only [List.mapM_cons, Option.bind_eq_bind, Option.bind_eq_some_iff, List.forall₂_cons, ← ih]
      constructor
      · rintro ⟨b', hb', bs', hbs', heq⟩
        cases heq
        exact ⟨hb', hbs'⟩
      · rintro ⟨hb, hbs⟩
        exact ⟨b, hb, bs, hbs, rfl⟩

theorem parseParts_eq_some_iff {parts : List (List Char)} :
    (parts.mapM fun part => parseInt 64 (trimSpace (String.ofList part)).toList) = some ids ↔
      List.Forall₂ Entry parts ids := by
  rw [mapM_eq_some_iff]
  simp only [parseInt_trimSpace_iff]

theorem trimSpace_eq_empty_iff : trimSpace value = "" ↔ ∀ c ∈ value.toList, isSpace c = true := by
  rw [← trim_eq_nil_iff, ← toList_trimSpace, String.toList_eq_nil_iff]

/-- A list of entries is not blank. -/
theorem not_blank_of_entries {parts : List (List Char)} (hne : parts ≠ [])
    (hentries : List.Forall₂ Entry parts ids) : ¬ ∀ c ∈ join ',' parts, isSpace c = true := by
  intro hblank
  cases hentries with
  | nil => exact hne rfl
  | @cons part _ parts _ hentry =>
    obtain ⟨c, hc, hnot⟩ := hentry.not_blank
    have hmem : c ∈ join ',' (part :: parts) := by
      cases parts <;> simp [join, List.intercalate_cons_cons, hc]
    rw [hblank c hmem] at hnot
    cases hnot

/-- **What is read** are the texts that stand for ids, and all others are refused. -/
theorem parseTaskIDs_eq_some_iff : parseTaskIDs value = some ids ↔ IdList value.toList ids := by
  unfold parseTaskIDs
  split
  · rename_i hblank
    rw [trimSpace_eq_empty_iff] at hblank
    constructor
    · intro h
      cases h
      exact .blank hblank
    · intro h
      generalize value.toList = text at h hblank
      cases h with
      | blank => rfl
      | entries hne hentries => exact absurd hblank (not_blank_of_entries hne hentries)
  · rename_i hnot
    rw [trimSpace_eq_empty_iff] at hnot
    rw [parseParts_eq_some_iff]
    constructor
    · intro h
      have hlist := IdList.entries (List.splitOn_ne_nil ',' value.toList) h
      rwa [join, List.intercalate_splitOn] at hlist
    · intro h
      generalize value.toList = text at h hnot
      cases h with
      | blank hblank => exact absurd hblank hnot
      | entries hne hentries =>
        have hcommas := ((List.forall₂_and_left _ _).mp
          (hentries.imp fun _ _ hentry => ⟨hentry.comma_notMem, hentry⟩)).1
        rw [join, List.splitOn_intercalate ',' hcommas hne]
        exact hentries

/-- Ids that are written without blanks are read. -/
theorem idList_formatInt (hfits : ∀ id ∈ ids, Fits 64 id) : IdList (join ',' (ids.map formatInt)) ids := by
  cases ids with
  | nil => exact .blank (by simp [join])
  | cons id ids =>
    refine .entries (by simp) ?_
    rw [List.forall₂_map_left_iff, List.forall₂_same]
    intro id' hid'
    have hentry : Entry ([] ++ (formatInt id' ++ [])) id' :=
      .padded (by simp) (by simp) (numeral_formatInt id') (hfits id' hid')
    simpa using hentry

end Ids

/-! ## The export -/

/-- What `ExportTasks` answers. -/
structure TaskExport where
  exportedAt : String
  count : Nat
  tasks : List TaskTransferItem

/-- The query of `ExportTasks`, in order of the ids. -/
def exportQuery (db : Database) (c : Choice) (taskIDs : List Int) : Except DbError (List Task) :=
  query c (some (db.task.find fun t => taskIDs.isEmpty || taskIDs.contains t.id))

/-- `ExportTasks`, in the zone with the given offset. -/
def exportTasks (offset : Int) (now : Time) (db : Database) (c : Choice) (ids : String) :
    Except Response TaskExport :=
  match parseTaskIDs ids with
  | none => .error (error ErrorCode.PARSE_PARAMS_ERROR "invalid ids")
  | some taskIDs =>
    match exportQuery db c taskIDs with
    | .error _ => .error (error ErrorCode.DB_ERROR "query task fail")
    | .ok taskModels =>
      .ok { exportedAt := String.ofList (DateTimeText.format offset now)
            count := taskModels.length
            tasks := taskModels.map exportTaskItem }

/-- The tasks asked for, each once, by rising id, and their number. -/
structure Exports (db : Database) (taskIDs : List Int) (answer : TaskExport) : Prop where
  count : answer.count = answer.tasks.length
  ordered : answer.tasks.Pairwise fun item item' => item.id < item'.id
  exact : ∀ item, item ∈ answer.tasks ↔
    ∃ t, db.task.byId t.id = some t ∧ (taskIDs = [] ∨ t.id ∈ taskIDs) ∧ exportTaskItem t = item

section Export

variable {offset : Int} {now : Time} {db : Database} {c : Choice} {ids : String} {taskIDs : List Int}

theorem exportTasks_refused (hnone : ¬ ∃ taskIDs, IdList ids.toList taskIDs) :
    exportTasks offset now db c ids = .error (error ErrorCode.PARSE_PARAMS_ERROR "invalid ids") := by
  cases hparse : parseTaskIDs ids with
  | none => rw [exportTasks, hparse]
  | some taskIDs => exact absurd ⟨taskIDs, parseTaskIDs_eq_some_iff.mp hparse⟩ hnone

theorem exportTasks_failed (hlist : IdList ids.toList taskIDs) (hfail : c.fail = true) :
    exportTasks offset now db c ids = .error (error ErrorCode.DB_ERROR "query task fail") := by
  rw [exportTasks, parseTaskIDs_eq_some_iff.mpr hlist]
  simp [exportQuery, query, hfail]

theorem exportTasks_answered (hlist : IdList ids.toList taskIDs) (hfail : c.fail = false) :
    ∃ answer, exportTasks offset now db c ids = .ok answer ∧ Exports db taskIDs answer := by
  rw [exportTasks, parseTaskIDs_eq_some_iff.mpr hlist]
  simp only [exportQuery, query, hfail, Bool.false_eq_true, if_false]
  refine ⟨_, rfl, by simp, ?_, fun item => ?_⟩
  · exact List.Pairwise.map _ (fun _ _ hlt => hlt) (Table.pairwise_find _ _)
  · simp only [List.mem_map, Table.mem_find, Bool.or_eq_true, List.isEmpty_iff, List.contains_iff_mem,
      and_assoc]
    rfl

/-- **What `ExportTasks` answers**: a text that does not stand for ids is refused; for any other it says
    that the query has failed, if it has, or answers the live tasks with these ids, or all live tasks
    where there are none; and the ids that are written with commas between them are read. -/
theorem exportTasks_answers (offset : Int) (now : Time) (db : Database) (c : Choice) (ids : String) :
    (exportTasks offset now db c ids = .error (error ErrorCode.PARSE_PARAMS_ERROR "invalid ids") ↔
      ¬ ∃ taskIDs, IdList ids.toList taskIDs) ∧
    (∀ taskIDs, IdList ids.toList taskIDs →
      if c.fail then
        exportTasks offset now db c ids = .error (error ErrorCode.DB_ERROR "query task fail")
      else ∃ answer, exportTasks offset now db c ids = .ok answer ∧ Exports db taskIDs answer) ∧
    (∀ taskIDs : List Int, (∀ id ∈ taskIDs, Fits 64 id) →
      IdList (join ',' (taskIDs.map formatInt)) taskIDs) := by
  refine ⟨⟨?_, exportTasks_refused⟩, fun taskIDs hlist => ?_, fun taskIDs hfits => idList_formatInt hfits⟩
  · rintro h ⟨taskIDs, hlist⟩
    cases hfail : c.fail with
    | true =>
      rw [exportTasks_failed hlist hfail] at h
      exact absurd (Except.error.inj h) (by decide)
    | false =>
      obtain ⟨answer, hanswer, -⟩ : ∃ answer, exportTasks offset now db c ids = .ok answer ∧
          Exports db taskIDs answer := exportTasks_answered hlist hfail
      rw [hanswer] at h
      cases h
  · split
    · rename_i hfail
      exact exportTasks_failed hlist hfail
    · rename_i hfail
      exact exportTasks_answered hlist (by simpa using hfail)

end Export

end Gonitor.Controller
