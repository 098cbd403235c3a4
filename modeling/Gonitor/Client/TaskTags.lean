import Gonitor.Framework.SeparatedText
import Gonitor.Mobile.AppController

/-!
# The Tags of a Task

The web client keeps the tags of a task in one text with commas between them, and reads that in two
places, `TaskInfoEditForm` and `TaskInfo`; the mobile client reads it in `TaskSummary.fromJson`.  The
form lets a tag be typed that has a comma; the readers do not trim alike, as the mobile client trims
what it keeps.

## Main Results

- `tags_survive_iff`: when the tags come back after the form has been saved, and when all readers see
  the same tags.
- `tag_with_comma_is_split`: a tag that comes back as two.
-/

namespace Gonitor.Client

open SeparatedText

/-- A text of the client. -/
abbrev Text := List Char

/-- The characters that `trim` of JavaScript removes: white space and line terminators. -/
def isWhiteSpace (c : Char) : Bool :=
  c ∈ ['\t', '\x0b', '\x0c', '\ufeff', ' ', '\u00a0', '\u1680', '\u202f', '\u205f', '\u3000', '\n',
    '\r', '\u2028', '\u2029'] || ('\u2000' ≤ c && c ≤ '\u200a')

/-- `trim() !== ""` -/
def notBlank (text : Text) : Bool := !(trim isWhiteSpace text).isEmpty

/-! ## The form -/

/-- The state of `TaskInfoEditForm` that is about the tags. -/
structure TagForm where
  tags : List Text
  tagInput : Text := []
  deriving DecidableEq

/-- What the user does. -/
inductive TagAction
  | input (text : Text)
  | enter
  | delete (tagToDelete : Text)

namespace TagForm

/-- The tags that the form begins with: the initial value of `tags`. -/
def initialTags (stored : Text) : List Text :=
  if stored.isEmpty then [] else (stored.splitOn ',').filter notBlank

def init (stored : Text) : TagForm where
  tags := initialTags stored

/-- `handleTagInputKeyDown`, for the key Enter. -/
def handleTagInputKeyDown (form : TagForm) : TagForm :=
  let tag := trim isWhiteSpace form.tagInput
  if notBlank form.tagInput then
    { tags := if form.tags.contains tag then form.tags else form.tags ++ [tag]
      tagInput := [] }
  else form

/-- `handleDeleteTag` -/
def handleDeleteTag (form : TagForm) (tagToDelete : Text) : TagForm :=
  { form with tags := form.tags.filter fun tag => tag != tagToDelete }

def act (form : TagForm) : TagAction → TagForm
  | .input text => { form with tagInput := text }
  | .enter => form.handleTagInputKeyDown
  | .delete tagToDelete => form.handleDeleteTag tagToDelete

/-- The form after a sequence of actions. -/
def after (stored : Text) (actions : List TagAction) : TagForm := actions.foldl act (init stored)

/-- The value of `tags` in `getFormValues`. -/
def save (form : TagForm) : Text := join ',' form.tags

end TagForm

/-! ## The other readers -/

/-- `tagList` of `TaskInfo`. -/
def tagList (stored : Text) : List Text :=
  if stored.isEmpty then [] else (stored.splitOn ',').filter notBlank

/-- `tags` of `TaskSummary.fromJson`. -/
def mobileTags (stored : Text) : List Text :=
  ((stored.splitOn ',').map Mobile.trim).filter fun item => !item.isEmpty

/-! ## Blanks -/

theorem isSpace_of_isWhiteSpace {c : Char} (h : isWhiteSpace c = true) : Mobile.isSpace c = true := by
  simp only [isWhiteSpace, Mobile.isSpace, Bool.or_eq_true, decide_eq_true_eq, List.mem_cons,
    List.not_mem_nil, or_false] at h ⊢
  tauto

theorem notBlank_iff {text : Text} : notBlank text = true ↔ trim isWhiteSpace text ≠ [] := by
  simp [notBlank]

theorem notBlank_nil : notBlank [] = false := by decide

theorem mobileTrim_eq (text : Text) : Mobile.trim text = trim Mobile.isSpace text := rfl

/-- A text that is blank for the web client is blank for the mobile client. -/
theorem mobileTrim_eq_nil {text : Text} (h : notBlank text = false) : Mobile.trim text = [] := by
  have hblank : trim isWhiteSpace text = [] := by simpa [notBlank] using h
  rw [mobileTrim_eq, trim_eq_nil_iff]
  intro c hc
  exact isSpace_of_isWhiteSpace (trim_eq_nil_iff.mp hblank c hc)

/-! ## What the form can hold -/

theorem initialTags_eq (stored : Text) :
    TagForm.initialTags stored = (stored.splitOn ',').filter notBlank := by
  cases stored with
  | nil => simp [TagForm.initialTags, notBlank_nil]
  | cons c stored => rfl

/-- An action keeps the tags from being blank. -/
theorem notBlank_of_act {form : TagForm} (h : ∀ tag ∈ form.tags, notBlank tag = true)
    (action : TagAction) : ∀ tag ∈ (form.act action).tags, notBlank tag = true := by
  cases action with
  | input text => exact h
  | delete tagToDelete =>
    intro tag htag
    exact h tag (List.mem_of_mem_filter htag)
  | enter =>
    rw [TagForm.act, TagForm.handleTagInputKeyDown]
    split
    · rename_i hinput
      split
      · exact h
      · intro tag htag
        rcases List.mem_append.mp htag with hold | hnew
        · exact h tag hold
        · rw [List.mem_singleton.mp hnew, notBlank_iff]
          exact trim_trim_ne_nil (notBlank_iff.mp hinput)
    · exact h

/-- **No tag is blank** that the form can hold. -/
theorem notBlank_of_mem_after (stored : Text) (actions : List TagAction) :
    ∀ tag ∈ (TagForm.after stored actions).tags, notBlank tag = true := by
  have hrun (form : TagForm) (h : ∀ tag ∈ form.tags, notBlank tag = true) :
      ∀ tag ∈ (actions.foldl TagForm.act form).tags, notBlank tag = true := by
    induction actions generalizing form with
    | nil => exact h
    | cons action actions ih => exact ih _ (notBlank_of_act h action)
  apply hrun
  intro tag htag
  rw [TagForm.init, initialTags_eq] at htag
  exact List.of_mem_filter htag

/-! ## Saving and reading -/

/-- The tags come back when the form is opened again. -/
def Survive (form : TagForm) : Prop := (TagForm.init form.save).tags = form.tags

instance (form : TagForm) : Decidable (Survive form) := inferInstanceAs (Decidable (_ = _))

/-- An unchanged form stores the tags that the others read, before it is saved and after that. -/
structure ReadersAgree (stored : Text) : Prop where
  tagList : tagList stored = (TagForm.init stored).tags
  mobileTags : mobileTags stored = (TagForm.init stored).tags
  tagListSaved : Client.tagList (TagForm.init stored).save = (TagForm.init stored).tags
  mobileTagsSaved : Client.mobileTags (TagForm.init stored).save = (TagForm.init stored).tags

theorem survive_iff {form : TagForm} (h : ∀ tag ∈ form.tags, notBlank tag = true) :
    Survive form ↔ ∀ tag ∈ form.tags, ',' ∉ tag := by
  rw [Survive, TagForm.init, initialTags_eq]
  exact split_join_iff h notBlank_nil

/-- A form that has not been changed survives. -/
theorem survive_init (stored : Text) : Survive (TagForm.init stored) := by
  apply (survive_iff (notBlank_of_mem_after stored [])).mpr
  intro tag htag
  rw [TagForm.after, List.foldl_nil, TagForm.init, initialTags_eq] at htag
  exact not_mem_of_mem_splitOn (List.mem_of_mem_filter htag)

/-- The mobile client reads the same tags if and only if all are trimmed. -/
theorem mobileTags_eq_iff (stored : Text) :
    mobileTags stored = (TagForm.init stored).tags ↔
      ∀ tag ∈ (TagForm.init stored).tags, Mobile.trim tag = tag := by
  rw [TagForm.init, initialTags_eq, eq_comm]
  exact filter_eq_map_filter_iff notBlank_nil fun _ => mobileTrim_eq_nil

theorem readersAgree_iff (stored : Text) :
    ReadersAgree stored ↔ ∀ tag ∈ (TagForm.init stored).tags, Mobile.trim tag = tag := by
  constructor
  · intro h
    exact (mobileTags_eq_iff stored).mp h.mobileTags
  · intro h
    have hsurvive := survive_init stored
    constructor
    case tagList => rfl
    case mobileTags => exact (mobileTags_eq_iff stored).mpr h
    case tagListSaved => exact hsurvive
    case mobileTagsSaved =>
      rw [(mobileTags_eq_iff _).mpr, hsurvive]
      rwa [hsurvive]

/-- **Tags survive** after any actions if and only if none of them has a comma, and the readers agree
    about those of an unchanged form if and only if none has white space at an end. -/
theorem tags_survive_iff (stored : Text) (actions : List TagAction) :
    (Survive (TagForm.after stored actions) ↔
        ∀ tag ∈ (TagForm.after stored actions).tags, ',' ∉ tag) ∧
      (ReadersAgree stored ↔ ∀ tag ∈ (TagForm.init stored).tags, Mobile.trim tag = tag) :=
  ⟨survive_iff (notBlank_of_mem_after stored actions), readersAgree_iff stored⟩

/-- A tag that has been typed with a comma does not come back. -/
theorem tag_with_comma_is_split :
    ¬ Survive (TagForm.after [] [.input "web, shop".toList, .enter]) := by
  decide

end Gonitor.Client
