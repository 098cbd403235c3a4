import Gonitor.Integrity.Changes

/-!
# What an Import Does

`importTaskItems` inserts one task for each item and links the new tasks in a second pass, all
inside one transaction.  The two loops are specified separately, each by an induction on its
list; the specifications say what the table holds afterwards, which changes led there, and,
where the database does not fail, why an import was refused.

## Main Results

- `importTaskItems_spec`: the outcome of an import, as far as the task table goes.
- `importTaskItems_all_or_nothing`: an import adds one task per item or changes nothing.
-/

namespace Gonitor.Integrity

open Gonitor.Model Gonitor.Server Gonitor.Controller Gonitor.Requests AtomicProgram SoftDelete

/-! ## Items and rows -/

/-- The validation accepts the item, its dependency apart. -/
def Importable (ext : Externals) (item : TaskTransferItem) : Prop :=
  payloadFieldError item.payload = none ∧ payloadScriptError ext item.payload = none

/-- The task that `Create` stores for an item, without its key and its stamps. -/
def TaskTransferItem.row (item : TaskTransferItem) : Task :=
  (item.payload.apply { toStamps := Base.zero }).withDefaults

/-- The row that the first loop inserts for an item. -/
structure InsertedAs (ext : Externals) (item : TaskTransferItem) (row : Task) : Prop where
  importable : Importable ext item
  live : live row = true
  configuration : row.configuration = TaskTransferItem.row item

/-- What the first loop keeps in `oldToNewID`: a later item of the same id replaces an earlier
    one. -/
def recordIds : OldToNew → List (TaskTransferItem × Task) → OldToNew
  | oldToNew, [] => oldToNew
  | oldToNew, (item, row) :: rest =>
    recordIds (if item.id > 0 then oldToNew.insert item.id row.id else oldToNew) rest

/-- The dependency that the second loop finds for an item. -/
def resolved (oldToNew : OldToNew) (tasks : Table Task) (dependsOnTaskID : Int) : Option Int :=
  match oldToNew.lookup dependsOnTaskID with
  | some mappedID => some mappedID
  | none => if (tasks.byId dependsOnTaskID).isSome then some dependsOnTaskID else none

/-- The second loop has no objection to the dependency of the item. -/
def Linkable (oldToNew : OldToNew) (tasks : Table Task) (p : TaskTransferItem × Task) : Prop :=
  p.1.dependsOnTaskID ≠ 0 →
    ∃ d, resolved oldToNew tasks p.1.dependsOnTaskID = some d ∧ d ≠ p.2.id

/-- The row that the second loop leaves for an item whose task was inserted as `p.2`. -/
structure LinkedAs (oldToNew : OldToNew) (tasks : Table Task) (p : TaskTransferItem × Task)
    (row : Task) : Prop where
  live : live row = true
  id_eq : row.id = p.2.id
  configuration : row.configuration =
    { p.2.configuration with dependsOnTaskID := row.dependsOnTaskID }
  unlinked : p.1.dependsOnTaskID = 0 → row.dependsOnTaskID = p.2.dependsOnTaskID
  dependency : p.1.dependsOnTaskID ≠ 0 →
    resolved oldToNew tasks p.1.dependsOnTaskID = some row.dependsOnTaskID ∧
      row.dependsOnTaskID ≠ row.id

theorem accepted_of_importable {ext : Externals} {tasks : Table Task} {item : TaskTransferItem}
    (h : Importable ext item) : Accepted ext tasks 0 item.payload where
  fields := h.1
  scripts := h.2
  dependency hdep := absurd hdep (Int.lt_irrefl 0)

/-! ## The first loop -/

section Loops

variable {ext : Externals} {K : State → Op → Choice → Prop} {before : Table Task}

/-- A rollback puts back the table of the beginning. -/
theorem rollbackWith_spec {α : Type} (err : String) (s : State)
    (h : s.view.savepoint = some before) :
    Ensures ext K (rollbackWith err : Program (Except String α)) (fun r s' =>
      r = .error err ∧ s'.view = { s.view with tasks := before, savepoint := none }) s := by
  refine (rollbackTx_spec s).bind fun _ s' hview => Ensures.pure ⟨rfl, ?_⟩
  rw [hview, h]
  rfl

/-- What the first loop has done when it has come through. -/
structure Inserts (ext : Externals) (K : State → Op → Choice → Prop) (nodes : Table Node)
    (items : List TaskTransferItem) (tasks : Table Task) (rows : List Task)
    (tasks' : Table Task) : Prop where
  rows_eq : tasks'.rows = tasks.rows ++ rows
  each : List.Forall₂ (InsertedAs ext) items rows
  changes : TaskChanges ext K nodes tasks tasks'

theorem insertItems_spec (items : List TaskTransferItem) (oldToNew : OldToNew)
    (createdTasks : List Task) (s : State) (h : s.view.savepoint = some before) :
    Ensures ext K (insertItems ext items oldToNew createdTasks) (fun r s' =>
      (∃ err, r = .error err ∧ s'.view = { s.view with tasks := before, savepoint := none } ∧
        (NoDbFailure K → ∃ item ∈ items, ¬ Importable ext item)) ∨
      ∃ rows tasks, r = .ok (recordIds oldToNew (items.zip rows), createdTasks ++ rows) ∧
        s'.view = { s.view with tasks := tasks } ∧
        Inserts ext K s.view.nodes items s.view.tasks rows tasks) s := by
  induction items generalizing oldToNew createdTasks s with
  | nil =>
    refine Ensures.pure (.inr ⟨[], s.view.tasks, ?_, rfl, ⟨?_, .nil, .refl⟩⟩)
    · simp [recordIds]
    · simp
  | cons item items ih =>
    refine (validateTaskMutationPayload_spec 0 item.payload s).bind ?_
    rintro r s₁ ⟨h₁, haccepted, hrefused⟩
    rw [← h₁] at h haccepted hrefused ⊢
    cases r with
    | some err =>
      -- the item is refused: where the database has not failed, it is not importable
      refine (rollbackWith_spec err s₁ h).mono ?_
      rintro _ s₂ ⟨rfl, h₂⟩
      refine .inl ⟨err, rfl, h₂, fun hsure => ⟨item, List.mem_cons_self, fun himp => ?_⟩⟩
      exact hrefused (by simp) hsure (accepted_of_importable himp)
    | none =>
      have hitem : Accepted ext s₁.view.tasks 0 item.payload := haccepted rfl
      refine (createTask_spec _ s₁).bind ?_
      rintro _ s₂ (⟨err, rfl, h₂, hfailed⟩ | ⟨now, rfl, h₂, hperf⟩)
      · refine (rollbackWith_spec err.text s₂ (h₂ ▸ h)).mono ?_
        rintro _ s₃ ⟨rfl, h₃⟩
        exact .inl ⟨err.text, rfl, by rw [h₃, h₂], fun hsure => absurd hsure hfailed⟩
      · -- the row of this item comes before those of the rest
        have hrow : InsertedAs ext item
            (s₁.view.tasks.inserted (TaskTransferItem.row item) now) :=
          ⟨⟨hitem.fields, hitem.scripts⟩, rfl, rfl⟩
        have hchange : TaskChange ext K s₁.view.nodes s₁.view.tasks
            (s₁.view.tasks.create (TaskTransferItem.row item) now) :=
          .created hitem ⟨s₁, rfl, rfl, hperf⟩
        refine (ih _ _ s₂ (by rw [h₂]; exact h)).mono ?_
        rintro r s₃ (⟨err, rfl, h₃, hwhy⟩ | ⟨rows, tasks, rfl, h₃, hins⟩)
        · refine .inl ⟨err, rfl, by rw [h₃, h₂], fun hsure => ?_⟩
          obtain ⟨item', hmem, hbad⟩ := hwhy hsure
          exact ⟨item', List.mem_cons_of_mem _ hmem, hbad⟩
        · rw [h₂] at h₃ hins
          refine .inr ⟨_ :: rows, tasks, ?_, h₃, ?_, .cons hrow hins.each, ?_⟩
          · simp only [List.zip_cons_cons, recordIds, List.append_assoc, List.singleton_append]
            rfl
          · rw [hins.rows_eq]
            simp [Table.create, TaskTransferItem.row]
          · exact .head hchange hins.changes

/-! ## The second loop -/

theorem resolveDependency_spec (oldToNew : OldToNew) (dependsOnTaskID : Int) (s : State) :
    Ensures ext K (resolveDependency oldToNew dependsOnTaskID) (fun r s' =>
      s'.view = s.view ∧
      (∀ d, r = some d → resolved oldToNew s.view.tasks dependsOnTaskID = some d) ∧
      (r = none → NoDbFailure K → resolved oldToNew s.view.tasks dependsOnTaskID = none)) s := by
  unfold resolveDependency resolved
  cases oldToNew.lookup dependsOnTaskID with
  | some mappedID => exact Ensures.pure ⟨rfl, fun d hd => hd, nofun⟩
  | none =>
    refine (findTask_spec dependsOnTaskID s).bind ?_
    rintro r s' ⟨hview, hrow, hnone⟩
    cases r with
    | error err =>
      refine Ensures.pure ⟨hview, nofun, fun _ hsure => ?_⟩
      simp [hnone err rfl hsure]
    | ok row =>
      refine Ensures.pure ⟨hview, fun d hd => ?_, nofun⟩
      simpa [hrow row rfl] using hd

/-- The ids in the map belong to live tasks. -/
def MapsToLive (oldToNew : OldToNew) (tasks : Table Task) : Prop :=
  ∀ old new, oldToNew.lookup old = some new → (tasks.byId new).isSome = true

/-- What a dependency resolves to is a live task. -/
theorem isSome_of_resolved {oldToNew : OldToNew} {tasks : Table Task} {dep d : Int}
    (hmap : MapsToLive oldToNew tasks) (h : resolved oldToNew tasks dep = some d) :
    (tasks.byId d).isSome = true := by
  unfold resolved at h
  cases hlookup : oldToNew.lookup dep with
  | some mappedID =>
    rw [hlookup] at h
    cases h
    exact hmap dep d hlookup
  | none =>
    rw [hlookup] at h
    dsimp only at h
    split at h
    · rename_i hsome
      cases h
      exact hsome
    · cases h

/-- Resolving only looks at which tasks are live. -/
theorem resolved_congr {tasks tasks' : Table Task}
    (h : ∀ i, (tasks'.byId i).isSome = (tasks.byId i).isSome) (oldToNew : OldToNew) (dep : Int) :
    resolved oldToNew tasks' dep = resolved oldToNew tasks dep := by
  simp only [resolved, h]

/-- What the second loop has done when it has come through. -/
structure Links (ext : Externals) (K : State → Op → Choice → Prop) (nodes : Table Node)
    (oldToNew : OldToNew) (pairs : List (TaskTransferItem × Task)) (front : List Task)
    (tasks : Table Task) (rows : List Task) (tasks' : Table Task) : Prop where
  rows_eq : tasks'.rows = front ++ rows
  each : List.Forall₂ (LinkedAs oldToNew tasks) pairs rows
  sameLive : ∀ i, (tasks'.byId i).isSome = (tasks.byId i).isSome
  changes : TaskChanges ext K nodes tasks tasks'

section Links

variable {nodes : Table Node} {oldToNew : OldToNew} {pairs : List (TaskTransferItem × Task)}
  {front rows : List Task} {tasks tasks' : Table Task} {item : TaskTransferItem} {created : Task}

/-- An item without a dependency keeps the row it has. -/
theorem Links.unlinked (hcreated : live created = true) (hzero : item.dependsOnTaskID = 0)
    (h : Links ext K nodes oldToNew pairs (front ++ [created]) tasks rows tasks') :
    Links ext K nodes oldToNew ((item, created) :: pairs) front tasks (created :: rows)
      tasks' where
  rows_eq := by simpa using h.rows_eq
  each := .cons ⟨hcreated, rfl, rfl, fun _ => rfl, fun hdep => absurd hzero hdep⟩ h.each
  sameLive := h.sameLive
  changes := h.changes

/-- The row of the item is saved with the dependency, and the loop goes on from there. -/
theorem Links.linked {tasks₁ : Table Task} {d : Int} {now : Time} (hcreated : live created = true)
    (hdep : item.dependsOnTaskID ≠ 0) (hd : resolved oldToNew tasks item.dependsOnTaskID = some d)
    (hne : d ≠ created.id)
    (hsave : tasks.save { created with dependsOnTaskID := d } now = some tasks₁)
    (hchange : TaskChange ext K nodes tasks tasks₁)
    (h : Links ext K nodes oldToNew pairs
      (front ++ [Table.saved { created with dependsOnTaskID := d } now]) tasks₁ rows tasks') :
    Links ext K nodes oldToNew ((item, created) :: pairs) front tasks
      (Table.saved { created with dependsOnTaskID := d } now :: rows) tasks' := by
  have hsame := Table.isSome_byId_save hsave hcreated
  have hlinked : LinkedAs oldToNew tasks (item, created)
      (Table.saved { created with dependsOnTaskID := d } now) :=
    ⟨hcreated, rfl, rfl, fun hzero => absurd hzero hdep, fun _ => ⟨hd, hne⟩⟩
  refine ⟨?_, .cons hlinked ?_, ?_, .head hchange h.changes⟩
  · simpa using h.rows_eq
  · -- the save has not changed which tasks are live
    refine h.each.imp fun p row hp => ?_
    refine ⟨hp.live, hp.id_eq, hp.configuration, hp.unlinked, fun hdep' => ?_⟩
    rw [← resolved_congr hsame]
    exact hp.dependency hdep'
  · intro i
    rw [h.sameLive i]
    exact hsame i

end Links

/-- How the second loop ends: it gives up and the transaction is undone, or it comes through. -/
def LinkOutcome (ext : Externals) (K : State → Op → Choice → Prop) (before : Table Task)
    (oldToNew : OldToNew) (pairs : List (TaskTransferItem × Task)) (front : List Task)
    (view : View) (r : Except String (List Task)) (s' : State) : Prop :=
  (∃ err, r = .error err ∧ s'.view = { view with tasks := before, savepoint := none } ∧
    (NoDbFailure K → ∃ p ∈ pairs, ¬ Linkable oldToNew view.tasks p)) ∨
  ∃ out rows tasks, r = .ok out ∧ s'.view = { view with tasks := tasks } ∧
    Links ext K view.nodes oldToNew pairs front view.tasks rows tasks

section Outcome

variable {oldToNew : OldToNew} {pairs : List (TaskTransferItem × Task)} {front : List Task}
  {p : TaskTransferItem × Task} {view : View} {s' : State}

/-- The loop gives up at its first item. -/
theorem LinkOutcome.rolledBack (err : String)
    (h : s'.view = view) (hpoint : view.savepoint = some before)
    (hbad : NoDbFailure K → ¬ Linkable oldToNew view.tasks p) :
    Ensures ext K (rollbackWith err) (LinkOutcome ext K before oldToNew (p :: pairs) front view)
      s' := by
  refine (rollbackWith_spec err s' (h ▸ hpoint)).mono ?_
  rintro _ s₁ ⟨rfl, h₁⟩
  exact .inl ⟨_, rfl, by rw [h₁, h], fun hsure => ⟨p, List.mem_cons_self, hbad hsure⟩⟩

/-- The loop goes on after its first item: it answers `t` for it and has stored `row`. -/
theorem LinkOutcome.next {r : Except String (List Task)} {tasks₁ : Table Task} {row : Task}
    (t : Task) (hsame : ∀ i, (tasks₁.byId i).isSome = (view.tasks.byId i).isSome)
    (hlinked : ∀ rows tasks,
      Links ext K view.nodes oldToNew pairs (front ++ [row]) tasks₁ rows tasks →
      Links ext K view.nodes oldToNew (p :: pairs) front view.tasks (row :: rows) tasks)
    (h : LinkOutcome ext K before oldToNew pairs (front ++ [row]) { view with tasks := tasks₁ }
      r s') :
    LinkOutcome ext K before oldToNew (p :: pairs) front view (r.map (t :: ·)) s' := by
  obtain ⟨err, rfl, h₁, hwhy⟩ | ⟨out, rows, tasks, rfl, h₁, hlinks⟩ := h
  · refine .inl ⟨err, rfl, h₁, fun hsure => ?_⟩
    obtain ⟨p, hp, hbad⟩ := hwhy hsure
    refine ⟨p, List.mem_cons_of_mem _ hp, ?_⟩
    simpa only [Linkable, resolved_congr hsame] using hbad
  · exact .inr ⟨_, _, tasks, rfl, h₁, hlinked rows tasks hlinks⟩

end Outcome

theorem linkItems_spec (oldToNew : OldToNew) (pairs : List (TaskTransferItem × Task))
    (front : List Task) (s : State) (h : s.view.savepoint = some before)
    (hrows : s.view.tasks.rows = front ++ pairs.map Prod.snd)
    (hlive : ∀ p ∈ pairs, live p.2 = true) (hmap : MapsToLive oldToNew s.view.tasks) :
    Ensures ext K (linkItems oldToNew pairs)
      (LinkOutcome ext K before oldToNew pairs front s.view) s := by
  induction pairs generalizing front s with
  | nil =>
    refine Ensures.pure (.inr ⟨[], [], s.view.tasks, rfl, rfl, ?_, .nil, fun _ => rfl, .refl⟩)
    simpa using hrows
  | cons p pairs ih =>
    obtain ⟨item, created⟩ := p
    have hcreated : live created = true := hlive (item, created) List.mem_cons_self
    have hrest : ∀ p ∈ pairs, live p.2 = true := fun p hp => hlive p (List.mem_cons_of_mem _ hp)
    simp only [List.map_cons] at hrows
    -- what the loop does with the items after this one
    have hnext : ∀ (s' : State) (t row : Task) (tasks₁ : Table Task),
        s'.view = { s.view with tasks := tasks₁ } →
        tasks₁.rows = (front ++ [row]) ++ pairs.map Prod.snd →
        (∀ i, (tasks₁.byId i).isSome = (s.view.tasks.byId i).isSome) →
        (∀ rows tasks, Links ext K s.view.nodes oldToNew pairs (front ++ [row]) tasks₁ rows tasks →
          Links ext K s.view.nodes oldToNew ((item, created) :: pairs) front s.view.tasks
            (row :: rows) tasks) →
        Ensures ext K (linkItems oldToNew pairs >>= fun out => pure (out.map (t :: ·)))
          (LinkOutcome ext K before oldToNew ((item, created) :: pairs) front s.view) s' := by
      intro s' t row tasks₁ hview hrows₁ hsame hlinked
      have hmap₁ : MapsToLive oldToNew s'.view.tasks := fun old new hnew => by
        rw [hview]
        exact (hsame new).trans (hmap old new hnew)
      refine (ih _ s' (by rw [hview]; exact h) (by rw [hview]; exact hrows₁) hrest hmap₁).bind ?_
      intro r s₁ houtcome
      rw [hview] at houtcome
      exact Ensures.pure (houtcome.next t hsame hlinked)
    rw [linkItems]
    split
    · -- an item without a dependency keeps the row it has
      rename_i hzero
      exact hnext s created created s.view.tasks rfl (by simpa using hrows) (fun _ => rfl)
        fun rows tasks hlinks => hlinks.unlinked hcreated hzero
    · rename_i hdep
      refine (resolveDependency_spec oldToNew item.dependsOnTaskID s).bind ?_
      rintro r s₁ ⟨h₁, hresolved, hunresolved⟩
      cases r with
      | none =>
        -- "depends_on_task_id is invalid"
        refine LinkOutcome.rolledBack _ h₁ h fun hsure hlinkable => ?_
        obtain ⟨d, hd, -⟩ := hlinkable hdep
        rw [hunresolved rfl hsure] at hd
        cases hd
      | some dependencyID =>
        have hdependency := hresolved dependencyID rfl
        dsimp only
        split
        · -- "task dependency cannot reference itself"
          rename_i hself
          refine LinkOutcome.rolledBack _ h₁ h fun _ hlinkable => ?_
          obtain ⟨d, hd, hne⟩ := hlinkable hdep
          rw [hdependency, Option.some.injEq] at hd
          exact hne (hd ▸ hself)
        · rename_i hne
          have hmem : created ∈ s.view.tasks.rows := by rw [hrows]; simp
          have hbyId : s.view.tasks.byId created.id = some created :=
            Table.byId_of_mem hmem hcreated
          refine (saveTask_spec { created with dependsOnTaskID := dependencyID } s₁).bind ?_
          rintro _ s₂ (⟨err, rfl, h₂, hwhy⟩ | ⟨now, tasks, rfl, hsave, h₂, hperf⟩)
          · refine LinkOutcome.rolledBack err.text (h₂.trans h₁) h fun hsure => ?_
            -- the row is live, so only the database could have kept it from being saved
            rw [show ({ created with dependsOnTaskID := dependencyID } : Task).id = created.id
              from rfl, h₁, hbyId] at hwhy
            exact absurd (hwhy hsure) (by simp)
          · rw [h₁] at hsave h₂
            obtain ⟨dependency, hfound⟩ :=
              Option.isSome_iff_exists.mp (isSome_of_resolved hmap hdependency)
            have hchange : TaskChange ext K s.view.nodes s.view.tasks tasks :=
              .saved hbyId (.linked hfound hne) ⟨s₁, by rw [h₁], by rw [h₁], hperf⟩ hsave
            have hrows₁ : tasks.rows =
                (front ++ [Table.saved { created with dependsOnTaskID := dependencyID } now]) ++
                  pairs.map Prod.snd := by
              have := Table.rows_save hsave hrows rfl
              simpa using this
            exact hnext s₂ _ _ tasks h₂ hrows₁ (Table.isSome_byId_save hsave hcreated)
              fun rows tasks' hlinks =>
                hlinks.linked hcreated hdep hdependency hne hsave hchange

end Loops

/-! ## The whole import -/

/-- The configuration that an import stores for an item, with the dependency it has found. -/
def importedConfiguration (item : TaskTransferItem) (dependsOnTaskID : Int) : Task where
  toStamps := Base.zero
  name := item.name
  description := item.description
  command := item.command
  schedule := item.schedule
  execType := item.execType
  isDisable := true
  priority := if item.priority = 0 then 1 else item.priority
  tags := item.tags
  execStrategy := item.execStrategy
  retryTimes := item.retryTimes
  retryInterval := item.retryInterval
  timeout := item.timeout
  dependsOnTaskID := dependsOnTaskID
  assert := item.assert
  resultHandler := item.resultHandler
  nodeID := item.nodeID

/-- The row that an import leaves for an item, where the new ids are `oldToNew` and the live tasks
    those of `tasks`. -/
structure ImportedAs (ext : Externals) (oldToNew : OldToNew) (tasks : Table Task)
    (item : TaskTransferItem) (row : Task) : Prop where
  importable : Importable ext item
  live : live row = true
  configuration : row.configuration = importedConfiguration item row.dependsOnTaskID
  unlinked : item.dependsOnTaskID = 0 → row.dependsOnTaskID = 0
  dependency : item.dependsOnTaskID ≠ 0 →
    resolved oldToNew tasks item.dependsOnTaskID = some row.dependsOnTaskID ∧
      row.dependsOnTaskID ≠ row.id

/-- What both loops leave of an item. -/
theorem importedAs {ext : Externals} {oldToNew : OldToNew} {tasks : Table Task}
    {item : TaskTransferItem} {row₁ row : Task} (h₁ : InsertedAs ext item row₁)
    (h : LinkedAs oldToNew tasks (item, row₁) row) : ImportedAs ext oldToNew tasks item row where
  importable := h₁.importable
  live := h.live
  configuration := by
    rw [h.configuration, h₁.configuration]
    rfl
  unlinked hzero := by
    have hrow₁ : row₁.dependsOnTaskID = 0 :=
      congrArg Task.dependsOnTaskID h₁.configuration
    exact (h.unlinked hzero).trans hrow₁
  dependency := h.dependency

/-- A list related to another, and their pairs related to a third. -/
theorem forall₂_of_zip {α β γ : Type} {R : α → β → Prop} {S : α × β → γ → Prop} {as : List α}
    {bs : List β} {cs : List γ} (hR : List.Forall₂ R as bs) (hS : List.Forall₂ S (as.zip bs) cs) :
    List.Forall₂ (fun a c => ∃ b, R a b ∧ S (a, b) c) as cs := by
  induction hR generalizing cs with
  | nil =>
    cases hS
    exact .nil
  | cons hab _ ih =>
    cases hS with
    | cons hc hrest => exact .cons ⟨_, hab, hc⟩ (ih hrest)

/-- The map of ids is the same before and after the second loop. -/
theorem recordIds_linked {m oldToNew : OldToNew} {tasks : Table Task}
    {items : List TaskTransferItem} {rows₁ rows : List Task}
    (hlen : List.Forall₂ (fun (_ : TaskTransferItem) (_ : Task) => True) items rows₁)
    (h : List.Forall₂ (LinkedAs oldToNew tasks) (items.zip rows₁) rows) :
    recordIds m (items.zip rows) = recordIds m (items.zip rows₁) := by
  induction hlen generalizing m rows with
  | nil => rfl
  | cons _ _ ih =>
    cases h with
    | cons hrow hrest =>
      simp only [List.zip_cons_cons, recordIds, hrow.id_eq]
      exact ih hrest

/-- An id in the map is that of the task created for an item of the batch. -/
theorem lookup_recordIds {m : OldToNew} {pairs : List (TaskTransferItem × Task)} {old new : Int}
    (h : (recordIds m pairs).lookup old = some new) :
    m.lookup old = some new ∨ ∃ p ∈ pairs, p.1.id = old ∧ 0 < p.1.id ∧ p.2.id = new := by
  induction pairs generalizing m with
  | nil => exact .inl h
  | cons p pairs ih =>
    obtain ⟨item, row⟩ := p
    rcases ih h with hm | ⟨p, hp, hrest⟩
    · split at hm
      · rename_i hpos
        rcases eq_or_ne old item.id with rfl | hne
        · rw [AList.lookup_insert, Option.some.injEq] at hm
          exact .inr ⟨(item, row), List.mem_cons_self, rfl, hpos, hm⟩
        · rw [AList.lookup_insert_ne hne] at hm
          exact .inl hm
      · exact .inl hm
    · exact .inr ⟨p, List.mem_cons_of_mem _ hp, hrest⟩

section Import

variable {ext : Externals} {K : State → Op → Choice → Prop}

/-- Why an import is refused when the database does not fail. -/
def Refused (ext : Externals) (items : List TaskTransferItem) (tasks : Table Task) : Prop :=
  (∃ item ∈ items, ¬ Importable ext item) ∨
    ∃ rows tasks₁, tasks₁.rows = tasks.rows ++ rows ∧
      List.Forall₂ (InsertedAs ext) items rows ∧
      ∃ p ∈ items.zip rows, ¬ Linkable (recordIds ∅ (items.zip rows)) tasks₁ p

/-- What an import has done when it has succeeded. -/
structure Imports (ext : Externals) (K : State → Op → Choice → Prop) (nodes : Table Node)
    (items : List TaskTransferItem) (tasks : Table Task) (rows : List Task)
    (tasks' : Table Task) : Prop where
  rows_eq : tasks'.rows = tasks.rows ++ rows
  each : List.Forall₂ (ImportedAs ext (recordIds ∅ (items.zip rows)) tasks') items rows
  changes : TaskChanges ext K nodes tasks tasks'

/-- The ids that the first loop has recorded are those of live tasks. -/
theorem Inserts.mapsToLive {nodes : Table Node} {items : List TaskTransferItem}
    {tasks tasks' : Table Task} {rows : List Task}
    (h : Inserts ext K nodes items tasks rows tasks') :
    MapsToLive (recordIds ∅ (items.zip rows)) tasks' := by
  intro old new hnew
  rcases lookup_recordIds hnew with hempty | ⟨p, hp, -, -, rfl⟩
  · cases hempty
  · have hrow : p.2 ∈ rows := (List.of_mem_zip hp).2
    have hlive : live p.2 = true := ((List.forall₂_iff_zip.mp h.each).2 hp).live
    have hmem : p.2 ∈ tasks'.rows := by
      rw [h.rows_eq]
      exact List.mem_append_right _ hrow
    exact Option.isSome_iff_exists.mpr ⟨p.2, Table.byId_of_mem hmem hlive⟩

/-- The outcome of an import: it has failed and left the schedule as it was, or every item has a
    task of its own. -/
theorem importTaskItems_spec (items : List TaskTransferItem) (s : State) :
    Ensures ext K (importTaskItems ext items) (fun r s' =>
      (∃ err, r = .error err ∧ (s'.view = s.view ∨ s'.view = { s.view with savepoint := none }) ∧
        (NoDbFailure K → Refused ext items s.view.tasks)) ∨
      ∃ created rows tasks, r = .ok created ∧
        s'.view = { s.view with tasks := tasks, savepoint := none } ∧
        Imports ext K s.view.nodes items s.view.tasks rows tasks) s := by
  refine (beginTx_spec s).bind ?_
  rintro _ s₁ (⟨err, rfl, h₁, hfailed⟩ | ⟨rfl, h₁⟩)
  · exact Ensures.pure (.inl ⟨_, rfl, .inl h₁, fun hsure => absurd hsure hfailed⟩)
  · have hbegun : s₁.view.savepoint = some s.view.tasks := by rw [h₁]
    refine (insertItems_spec items ∅ [] s₁ hbegun).bind ?_
    rintro _ s₂ (⟨err, rfl, h₂, hwhy⟩ | ⟨rows₁, tasks₁, rfl, h₂, hins⟩)
    · exact Ensures.pure (.inl ⟨_, rfl, .inr (by rw [h₂, h₁]), fun hsure => .inl (hwhy hsure)⟩)
    · rw [h₁] at hins
      have hview : s₂.view =
          { s.view with tasks := tasks₁, savepoint := some s.view.tasks } := by rw [h₂, h₁]
      have hlen := List.Forall₂.length_eq hins.each
      have hsnd : (items.zip rows₁).map Prod.snd = rows₁ :=
        List.map_snd_zip (Nat.le_of_eq hlen.symm)
      refine (linkItems_spec (recordIds ∅ (items.zip rows₁)) (items.zip ([] ++ rows₁))
        s.view.tasks.rows s₂ (by rw [hview]) ?_ ?_ ?_).bind ?_
      · rw [hview, List.nil_append, hsnd]
        exact hins.rows_eq
      · exact fun p hp => ((List.forall₂_iff_zip.mp hins.each).2 hp).live
      · rw [hview]
        exact hins.mapsToLive
      · rw [List.nil_append, hview]
        rintro _ s₃ (⟨err, rfl, h₃, hwhy⟩ | ⟨created, rows, tasks, rfl, h₃, hlinks⟩)
        · refine Ensures.pure (.inl ⟨_, rfl, .inr (by rw [h₃]), fun hsure => .inr ?_⟩)
          exact ⟨rows₁, tasks₁, hins.rows_eq, hins.each, hwhy hsure⟩
        · refine (commitTx_spec s₃).bind ?_
          rintro _ s₄ (⟨err, rfl, h₄, hfailed⟩ | ⟨rfl, h₄⟩)
          · exact Ensures.pure
              (.inl ⟨_, rfl, .inr (by rw [h₄, h₃]; rfl), fun hsure => absurd hsure hfailed⟩)
          · refine Ensures.pure (.inr ⟨created, rows, tasks, rfl, by rw [h₄, h₃],
              hlinks.rows_eq, ?_, hins.changes.trans hlinks.changes⟩)
            rw [recordIds_linked (hins.each.imp fun _ _ _ => trivial) hlinks.each]
            refine (forall₂_of_zip hins.each hlinks.each).imp fun item row hrow => ?_
            obtain ⟨row₁, hrow₁, hrow⟩ := hrow
            have himported := importedAs hrow₁ hrow
            exact ⟨himported.importable, himported.live, himported.configuration,
              himported.unlinked, fun hd => by
                rw [resolved_congr hlinks.sameLive]
                exact himported.dependency hd⟩

/-- The request adds tasks at the end of the table, and does nothing else to the schedule or the
    nodes. -/
theorem importTasks_appends (body : Except String (List TaskTransferItem)) (s : State) :
    Ensures ext K (Controller.importTasks ext body) (fun _ s' => s'.db.node = s.db.node ∧
      s'.sched.cron = s.sched.cron ∧ ∃ rows, s'.db.task.rows = s.db.task.rows ++ rows) s := by
  have hsame : ∀ s' : State, s'.view = s.view ∨ s'.view = { s.view with savepoint := none } →
      s'.db.node = s.db.node ∧ s'.sched.cron = s.sched.cron ∧
        ∃ rows, s'.db.task.rows = s.db.task.rows ++ rows := by
    intro s' hview
    have hnode : s'.view.nodes = s.view.nodes := by rcases hview with h | h <;> rw [h]
    have hcron : s'.view.cron = s.view.cron := by rcases hview with h | h <;> rw [h]
    have htask : s'.view.tasks = s.view.tasks := by rcases hview with h | h <;> rw [h]
    exact ⟨hnode, hcron, [], by rw [List.append_nil]; exact congrArg Table.rows htask⟩
  unfold Controller.importTasks
  cases body with
  | error err => exact Ensures.pure (hsame s (.inl rfl))
  | ok items =>
    dsimp only
    split
    · exact Ensures.pure (hsame s (.inl rfl))
    · apply (importTaskItems_spec items s).bind
      rintro _ s' (⟨err, rfl, hview, -⟩ | ⟨created, rows, tasks, rfl, hview, himports⟩)
      · exact Ensures.pure (hsame s' hview)
      · apply Ensures.pure
        refine ⟨congrArg View.nodes hview, congrArg View.cron hview, rows, ?_⟩
        rw [show s'.db.task = tasks from congrArg View.tasks hview]
        exact himports.rows_eq

/-! ## All or nothing -/

/-- **An import is all-or-nothing and adds only**: it ends with an error and the task table is as
    it was, or it succeeds, every earlier row stands unchanged, and after these there is one new
    row for each item, in the order of the items: live, disabled, with the columns of the item as
    `Create` stores them, and with the dependency that the item's dependency resolves to. -/
theorem importTaskItems_all_or_nothing {items : List TaskTransferItem} {s s' : State}
    {r : Except String (List Task)}
    (h : Prog.Runs (execStep ext AnyStep) (importTaskItems ext items) s r s') :
    (∃ err, r = .error err ∧ s'.db.task = s.db.task) ∨
    ∃ created rows, r = .ok created ∧ s'.db.task.rows = s.db.task.rows ++ rows ∧
      List.Forall₂ (fun item row =>
        live row = true ∧
        row.configuration = importedConfiguration item row.dependsOnTaskID ∧
        (item.dependsOnTaskID = 0 → row.dependsOnTaskID = 0) ∧
        (item.dependsOnTaskID ≠ 0 →
          resolved (recordIds ∅ (items.zip rows)) s'.db.task item.dependsOnTaskID =
            some row.dependsOnTaskID)) items rows := by
  rcases h.post (importTaskItems_spec items s) with
    ⟨err, rfl, hview, -⟩ | ⟨created, rows, tasks, rfl, hview, himports⟩
  · have htasks : s'.view.tasks = s.view.tasks := by rcases hview with h | h <;> rw [h]
    exact .inl ⟨err, rfl, htasks⟩
  · have htasks : s'.db.task = tasks := congrArg View.tasks hview
    refine .inr ⟨created, rows, rfl, htasks ▸ himports.rows_eq, himports.each.imp ?_⟩
    intro item row hrow
    exact ⟨hrow.live, hrow.configuration, hrow.unlinked, fun hd =>
      htasks ▸ (hrow.dependency hd).1⟩

end Import

/-- An item that every validation accepts. -/
def someItem : TaskTransferItem :=
  { name := "backup", command := "tar", execType := "cmd", id := 7 }

/-- The first item refers to the last one, and that one back to the second. -/
def chainedItems : List TaskTransferItem :=
  [{ someItem with dependsOnTaskID := 9 }, { someItem with id := 8 },
    { someItem with id := 9, dependsOnTaskID := 8 }]

/-- They are imported into a database with a task. -/
theorem chainedItems_run : ∃ created s', Prog.Runs (execStep plainExternals AnyStep)
      (importTaskItems plainExternals chainedItems) (State.boot oneTaskDatabase 0) (.ok created) s' ∧
    s'.db.task.rows.map (fun t => (t.id, t.dependsOnTaskID)) = [(1, 0), (2, 4), (3, 0), (4, 3)] :=
  -- begin, three inserts, two saves, commit
  ⟨_, _, runs_of_choices (List.replicate 7 {}) (fun _ _ _ _ => trivial) rfl, rfl⟩

/-- The import adds a row for each of them. -/
theorem importTaskItems_all_or_nothing_chained : ∃ s' created rows,
    Prog.Runs (execStep plainExternals AnyStep) (importTaskItems plainExternals chainedItems)
      (State.boot oneTaskDatabase 0) (.ok created) s' ∧
    s'.db.task.rows = oneTaskDatabase.task.rows ++ rows ∧ rows.length = 3 ∧
    s'.db.task.rows.map (fun t => (t.id, t.dependsOnTaskID)) = [(1, 0), (2, 4), (3, 0), (4, 3)] := by
  obtain ⟨created, s', hrun, hlinks⟩ := chainedItems_run
  rcases importTaskItems_all_or_nothing hrun with ⟨err, herr, -⟩ | ⟨_, rows, -, hrows, heach⟩
  · cases herr
  · exact ⟨s', created, rows, hrun, hrows, heach.length_eq.symm, hlinks⟩

end Gonitor.Integrity
