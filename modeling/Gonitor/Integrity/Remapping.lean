import Gonitor.Integrity.RoundTrip
import Gonitor.Integrity.AuditTrail

/-!
# The Dependencies of Imported Tasks

An import gives its tasks new ids and moves the dependencies within the batch along.  A dependency
on a task outside the batch stays as it is, if there is such a task.  That test is made in the
second loop, when the tasks of the batch have been inserted: an id that was free before the import
may by then belong to one of them, and the item is linked to a task it does not mean.

## Main Results

- `remapped_iff`: the dependencies are moved faithfully exactly if no item refers, outside the
  batch, to an id that one of the new tasks gets.
- `import_links_stranger`: an item that is linked to a task of the batch it does not refer to.
-/

namespace Gonitor.Integrity

open Gonitor.Model Gonitor.Server Gonitor.Controller Gonitor.Requests AtomicProgram SoftDelete

/-! ## Faithful dependencies -/

/-- The row created for an item has the dependency that the item asks for.  The pairs are the items
    of the batch with the rows created for them, `old` is the table before the import. -/
structure Remapped (old : Table Task) (pairs : List (TaskTransferItem × Task))
    (item : TaskTransferItem) (row : Task) : Prop where
  zero : row.dependsOnTaskID = 0 ↔ item.dependsOnTaskID = 0
  inside : item.dependsOnTaskID ≠ 0 → (∃ p ∈ pairs, p.1.id = item.dependsOnTaskID) →
    ∃ p ∈ pairs, p.1.id = item.dependsOnTaskID ∧ p.2.id = row.dependsOnTaskID
  outside : item.dependsOnTaskID ≠ 0 → (∀ p ∈ pairs, p.1.id ≠ item.dependsOnTaskID) →
    row.dependsOnTaskID = item.dependsOnTaskID ∧ ∃ t, old.byId item.dependsOnTaskID = some t

/-- The new table has one row more for each item, all of them with faithful dependencies. -/
def RemapsAll (items : List TaskTransferItem) (old new : Table Task) : Prop :=
  ∃ rows, new.rows = old.rows ++ rows ∧
    List.Forall₂ (Remapped old (items.zip rows)) items rows

/-- No item refers, outside the batch, to one of the ids that the batch is about to get. -/
def NoCollision (items : List TaskTransferItem) (old : Table Task) : Prop :=
  ∀ item ∈ items, item.dependsOnTaskID ≠ 0 →
    (∀ item' ∈ items, item'.id ≠ item.dependsOnTaskID) →
    item.dependsOnTaskID ∉ old.nextKeys items.length

/-! ## The ids of the batch -/

/-- A positive id that an item carries is in the map. -/
theorem exists_lookup_recordIds {m : OldToNew} {pairs : List (TaskTransferItem × Task)} {i : Int}
    (hpos : 0 < i) (h : (∃ new, m.lookup i = some new) ∨ ∃ p ∈ pairs, p.1.id = i) :
    ∃ new, (recordIds m pairs).lookup i = some new := by
  induction pairs generalizing m with
  | nil => simpa [recordIds] using h
  | cons p pairs ih =>
    obtain ⟨item, row⟩ := p
    simp only [recordIds]
    -- the item at hand records its id, or one recorded before or later is still there
    rcases eq_or_ne i item.id with rfl | hne
    · rw [if_pos hpos]
      exact ih (.inl ⟨row.id, AList.lookup_insert _⟩)
    · apply ih
      rcases h with ⟨new, hnew⟩ | ⟨p, hp, hid⟩
      · left
        split
        · exact ⟨new, by rw [AList.lookup_insert_ne hne, hnew]⟩
        · exact ⟨new, hnew⟩
      · rcases List.mem_cons.mp hp with rfl | hmem
        · exact absurd hid.symm hne
        · exact .inr ⟨p, hmem, hid⟩

/-- Items that carry an id, with and without their partners. -/
theorem carried_iff {items : List TaskTransferItem} {rows : List Task}
    (hlen : items.length = rows.length) (i : Int) :
    (∀ p ∈ items.zip rows, p.1.id ≠ i) ↔ ∀ item ∈ items, item.id ≠ i := by
  constructor
  · intro h item hitem
    obtain ⟨row, hp⟩ := exists_mem_zip hlen hitem
    exact h _ hp
  · intro h p hp
    exact h _ (List.of_mem_zip hp).1

/-! ## What an import links to -/

section Import

variable {ext : Externals} {K : State → Op → Choice → Prop} {nodes : Table Node}
  {items : List TaskTransferItem} {old new : Table Task} {rows : List Task}

/-- A row that is live after the import, but not as one of the batch, was live before. -/
theorem Imports.live_before (h : Imports ext K nodes items old rows new) {i : Int}
    (hnot : i ∉ old.nextKeys items.length) (hnew : (new.byId i).isSome = true) :
    ∃ t, old.byId i = some t := by
  obtain ⟨t, ht⟩ := Option.isSome_iff_exists.mp hnew
  obtain ⟨hmem, rfl, hlive⟩ := Table.mem_of_byId ht
  rw [h.rows_eq, List.mem_append] at hmem
  rcases hmem with hold | hrow
  · exact ⟨t, Table.byId_of_mem hold hlive⟩
  · -- the rows of the batch have the keys that were next
    rw [h.each.length_eq, ← (grown_of_changes h.changes).keys_eq h.rows_eq] at hnot
    exact absurd (List.mem_map_of_mem hrow) hnot

/-- The row of an item whose reference outside the batch, if any, does not hit a row of the
    batch. -/
theorem Imports.remapped (h : Imports ext K nodes items old rows new) {item : TaskTransferItem}
    {row : Task} (hmiss : item.dependsOnTaskID ≠ 0 →
      (∀ p ∈ items.zip rows, p.1.id ≠ item.dependsOnTaskID) →
      item.dependsOnTaskID ∉ old.nextKeys items.length)
    (hrow : ImportedAs ext (recordIds ∅ (items.zip rows)) new item row) :
    Remapped old (items.zip rows) item row := by
  -- a reference is in the map, or it goes to a row that is live by now
  have hcases : item.dependsOnTaskID ≠ 0 →
      (∃ p ∈ items.zip rows, p.1.id = item.dependsOnTaskID ∧ 0 < p.1.id ∧
        p.2.id = row.dependsOnTaskID) ∨
      ((recordIds ∅ (items.zip rows)).lookup item.dependsOnTaskID = none ∧
        row.dependsOnTaskID = item.dependsOnTaskID ∧
        (new.byId item.dependsOnTaskID).isSome = true) := by
    intro hdep
    have hresolved := (hrow.dependency hdep).1
    unfold resolved at hresolved
    cases hlookup : (recordIds ∅ (items.zip rows)).lookup item.dependsOnTaskID with
    | some mappedID =>
      rw [hlookup] at hresolved
      cases hresolved
      rcases lookup_recordIds hlookup with hempty | hcarried
      · cases hempty
      · exact .inl hcarried
    | none =>
      simp only [hlookup] at hresolved
      split at hresolved
      · rename_i hlive
        exact .inr ⟨rfl, (Option.some.inj hresolved).symm, hlive⟩
      · cases hresolved
  have hpos : (new.byId item.dependsOnTaskID).isSome = true → 0 < item.dependsOnTaskID := by
    intro hlive
    obtain ⟨t, ht⟩ := Option.isSome_iff_exists.mp hlive
    obtain ⟨hmem, hid, -⟩ := Table.mem_of_byId ht
    exact hid ▸ new.ids_pos t hmem
  refine ⟨⟨fun hzero => ?_, hrow.unlinked⟩, fun hdep hcarried => ?_, fun hdep hstranger => ?_⟩
  · by_contra hdep
    rcases hcases hdep with ⟨p, hp, -, -, hid⟩ | ⟨-, hsame, -⟩
    · -- an id of the batch is the key of a row
      have hmem : p.2 ∈ new.rows := by
        rw [h.rows_eq]
        exact List.mem_append_right _ (List.of_mem_zip hp).2
      have hkey : 0 < p.2.id := new.ids_pos p.2 hmem
      omega
    · exact hdep (hsame ▸ hzero)
  · rcases hcases hdep with ⟨p, hp, hid, -, hnew⟩ | ⟨hnone, -, hlive⟩
    · exact ⟨p, hp, hid, hnew⟩
    · obtain ⟨mappedID, hlookup⟩ := exists_lookup_recordIds (m := ∅) (hpos hlive) (.inr hcarried)
      rw [hnone] at hlookup
      cases hlookup
  · rcases hcases hdep with ⟨p, hp, hid, -⟩ | ⟨-, hsame, hlive⟩
    · exact absurd hid (hstranger p hp)
    · exact ⟨hsame, h.live_before (hmiss hdep hstranger) hlive⟩

/-- Where all dependencies are faithful, those outside the batch are on tasks from before. -/
theorem noCollision_of_remapsAll (h : RemapsAll items old new) : NoCollision items old := by
  obtain ⟨rows, -, hall⟩ := h
  have hlen := hall.length_eq
  intro item hitem hdep hstranger hnext
  obtain ⟨row, hp⟩ := exists_mem_zip hlen hitem
  obtain ⟨-, t, ht⟩ :=
    (rel_of_mem_zip hall hp).outside hdep ((carried_iff hlen _).mpr hstranger)
  have hlt := Table.rowId_lt_nextId (Table.byId_eq_some.mp ht).1
  have hle := Table.le_of_mem_nextKeys hnext
  omega

/-- **Dependencies are moved faithfully** by an import that has succeeded, if and only if no item
    refers, outside the batch, to one of the ids that the batch gets. -/
theorem remapped_iff {s s' : State} {created : List Task}
    (h : Prog.Runs (execStep ext AnyStep) (importTaskItems ext items) s (.ok created) s') :
    RemapsAll items s.db.task s'.db.task ↔ NoCollision items s.db.task := by
  rcases h.post (importTaskItems_spec items s) with
    ⟨err, herr, -⟩ | ⟨created', rows, tasks, -, hview, himports⟩
  · cases herr
  · have htasks : s'.db.task = tasks := congrArg View.tasks hview
    rw [htasks]
    change Imports ext AnyStep s.view.nodes items s.db.task rows tasks at himports
    have hlen := himports.each.length_eq
    refine ⟨noCollision_of_remapsAll, fun hmiss => ?_⟩
    refine ⟨rows, himports.rows_eq, List.forall₂_iff_zip.mpr ⟨hlen, fun {item row} hp => ?_⟩⟩
    refine himports.remapped (fun hdep hstranger => ?_) (rel_of_mem_zip himports.each hp)
    exact hmiss item (List.of_mem_zip hp).1 hdep ((carried_iff hlen _).mp hstranger)

end Import

/-- References forward and backward in a batch are moved. -/
theorem remapped_iff_chained : ∃ created s', Prog.Runs (execStep plainExternals AnyStep)
    (importTaskItems plainExternals chainedItems) (State.boot oneTaskDatabase 0) (.ok created) s' ∧
    s'.db.task.rows.map (fun t => (t.id, t.dependsOnTaskID)) = [(1, 0), (2, 4), (3, 0), (4, 3)] ∧
    RemapsAll chainedItems oneTaskDatabase.task s'.db.task := by
  obtain ⟨created, s', hrun, hlinks⟩ := chainedItems_run
  refine ⟨created, s', hrun, hlinks, (remapped_iff hrun).mpr ?_⟩
  simp [NoCollision, chainedItems, someItem]

/-- Two items without ids, the first of which refers to the task 2 of the database they come
    from. -/
def strayItems : List TaskTransferItem :=
  [{ someItem with id := 0, dependsOnTaskID := 2 }, { someItem with id := 0 }]

/-- Imported into an empty database, the first item is linked to the task of the second: it has
    got the id 2 by the time the reference is tested. -/
theorem import_links_stranger : ¬ ∀ (items : List TaskTransferItem) (s s' : State)
    (created : List Task), Prog.Runs (execStep plainExternals AnyStep)
      (importTaskItems plainExternals items) s (.ok created) s' →
    RemapsAll items s.db.task s'.db.task := by
  intro hall
  have hrun : ∃ created s',
      Prog.Runs (execStep plainExternals AnyStep) (importTaskItems plainExternals strayItems)
        (State.boot emptyDatabase 0) (.ok created) s' := by
    -- begin, two inserts, the lookup of the reference, the save, commit
    exact ⟨_, _, runs_of_choices (List.replicate 6 {}) (fun _ _ _ _ => trivial) rfl⟩
  obtain ⟨created, s', hrun⟩ := hrun
  have hmiss := noCollision_of_remapsAll (hall _ _ _ _ hrun)
  have hnot := hmiss _ List.mem_cons_self (by decide) (by simp [strayItems, someItem])
  exact absurd (show (2 : Int) ∈ [1, 2] by decide) hnot

end Gonitor.Integrity
