import Gonitor.Integrity.Validity
import Mathlib.Data.Set.Function

/-!
# Export and Import

Exporting tasks and importing the items into another database should give the same tasks under
new ids.  It does, except for one column: `EditTask` can store a priority of 0, and `Create` puts
the default of that column, 1, in its place.

## Main Results

- `Selection.not_refused`: importing an exported selection succeeds.
- `roundTrip_iff`: it is a copy of the selection exactly if no selected task has priority 0.
- `import_raises_priority`: a run in which the copy differs.
-/

namespace Gonitor.Integrity

open Gonitor.Model Gonitor.Server Gonitor.Controller Gonitor.Requests AtomicProgram SoftDelete

/-! ## Selections and copies -/

/-- Live tasks of the table, no two of the same id, that depend on each other only. -/
structure Selection (tasks : Table Task) (sel : List Task) : Prop where
  live : ∀ t ∈ sel, tasks.byId t.id = some t
  distinct : (sel.map fun t => t.id).Nodup
  closed : ∀ t ∈ sel, t.dependsOnTaskID ≠ 0 → ∃ t' ∈ sel, t'.id = t.dependsOnTaskID

/-- The ids of the tasks in a list. -/
def ids (tasks : List Task) : Set Int := {i | ∃ t ∈ tasks, t.id = i}

/-- The new table holds a copy of the selection after the rows of the old one: a bijection takes
    the selected tasks to the new ones, their dependencies along, and all other columns but
    `is_disable` are the same. -/
def Copied (sel : List Task) (old new : Table Task) : Prop :=
  ∃ rows, new.rows = old.rows ++ rows ∧ ∃ f : Int → Int, f 0 = 0 ∧
    Set.BijOn f (ids sel) (ids rows) ∧
    ∀ t ∈ sel, ∃ row ∈ rows, row.id = f t.id ∧
      row.configuration =
        { t.configuration with isDisable := true, dependsOnTaskID := f t.dependsOnTaskID }

/-! ## The map of ids -/

/-- What the first loop records for an item is not replaced by items of other ids. -/
theorem lookup_recordIds_of_notMem {m : OldToNew} {pairs : List (TaskTransferItem × Task)} {i : Int}
    (h : ∀ p ∈ pairs, p.1.id ≠ i) : (recordIds m pairs).lookup i = m.lookup i := by
  induction pairs generalizing m with
  | nil => rfl
  | cons p pairs ih =>
    obtain ⟨item, row⟩ := p
    obtain ⟨hne, hrest⟩ := List.forall_mem_cons.mp h
    simp only [recordIds, ih hrest]
    split
    · exact AList.lookup_insert_ne hne.symm
    · rfl

/-- Where ids are distinct, every item finds the task created for it. -/
theorem lookup_recordIds_of_mem {m : OldToNew} {pairs : List (TaskTransferItem × Task)}
    (hdistinct : (pairs.map fun p => p.1.id).Nodup) {p : TaskTransferItem × Task} (hp : p ∈ pairs)
    (hpos : 0 < p.1.id) : (recordIds m pairs).lookup p.1.id = some p.2.id := by
  induction pairs generalizing m with
  | nil => cases hp
  | cons q pairs ih =>
    simp only [List.map_cons, List.nodup_cons, List.mem_map, not_exists, not_and] at hdistinct
    obtain ⟨hnew, hrest⟩ := hdistinct
    obtain ⟨item, row⟩ := q
    rcases List.mem_cons.mp hp with rfl | hmem
    · rw [recordIds, lookup_recordIds_of_notMem fun p hp => hnew p hp, if_pos hpos]
      exact AList.lookup_insert _
    · exact ih hrest hmem

/-- Items of a list, each with its partner. -/
theorem exists_mem_zip {α β : Type} {as : List α} {bs : List β} (hlen : as.length = bs.length)
    {a : α} (ha : a ∈ as) : ∃ b, (a, b) ∈ as.zip bs := by
  have hfst : (as.zip bs).map Prod.fst = as := List.map_fst_zip (Nat.le_of_eq hlen)
  rw [← hfst, List.mem_map] at ha
  obtain ⟨⟨a', b⟩, hmem, rfl⟩ := ha
  exact ⟨b, hmem⟩

theorem exists_mem_zip_right {α β : Type} {as : List α} {bs : List β}
    (hlen : as.length = bs.length) {b : β} (hb : b ∈ bs) : ∃ a, (a, b) ∈ as.zip bs := by
  have hsnd : (as.zip bs).map Prod.snd = bs := List.map_snd_zip (Nat.le_of_eq hlen.symm)
  rw [← hsnd, List.mem_map] at hb
  obtain ⟨⟨a, b'⟩, hmem, rfl⟩ := hb
  exact ⟨a, hmem⟩

/-- The keys of a table's rows are distinct. -/
theorem nodup_ids {tasks : Table Task} {front rows : List Task} (h : tasks.rows = front ++ rows) :
    (rows.map fun row => row.id).Nodup := by
  have hsorted := tasks.ids_sorted
  rw [h, List.pairwise_append] at hsorted
  exact List.Pairwise.map _ (fun a b hlt => Int.ne_of_lt hlt) hsorted.2.1

section Pairs

variable {tasks : Table Task} {sel rows : List Task}

/-- Each selected task, exported, is in the map with the id of its partner. -/
theorem Selection.lookup (hsel : Selection tasks sel) (hlen : sel.length = rows.length)
    {t row : Task} (hp : (t, row) ∈ sel.zip rows) :
    (recordIds ∅ ((sel.map exportTaskItem).zip rows)).lookup t.id = some row.id := by
  have hlive := hsel.live t (List.of_mem_zip hp).1
  have hpos : 0 < t.id := tasks.ids_pos t (Table.mem_of_byId hlive).1
  have hzip : (sel.map exportTaskItem).zip rows =
      (sel.zip rows).map (Prod.map exportTaskItem id) := List.zip_map_left
  have hdistinct : (((sel.map exportTaskItem).zip rows).map fun p => p.1.id).Nodup := by
    have hfst : (sel.zip rows).map Prod.fst = sel := List.map_fst_zip (Nat.le_of_eq hlen)
    have hids : (sel.zip rows).map (fun p => p.1.id) = sel.map fun t => t.id := by
      conv_rhs => rw [← hfst]
      rw [List.map_map]
      rfl
    rw [hzip, List.map_map]
    exact hids ▸ hsel.distinct
  have hmem : (exportTaskItem t, row) ∈ (sel.map exportTaskItem).zip rows := by
    rw [hzip]
    exact List.mem_map.mpr ⟨(t, row), hp, rfl⟩
  exact lookup_recordIds_of_mem hdistinct hmem hpos

/-- Nothing is recorded under the id 0. -/
theorem lookup_zero (pairs : List (TaskTransferItem × Task)) :
    (recordIds ∅ pairs).lookup 0 = none := by
  cases h : (recordIds ∅ pairs).lookup 0 with
  | none => rfl
  | some new =>
    rcases lookup_recordIds h with hempty | ⟨p, -, hid, hpos, -⟩
    · cases hempty
    · omega

/-- The new id of an old one; 0 stays 0. -/
def renamed (oldToNew : OldToNew) (old : Int) : Int := (oldToNew.lookup old).getD 0

/-- The renaming takes the ids of the selection one by one to those of the new rows. -/
theorem Selection.bijOn (hsel : Selection tasks sel) (hlen : sel.length = rows.length)
    (hrows : (rows.map fun row => row.id).Nodup) :
    Set.BijOn (renamed (recordIds ∅ ((sel.map exportTaskItem).zip rows))) (ids sel) (ids rows) := by
  have hrename : ∀ t row, (t, row) ∈ sel.zip rows →
      renamed (recordIds ∅ ((sel.map exportTaskItem).zip rows)) t.id = row.id := by
    intro t row hp
    rw [renamed, hsel.lookup hlen hp, Option.getD_some]
  refine ⟨?mapsTo, ?injOn, ?surjOn⟩
  case mapsTo =>
    rintro _ ⟨t, ht, rfl⟩
    obtain ⟨row, hp⟩ := exists_mem_zip hlen ht
    exact ⟨row, (List.of_mem_zip hp).2, (hrename t row hp).symm⟩
  case injOn =>
    rintro _ ⟨t, ht, rfl⟩ _ ⟨t', ht', rfl⟩ heq
    obtain ⟨row, hp⟩ := exists_mem_zip hlen ht
    obtain ⟨row', hp'⟩ := exists_mem_zip hlen ht'
    rw [hrename t row hp, hrename t' row' hp'] at heq
    -- the new rows differ in their ids, so both tasks have the same place
    have hsnd : (sel.zip rows).map (fun p => p.2.id) = rows.map fun row => row.id := by
      have hmap : (sel.zip rows).map Prod.snd = rows := List.map_snd_zip (Nat.le_of_eq hlen.symm)
      conv_rhs => rw [← hmap]
      rw [List.map_map]
      rfl
    have hsame := List.inj_on_of_nodup_map (hsnd ▸ hrows) hp hp' heq
    exact congrArg (fun p : Task × Task => p.1.id) hsame
  case surjOn =>
    rintro _ ⟨row, hrow, rfl⟩
    obtain ⟨t, hp⟩ := exists_mem_zip_right hlen hrow
    exact ⟨t.id, ⟨t, (List.of_mem_zip hp).1, rfl⟩, hrename t row hp⟩

end Pairs

/-! ## Importing an exported selection -/

section Import

variable {ext : Externals} {K : State → Op → Choice → Prop} {tasks tasks' old : Table Task}
  {sel rows : List Task}

/-- A well-formed task, exported, is an item that the validation accepts. -/
theorem importable_of_wellFormed {t : Task} (h : WellFormed ext t) :
    Importable ext (exportTaskItem t) := by
  refine ⟨payloadFieldError_eq_none.mpr ?_, payloadScriptError_eq_none.mpr ?_⟩
  · exact ⟨h.name, fun hzero => h.command (String.utf8ByteSize_eq_zero_iff.mp hzero), h.execType,
      h.priority, h.retryTimes, h.retryInterval, h.timeout, le_refl (0 : Int)⟩
  · refine ⟨h.schedule, fun hpos => ?_, fun hpos => ?_⟩
    · rcases h.assert with hempty | hok
      · rw [show (exportTaskItem t).payload.assert = t.assert from rfl, hempty] at hpos
        cases hpos
      · exact hok
    · rcases h.resultHandler with hempty | hok
      · rw [show (exportTaskItem t).payload.resultHandler = t.resultHandler from rfl, hempty] at hpos
        cases hpos
      · exact hok

/-- No import of an exported selection of well-formed tasks is refused. -/
theorem Selection.not_refused (hsel : Selection tasks sel) (hwell : AllWellFormed ext tasks) :
    ¬ Refused ext (sel.map exportTaskItem) old := by
  rintro (⟨item, hitem, hbad⟩ | ⟨rows, tasks₁, hrows, heach, p, hp, hbad⟩)
  · obtain ⟨t, ht, rfl⟩ := List.mem_map.mp hitem
    exact hbad (importable_of_wellFormed (hwell _ t (hsel.live t ht)))
  · have hlen : sel.length = rows.length := by simpa using heach.length_eq
    rw [List.zip_map_left, List.mem_map] at hp
    obtain ⟨⟨t, row⟩, hp, rfl⟩ := hp
    obtain ⟨ht, hrow⟩ := List.of_mem_zip hp
    refine hbad fun hdep => ?_
    -- the dependency is selected too, so it has been inserted
    obtain ⟨t', ht', hid⟩ := hsel.closed t ht hdep
    obtain ⟨row', hp'⟩ := exists_mem_zip hlen ht'
    have hlookup := hsel.lookup hlen hp'
    refine ⟨row'.id, ?_, fun heq => ?_⟩
    · rw [resolved, show (Prod.map exportTaskItem id (t, row)).1.dependsOnTaskID = t'.id from hid.symm,
        hlookup]
    · have hbij := (hsel.bijOn hlen (nodup_ids hrows)).injOn
      have hsame : t'.id = t.id := hbij ⟨t', ht', rfl⟩ ⟨t, ht, rfl⟩ (by
        rw [renamed, renamed, hlookup, hsel.lookup hlen hp]
        exact heq)
      exact (hwell _ t (hsel.live t ht)).notSelf (hid.symm.trans hsame)

/-- Partners in two related lists. -/
theorem rel_of_mem_zip {α β : Type} {R : α → β → Prop} {as : List α} {bs : List β}
    (h : List.Forall₂ R as bs) {a : α} {b : β} (hp : (a, b) ∈ as.zip bs) : R a b :=
  (List.forall₂_iff_zip.mp h).2 hp

/-- The new row of a selected task has the new id of its dependency. -/
theorem Selection.dependency (hsel : Selection tasks sel) {oldToNew : OldToNew} {t row : Task}
    (ht : t ∈ sel) (hlen : sel.length = rows.length)
    (hmap : oldToNew = recordIds ∅ ((sel.map exportTaskItem).zip rows))
    (h : ImportedAs ext oldToNew tasks' (exportTaskItem t) row) :
    row.dependsOnTaskID = renamed oldToNew t.dependsOnTaskID := by
  rcases eq_or_ne t.dependsOnTaskID 0 with hzero | hdep
  · rw [h.unlinked hzero, hzero, renamed, hmap, lookup_zero]
    rfl
  · obtain ⟨t', ht', hid⟩ := hsel.closed t ht hdep
    obtain ⟨row', hp'⟩ := exists_mem_zip hlen ht'
    have hresolved := (h.dependency hdep).1
    have hlookup : oldToNew.lookup t.dependsOnTaskID = some row'.id := by
      rw [hmap, ← hid]
      exact hsel.lookup hlen hp'
    rw [resolved, show (exportTaskItem t).dependsOnTaskID = t.dependsOnTaskID from rfl, hlookup,
      Option.some.injEq] at hresolved
    rw [renamed, hlookup, Option.getD_some, hresolved]

/-- Without a priority of 0, an import that has succeeded has made a copy. -/
theorem Selection.copied (hsel : Selection tasks sel) {nodes : Table Node}
    (h : Imports ext K nodes (sel.map exportTaskItem) old rows tasks')
    (hprio : ∀ t ∈ sel, t.priority ≠ 0) : Copied sel old tasks' := by
  have hlen : sel.length = rows.length := by simpa using h.each.length_eq
  refine ⟨rows, h.rows_eq, renamed _, ?_, hsel.bijOn hlen (nodup_ids h.rows_eq), fun t ht => ?_⟩
  · rw [renamed, lookup_zero]
    rfl
  · obtain ⟨row, hp⟩ := exists_mem_zip hlen ht
    have himported : ImportedAs ext (recordIds ∅ ((sel.map exportTaskItem).zip rows)) tasks'
        (exportTaskItem t) row := by
      refine rel_of_mem_zip h.each ?_
      rw [List.zip_map_left]
      exact List.mem_map.mpr ⟨(t, row), hp, rfl⟩
    refine ⟨row, (List.of_mem_zip hp).2, ?_, ?_⟩
    · rw [renamed, hsel.lookup hlen hp, Option.getD_some]
    · rw [himported.configuration, hsel.dependency ht hlen rfl himported, importedConfiguration,
        show (exportTaskItem t).priority = t.priority from rfl, if_neg (hprio t ht)]
      rfl

/-- No new row has priority 0, so a copy has none either. -/
theorem priority_of_copied {nodes : Table Node} {items : List TaskTransferItem}
    (h : Imports ext K nodes items old rows tasks') (hcopied : Copied sel old tasks') :
    ∀ t ∈ sel, t.priority ≠ 0 := by
  intro t ht hzero
  obtain ⟨rows', hrows', f, -, -, hcopy⟩ := hcopied
  obtain rfl : rows' = rows := List.append_cancel_left (hrows'.symm.trans h.rows_eq)
  obtain ⟨row, hrow, -, hconf⟩ := hcopy t ht
  obtain ⟨item, hp⟩ := exists_mem_zip_right h.each.length_eq hrow
  have hstored := congrArg Task.priority (rel_of_mem_zip h.each hp).configuration
  have hkept := congrArg Task.priority hconf
  -- the stored priority is that of the item, or the default 1
  have hrowzero : row.priority = 0 := hkept.trans hzero
  rw [show row.configuration.priority = row.priority from rfl, hrowzero] at hstored
  simp only [importedConfiguration] at hstored
  split at hstored
  · exact absurd hstored (by decide)
  · rename_i hne
    exact hne hstored.symm

end Import

/-- **Export and import**: for every reachable task table and every selection of live tasks closed
    under dependencies, importing the exported items into any database succeeds with a copy of the
    selection if and only if no selected task has priority 0. -/
theorem roundTrip_iff {ext : Externals} {s s₁ s₂ : State} {sel : List Task}
    {K : State → Op → Choice → Prop} {r : Except String (List Task)}
    (h : ReachableFrom NoTasks ext AnyStep TaskOrNodeRequest s) (hsel : Selection s.db.task sel)
    (hsure : NoDbFailure K)
    (hrun : Prog.Runs (execStep ext K) (importTaskItems ext (sel.map exportTaskItem)) s₁ r s₂) :
    ((∃ created, r = .ok created) ∧ Copied sel s₁.db.task s₂.db.task) ↔
      ∀ t ∈ sel, t.priority ≠ 0 := by
  have hwell := reachable_allWellFormed h
  rcases hrun.post (importTaskItems_spec (sel.map exportTaskItem) s₁) with
    ⟨err, -, -, hwhy⟩ | ⟨created, rows, tasks, rfl, hview, himports⟩
  · exact absurd (hwhy hsure) (hsel.not_refused hwell)
  · have htasks : s₂.db.task = tasks := congrArg View.tasks hview
    rw [htasks]
    refine ⟨fun hcopy => priority_of_copied himports hcopy.2, fun hprio => ⟨⟨created, rfl⟩, ?_⟩⟩
    exact hsel.copied himports hprio

/-- One task that depends on nothing is a selection. -/
theorem selection_singleton {tasks : Table Task} {t : Task} {i : Int} (hrow : tasks.byId i = some t)
    (hdep : t.dependsOnTaskID = 0) : Selection tasks [t] := by
  refine ⟨?_, List.nodup_singleton _, ?_⟩
  · simp only [List.mem_singleton, forall_eq]
    rw [show t.id = i from (Table.mem_of_byId hrow).2.1, hrow]
  · simp only [List.mem_singleton, forall_eq]
    exact fun hne => absurd hdep hne

/-- Two tasks are added, the second with the first as its dependency, and neither is scheduled. -/
def addedTwo : List (Request × List Choice) :=
  [(.addTask (.ok somePayload), [{}, { fail := true }]),
    (.addTask (.ok { somePayload with dependsOnTaskID := 1 }), [{}, {}, { fail := true }])]

/-- Both of them, exported and imported, have copies that are linked in the same way. -/
theorem roundTrip_iff_twoTasks : ∃ (s : State) (t u : Task) (s₂ : State),
    ReachableFrom NoTasks plainExternals AnyStep TaskOrNodeRequest s ∧
    Selection s.db.task [t, u] ∧ u.dependsOnTaskID = t.id ∧ Copied [t, u] s.db.task s₂.db.task ∧
    s₂.db.task.rows.map (fun row => (row.id, row.dependsOnTaskID)) = [(1, 0), (2, 1), (3, 0), (4, 3)] := by
  have hserved : ∃ s t u, serveWith plainExternals ⟨0, ""⟩ addedTwo (State.boot emptyDatabase 0) =
        some s ∧
      (s.db.task.byId 1 = some t ∧ t.id = 1 ∧ t.priority = 1 ∧ t.dependsOnTaskID = 0) ∧
      (s.db.task.byId 2 = some u ∧ u.id = 2 ∧ u.priority = 1 ∧ u.dependsOnTaskID = 1) ∧
      ∃ r s₂, Prog.Runs (execStep plainExternals (fun _ _ c => c.fail = false))
          (importTaskItems plainExternals ([t, u].map exportTaskItem)) s r s₂ ∧
        s₂.db.task.rows.map (fun row => (row.id, row.dependsOnTaskID)) =
          [(1, 0), (2, 1), (3, 0), (4, 3)] := by
    refine ⟨_, _, _, rfl, ⟨rfl, rfl, rfl, rfl⟩, ⟨rfl, rfl, rfl, rfl⟩, ?_⟩
    -- begin, two inserts, the save of the link, commit
    exact ⟨_, _, runs_of_choices (List.replicate 5 {}) (by simp) rfl, rfl⟩
  obtain ⟨s, t, u, hserve, ⟨ht, htid, htprio, htdep⟩, ⟨hu, huid, huprio, hudep⟩, r, s₂, himport, hlinks⟩ :=
    hserved
  have hmany : ServesMany plainExternals AnyStep TaskOrNodeRequest (State.boot emptyDatabase 0) s := by
    refine servesMany_of_serveWith ?_ (fun _ _ _ _ _ _ => trivial) hserve
    simp [addedTwo, TaskOrNodeRequest, Request.isTaskRequest]
  have hreach : ReachableFrom NoTasks plainExternals AnyStep TaskOrNodeRequest s :=
    ⟨emptyDatabase, 0, State.boot emptyDatabase 0, rfl, .op ⟨{}, trivial, rfl⟩ (.pure _ _), hmany⟩
  have hsel : Selection s.db.task [t, u] := by
    refine ⟨?_, ?_, ?_⟩
    · simp [htid, ht, huid, hu]
    · simp [htid, huid]
    · simp [htid, htdep, hudep]
  refine ⟨s, t, u, s₂, hreach, hsel, hudep.trans htid.symm, ?_, hlinks⟩
  refine ((roundTrip_iff hreach hsel (fun _ _ _ hok => hok) himport).mpr ?_).2
  simp [htprio, huprio]

/-! ## The column that changes -/

/-- A task of priority 0 that is added and edited is stored with that priority in the end: `Create`
    puts the default in its place, but `Save` does not.  Then it is exported, and imported again. -/
theorem exported_priority_zero : ∃ s t r s₂,
    ReachableFrom NoTasks plainExternals AnyStep TaskOrNodeRequest s ∧
    Selection s.db.task [t] ∧ t.priority = 0 ∧
    Prog.Runs (execStep plainExternals (fun _ _ c => c.fail = false))
      (importTaskItems plainExternals ([t].map exportTaskItem)) s r s₂ := by
  -- both requests fail to schedule the task, which makes the runs shorter
  have hserved : ∃ reply s, Prog.Runs (execStep plainExternals AnyStep)
      (Request.handle plainExternals ⟨0, ""⟩ (.addTask (.ok somePayload)))
      (State.boot emptyDatabase 0) reply s ∧ ∃ reply' s', Prog.Runs
        (execStep plainExternals AnyStep)
        (Request.handle plainExternals ⟨0, ""⟩ (.editTask 1 (.ok somePayload))) s reply' s' ∧
      ∃ t, (s'.db.task.byId 1 = some t ∧ t.priority = 0 ∧ t.dependsOnTaskID = 0) ∧
        ∃ r s₂, Prog.Runs (execStep plainExternals (fun _ _ c => c.fail = false))
          (importTaskItems plainExternals ([t].map exportTaskItem)) s' r s₂ := by
    refine ⟨_, _, .op ⟨{}, trivial, rfl⟩ (.op ⟨{ fail := true }, trivial, rfl⟩ (.pure _ _)), ?_⟩
    refine ⟨_, _, .op ⟨{}, trivial, rfl⟩ (.op ⟨{}, trivial, rfl⟩ (.op ⟨{}, trivial, rfl⟩
      (.op ⟨{}, trivial, rfl⟩ (.op ⟨{ fail := true }, trivial, rfl⟩ (.pure _ _))))), ?_⟩
    refine ⟨_, ⟨rfl, rfl, rfl⟩, ?_⟩
    exact ⟨_, _, .op ⟨{}, rfl, rfl⟩ (.op ⟨{}, rfl, rfl⟩ (.op ⟨{}, rfl, rfl⟩ (.pure _ _)))⟩
  obtain ⟨reply, s, hadd, reply', s', hedit, t, ⟨hrow, hprio, hdep⟩, r, s₂, himport⟩ := hserved
  have hmany : ServesMany plainExternals AnyStep TaskOrNodeRequest (State.boot emptyDatabase 0) s' :=
    .tail (.single ⟨.addTask (.ok somePayload), reply, .inl rfl, ⟨0, ""⟩, hadd⟩)
      ⟨.editTask 1 (.ok somePayload), reply', .inl rfl, ⟨0, ""⟩, hedit⟩
  exact ⟨s', t, r, s₂, ⟨emptyDatabase, 0, State.boot emptyDatabase 0, rfl,
    .op ⟨{}, trivial, rfl⟩ (.pure _ _), hmany⟩, selection_singleton hrow hdep, hprio, himport⟩

/-- Exporting and importing a task of priority 0 does not make a copy of it. -/
theorem import_raises_priority : ¬ ∀ s sel s₁ r s₂,
    ReachableFrom NoTasks plainExternals AnyStep TaskOrNodeRequest s → Selection s.db.task sel →
    Prog.Runs (execStep plainExternals (fun _ _ c => c.fail = false))
      (importTaskItems plainExternals (sel.map exportTaskItem)) s₁ r s₂ →
    (∃ created, r = .ok created) ∧ Copied sel s₁.db.task s₂.db.task := by
  intro hall
  obtain ⟨s, t, r, s₂, hreach, hsel, hzero, hrun⟩ := exported_priority_zero
  have hcopy := (hall s [t] s r s₂ hreach hsel hrun).2
  rcases hrun.post (importTaskItems_spec ([t].map exportTaskItem) s) with
    ⟨err, -, -, hwhy⟩ | ⟨created, rows, tasks, -, hview, himports⟩
  · refine hsel.not_refused (reachable_allWellFormed hreach) (hwhy ?_)
    exact fun _ _ _ hok => hok
  · have htasks : s₂.db.task = tasks := congrArg View.tasks hview
    rw [htasks] at hcopy
    exact priority_of_copied himports hcopy t (List.mem_singleton_self t) hzero

end Gonitor.Integrity
