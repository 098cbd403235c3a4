import Gonitor.Framework.AcyclicRelation
import Gonitor.Integrity.Validity

/-!
# Dependencies Between Tasks

A live task steps to the task it depends on.  A new task depends on an earlier one and nothing
depends on it yet, and a deletion drops steps; only a save can close a cycle, and the validation
forbids no more than the cycle of one step.

## Main Results

- `dependencies_acyclic`: no cycle ever arises where no save closes one.
- `two_edits_close_cycle`: two edits do.
-/

namespace Gonitor.Integrity

open Gonitor.Model Gonitor.Server Gonitor.Controller Gonitor.Requests AtomicProgram SoftDelete
open Relation AcyclicRelation

/-- The live task `taskId` depends on the task `dependencyID`. -/
def DependsOn (tasks : Table Task) (taskId dependencyID : Int) : Prop :=
  ∃ row, tasks.byId taskId = some row ∧ row.dependsOnTaskID > 0 ∧
    row.dependsOnTaskID = dependencyID

/-- Storing `row` closes a cycle: what it depends on depends, at some remove, on its own key. -/
def ClosesCycle (tasks : Table Task) (row : Task) : Prop :=
  row.dependsOnTaskID > 0 ∧ ReflTransGen (DependsOn tasks) row.dependsOnTaskID row.id

/-- The dependencies of the live tasks have no cycle, and lead to keys handed out already. -/
structure Ordered (tasks : Table Task) : Prop where
  acyclic : Acyclic (DependsOn tasks)
  below : ∀ i row, tasks.byId i = some row → row.dependsOnTaskID < tasks.nextId

theorem ordered_of_noTasks {db : Database} (h : NoTasks db) : Ordered db.task := by
  constructor
  · refine acyclic_of_empty ?_
    rintro a b ⟨row, hrow, -⟩
    rw [byId_of_noTasks h] at hrow
    cases hrow
  · intro i row hrow
    rw [byId_of_noTasks h] at hrow
    cases hrow

/-- An accepted dependency has a key handed out already. -/
theorem Accepted.below {ext : Externals} {tasks : Table Task} {taskID : Int}
    {payload : TaskMutationPayload} (h : Accepted ext tasks taskID payload) :
    payload.dependsOnTaskID < tasks.nextId := by
  have hpos := tasks.nextId_pos
  by_cases hdep : payload.dependsOnTaskID > 0
  · obtain ⟨-, dependency, hdependency⟩ := h.dependency hdep
    exact Table.rowId_lt_nextId (Table.byId_eq_some.mp hdependency).1
  · omega

/-- What a handler makes of a live row is live. -/
theorem Rewritten.live_eq {ext : Externals} {tasks : Table Task} {row row' : Task}
    (h : Rewritten ext tasks row row') : live row' = live row := by
  cases h <;> rfl

/-- What a handler makes of a row depends on a key handed out already. -/
theorem Rewritten.below {ext : Externals} {tasks : Table Task} {row row' : Task}
    (hrow : row.dependsOnTaskID < tasks.nextId) (h : Rewritten ext tasks row row') :
    row'.dependsOnTaskID < tasks.nextId := by
  cases h with
  | edited haccepted => exact haccepted.below
  | switched isDisable => exact hrow
  | linked hfound hne => exact Table.rowId_lt_nextId (Table.byId_eq_some.mp hfound).1

/-! ## The three changes -/

section Changes

variable {tasks tasks' : Table Task}

/-- Nothing depends on a key that has not been handed out, so a new task closes no cycle. -/
theorem Ordered.create (h : Ordered tasks) {row : Task} {now : Time}
    (hbelow : row.dependsOnTaskID < tasks.nextId) : Ordered (tasks.create row now) := by
  have hrow : ∀ i x, (tasks.create row now).byId i = some x →
      x.dependsOnTaskID < tasks.nextId := by
    intro i x hx
    rw [Table.byId_create] at hx
    split at hx
    · cases hx
      exact hbelow
    · exact h.below i x hx
  constructor
  · apply h.acyclic.redirect (a := tasks.nextId)
    · rintro x y hx ⟨r, hr, hstep⟩
      rw [Table.byId_create, if_neg hx] at hr
      exact ⟨r, hr, hstep⟩
    · rintro y ⟨r, hr, -, rfl⟩ hback
      have hlt := hrow _ r hr
      rcases ReflTransGen.cases_tail hback with heq | ⟨x, -, r', hr', -, heq⟩
      · omega
      · have := h.below x r' hr'
        omega
  · intro i x hx
    have hlt := hrow i x hx
    have hnext : (tasks.create row now).nextId = tasks.nextId + 1 := rfl
    omega

/-- A save closes a cycle exactly where its row does. -/
theorem acyclic_save_iff (h : Acyclic (DependsOn tasks)) {row : Task} {now : Time}
    (hlive : live row = true) (hsave : tasks.save row now = some tasks') :
    Acyclic (DependsOn tasks') ↔ ¬ ClosesCycle tasks row := by
  have hrow : tasks'.byId row.id = some (Table.saved row now) := by
    simp [Table.byId_save hsave hlive]
  have hother : ∀ x y, x ≠ row.id → (DependsOn tasks' x y ↔ DependsOn tasks x y) := by
    intro x y hx
    simp [DependsOn, Table.byId_save hsave hlive, hx]
  rw [acyclic_redirect_iff h hother]
  constructor
  · rintro hnew ⟨hpos, hback⟩
    exact hnew _ ⟨_, hrow, hpos, rfl⟩ hback
  · rintro hopen y ⟨r, hr, hpos, rfl⟩ hback
    rw [hrow, Option.some.injEq] at hr
    subst hr
    exact hopen ⟨hpos, hback⟩

theorem Ordered.save (h : Ordered tasks) {row : Task} {now : Time} (hlive : live row = true)
    (hsave : tasks.save row now = some tasks') (hbelow : row.dependsOnTaskID < tasks.nextId)
    (hopen : ¬ ClosesCycle tasks row) : Ordered tasks' := by
  constructor
  · exact (acyclic_save_iff h.acyclic hlive hsave).mpr hopen
  · intro i x hx
    rw [Table.nextId_save hsave]
    rw [Table.byId_save hsave hlive] at hx
    split at hx
    · cases hx
      exact hbelow
    · exact h.below i x hx

/-- A deletion drops the dependency of the task deleted. -/
theorem Ordered.delete (h : Ordered tasks) (id : Int) (now : Time) :
    Ordered (tasks.delete id now) := by
  have hold : ∀ i x, (tasks.delete id now).byId i = some x → tasks.byId i = some x := by
    intro i x hx
    rw [Table.byId_delete] at hx
    split at hx
    · cases hx
    · exact hx
  constructor
  · apply h.acyclic.mono
    rintro a b ⟨row, hrow, hstep⟩
    exact ⟨row, hold a row hrow, hstep⟩
  · intro i row hrow
    exact h.below i row (hold i row hrow)

end Changes

/-! ## In every run -/

/-- The step does not succeed in saving a row that closes a cycle. -/
def OpenStep (s : State) (o : Op) (c : Choice) : Prop :=
  ∀ row, o = .db (.saveTask row) → c.fail = false → ¬ ClosesCycle s.db.task row

/-- Is the operation the save of a task? -/
def savesTask : Op → Bool
  | .db (.saveTask _) => true
  | _ => false

theorem openStep_of_other {s : State} {o : Op} {c : Choice} (h : savesTask o = false) :
    OpenStep s o c := by
  rintro row rfl
  cases h

theorem Ordered.change {ext : Externals} {nodes : Table Node} {tasks tasks' : Table Task}
    (h : Ordered tasks) (hchange : TaskChange ext OpenStep nodes tasks tasks') :
    Ordered tasks' := by
  cases hchange with
  | created haccepted _ =>
    apply h.create
    exact haccepted.below
  | @saved row row' now _ hfound hrewritten hperforms hsave =>
    obtain ⟨hmem, -, hlive⟩ := Table.mem_of_byId hfound
    have hbelow := hrewritten.below (h.below _ row hfound)
    obtain ⟨s, -, rfl, c, hopen, hok⟩ := hperforms
    apply h.save ?_ hsave hbelow (hopen row' rfl hok)
    rw [hrewritten.live_eq]
    exact hlive
  | deleted _ =>
    apply h.delete

/-- **Dependencies stay acyclic** in every run of task and node requests from an empty task table
    in which no save closes a cycle, whatever else fails. -/
theorem dependencies_acyclic {ext : Externals} {s : State}
    (h : ReachableFrom NoTasks ext OpenStep TaskOrNodeRequest s) :
    Acyclic (DependsOn s.db.task) := by
  have hordered : Ordered s.db.task := by
    apply h.tasks_invariant
    · exact fun db hdb => ordered_of_noTasks hdb
    · exact fun nodes tasks tasks' htasks hchange => htasks.change hchange
  exact hordered.acyclic

/-- The payload of a task that depends on another. -/
def dependingOn (dependencyID : Int) : TaskMutationPayload :=
  { somePayload with dependsOnTaskID := dependencyID }

/-- Two tasks are added; then each is edited to depend on the other.  The lookup after each write
    fails, which ends the handler. -/
def mutualEdits : List (Request × List Choice) :=
  [(.addTask (.ok somePayload), [{}, { fail := true }]),
    (.addTask (.ok somePayload), [{}, { fail := true }]),
    (.editTask 1 (.ok (dependingOn 2)), [{}, {}, {}, {}, {}, { fail := true }]),
    (.editTask 2 (.ok (dependingOn 1)), [{}, {}, {}, {}, {}, { fail := true }])]

theorem two_edits_close_cycle : ¬ ∀ s, ReachableFrom NoTasks plainExternals AnyStep
    TaskOrNodeRequest s → Acyclic (DependsOn s.db.task) := by
  intro hacyclic
  have hserved : ∃ s, serveWith plainExternals ⟨0, ""⟩ mutualEdits (State.boot emptyDatabase 0) =
      some s ∧ DependsOn s.db.task 1 2 ∧ DependsOn s.db.task 2 1 :=
    ⟨_, rfl, ⟨_, rfl, by decide, rfl⟩, ⟨_, rfl, by decide, rfl⟩⟩
  obtain ⟨s, hserve, hthere, hback⟩ := hserved
  have hstart : Prog.Runs (execStep plainExternals AnyStep) Gonitor.Task.start
      (State.boot emptyDatabase 0) () (State.boot emptyDatabase 0) :=
    .op ⟨{}, trivial, rfl⟩ (.pure _ _)
  have hmany : ServesMany plainExternals AnyStep TaskOrNodeRequest (State.boot emptyDatabase 0)
      s := by
    refine servesMany_of_serveWith ?_ ?_ hserve
    · simp [mutualEdits, TaskOrNodeRequest, Request.isTaskRequest]
    · exact fun _ _ _ _ _ _ => trivial
  have hreach : ReachableFrom NoTasks plainExternals AnyStep TaskOrNodeRequest s :=
    ⟨emptyDatabase, 0, State.boot emptyDatabase 0, rfl, hstart, hmany⟩
  exact hacyclic s hreach 1 (.tail (.single hthere) hback)

/-- Two tasks are added, and the first is edited to depend on the second. -/
theorem dependencies_acyclic_edited : ∃ s : State, Acyclic (DependsOn s.db.task) ∧
    DependsOn s.db.task 1 2 := by
  have hserved : ∃ r₁ s₁, Prog.Runs (execStep plainExternals OpenStep)
      (Request.handle plainExternals ⟨0, ""⟩ (.addTask (.ok somePayload)))
      (State.boot emptyDatabase 0) r₁ s₁ ∧
      ∃ r₂ s₂, Prog.Runs (execStep plainExternals OpenStep)
        (Request.handle plainExternals ⟨0, ""⟩ (.addTask (.ok somePayload))) s₁ r₂ s₂ ∧
      ∃ r₃ s₃, Prog.Runs (execStep plainExternals OpenStep)
        (Request.handle plainExternals ⟨0, ""⟩ (.editTask 1 (.ok (dependingOn 2)))) s₂ r₃ s₃ ∧
        DependsOn s₃.db.task 1 2 := by
    -- each task is stored and not scheduled, as the first operation after its insert fails
    refine ⟨_, _, .op ⟨{}, openStep_of_other rfl, rfl⟩
      (.op ⟨{ fail := true }, openStep_of_other rfl, rfl⟩ (.pure _ _)), ?_⟩
    refine ⟨_, _, .op ⟨{}, openStep_of_other rfl, rfl⟩
      (.op ⟨{ fail := true }, openStep_of_other rfl, rfl⟩ (.pure _ _)), ?_⟩
    refine ⟨_, _, .op ⟨{}, openStep_of_other rfl, rfl⟩ (.op ⟨{}, openStep_of_other rfl, rfl⟩
      (.op ⟨{}, ?_, rfl⟩ (.op ⟨{}, openStep_of_other rfl, rfl⟩
      (.op ⟨{}, openStep_of_other rfl, rfl⟩ (.op ⟨{ fail := true }, openStep_of_other rfl, rfl⟩ (.pure _ _)))))),
      _, rfl, by decide, rfl⟩
    -- at the save, the second task depends on none
    rintro row ⟨⟩ - ⟨-, hback⟩
    rcases hback.cases_head with hsame | ⟨dependencyID, ⟨row, hrow, hpos, -⟩, -⟩
    · exact absurd hsame (show (2 : Int) ≠ 1 by decide)
    · cases hrow
      exact absurd hpos (by decide)
  obtain ⟨r₁, s₁, h₁, r₂, s₂, h₂, r₃, s₃, h₃, hdep⟩ := hserved
  have hstart : Prog.Runs (execStep plainExternals OpenStep) Gonitor.Task.start
      (State.boot emptyDatabase 0) () (State.boot emptyDatabase 0) :=
    .op ⟨{}, openStep_of_other rfl, rfl⟩ (.pure _ _)
  have hmany : ServesMany plainExternals OpenStep TaskOrNodeRequest (State.boot emptyDatabase 0)
      s₃ := by
    apply ReflTransGen.tail (b := s₂)
    · apply ReflTransGen.tail (b := s₁)
      · exact .single ⟨_, r₁, .inl rfl, ⟨0, ""⟩, h₁⟩
      · exact ⟨_, r₂, .inl rfl, ⟨0, ""⟩, h₂⟩
    · exact ⟨_, r₃, .inl rfl, ⟨0, ""⟩, h₃⟩
  have hreach : ReachableFrom NoTasks plainExternals OpenStep TaskOrNodeRequest s₃ :=
    ⟨emptyDatabase, 0, State.boot emptyDatabase 0, rfl, hstart, hmany⟩
  exact ⟨s₃, dependencies_acyclic hreach, hdep⟩

end Gonitor.Integrity
