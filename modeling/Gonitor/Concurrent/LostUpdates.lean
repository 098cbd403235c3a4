import Gonitor.Concurrent.Orphans
import Gonitor.Requests.TaskUpdates

/-!
# Lost Updates

`EditTask`, `StopTask` and `StartTask` requests on one task take turns between the read of the row
and the save of all its columns.  A request that saves after others have saved writes back the
columns it has read before.

The requests take effect in the order of their saves: where each save of `StopTask` or `StartTask`
finds the columns, but for the switch, as they were read, the row is what the requests leave when
they are served one after the other in this order.

## Main Results

- `no_lost_update`: under that condition, every run leaves what a serial order leaves.
- `stopTask_loses_edit`: a `StopTask` around an `EditTask` takes the edit back.
-/

namespace Gonitor.Concurrent

open Gonitor.Model Gonitor.Server Gonitor.Controller Gonitor.Requests AtomicProgram SoftDelete

/-! ## What happens in a run -/

/-- The steps of a run, each with the pool it is taken from. -/
abbrev Steps := List (ServerPool × Label Choice Start)

/-- The update of the task that is received with this step, with the number of its thread. -/
def receivedUpdate (taskId : Int) (x : ServerPool × Label Choice Start) :
    Option (Nat × TaskUpdate) :=
  match x.2 with
  | .spawn tid (.request _ req) => (taskUpdate taskId req).map fun u => (tid, u)
  | _ => none

/-- The updates of the task that are received. -/
def updatesIn (taskId : Int) (past : Steps) : List (Nat × TaskUpdate) :=
  past.filterMap (receivedUpdate taskId)

/-- The thread that saves a task with this step. -/
def savingThread (x : ServerPool × Label Choice Start) : Option Nat :=
  match x.2 with
  | .op tid c =>
    match x.1.threads tid with
    | some ⟨.op (.db (.saveTask _)) _, _⟩ => if c.fail then none else some tid
    | _ => none
  | .spawn _ _ => none

/-- The threads that have saved a task, in the order of their saves. -/
def saversIn (past : Steps) : List Nat := past.filterMap savingThread

/-- The requests about tasks that arrive are updates of this task. -/
def OnlyUpdates (taskId : Int) : Label Choice Start → Prop
  | .spawn _ (.request _ req) => req.isTaskRequest = true → ∃ u, taskUpdate taskId req = some u
  | _ => True

/-! ## Serial orders -/

/-- The updates are served one after the other, each handler alone to its end; the operations on
    the database go well where the flag is set, and fail where it is not. -/
def ServesEach (ext : Externals) (taskId : Int) : List (TaskUpdate × Bool) → State → State → Prop
  | [], s, s' => s' = s
  | x :: rest, s, s' => ∃ reply s₁, Serves ext (Fate x.2) (x.1.request taskId) reply s s₁ ∧
    ServesEach ext taskId rest s₁ s'

/-- The row that the run leaves is the one that some serial order of its updates leaves, the time
    stamps aside.  In it those updates go well whose save has succeeded in the run. -/
def Serializable (ext : Externals) (taskId : Int) (p₀ p : ServerPool) (past : Steps) : Prop :=
  ∃ order : List (Nat × TaskUpdate), order.Perm (updatesIn taskId past) ∧ ∃ s row row',
    ServesEach ext taskId (order.map fun x => (x.2, decide (x.1 ∈ saversIn past))) p₀.shared s ∧
    s.db.task.byId taskId = some row ∧ p.shared.db.task.byId taskId = some row' ∧
    columns row = columns row'

/-- Conditions on a step, given the steps before it. -/
abbrev UpdateCondition := Int → Steps → ServerPool → Label Choice Start → Prop

/-- No update of a task is lost: every run in which updates of a task are interleaved, with each
    other and with anything that is no request about tasks, is serializable when they have ended. -/
def NoLostUpdate (ext : Externals) (K : UpdateCondition) : Prop :=
  ∀ taskId p₀ ls p, (∀ tid th, p₀.threads tid = some th → th.prog.isDone = true) →
    (∃ row, p₀.shared.db.task.byId taskId = some row) →
    (∀ x ∈ (server ext).steps ls p₀, OnlyUpdates taskId x.2) →
    (server ext).run ls p₀ = some p →
    (∀ before q l after, (server ext).steps ls p₀ = before ++ (q, l) :: after →
      K taskId before q l) →
    (∀ x ∈ updatesIn taskId ((server ext).steps ls p₀),
      ∃ th, p.threads x.1 = some th ∧ th.prog.isDone = true) →
    Serializable ext taskId p₀ p ((server ext).steps ls p₀)

/-- A save of `StopTask` or `StartTask` finds the columns, but for the switch, as the request has
    read them. -/
def StillCurrent : UpdateCondition := fun taskId past q l =>
  match l with
  | .op tid c => ∀ u row stored, (tid, u) ∈ updatesIn taskId past → u.isSwitch = true →
    AtOp q tid (.db (.saveTask row)) → c.fail = false →
    q.shared.db.task.byId taskId = some stored → AgreeButSwitch row stored
  | .spawn _ _ => True

/-! ## The ledger of a run -/

/-- Where the thread is: it has received an update, it holds the row that it has read for one, or it
    writes no task (any more). -/
inductive UpdatePlace (ext : Externals) (taskId : Int) (known : Int → Bool)
    (updates : List (Nat × TaskUpdate)) (savers : List Nat) (tid : Nat) : Program Reply → Prop
  | received {u : TaskUpdate} {caller : Caller} : (tid, u) ∈ updates → tid ∉ savers →
      UpdatePlace ext taskId known updates savers tid ((u.request taskId).handle ext caller)
  | holding {u : TaskUpdate} {row : Task} {p : Program Reply} : (tid, u) ∈ updates →
      tid ∉ savers → row.id = taskId → live row = true → Holding ext taskId known u row p →
      UpdatePlace ext taskId known updates savers tid p
  | quiet {p : Program Reply} : p.Uses KeepsTasks →
      UpdatePlace ext taskId known updates savers tid p

/-- The updates, one after the other, of the row. -/
def applyAll (updates : List TaskUpdate) (row : Task) : Task :=
  updates.foldl (fun row u => u.apply row) row

/-- The columns of the row are what the updates that have saved make of those at the start, in the
    order of their saves. -/
structure Ledger (ext : Externals) (taskId : Int) (known : Int → Bool) (row₀ : Task) (past : Steps)
    (q : ServerPool) : Prop where
  numbers : ((updatesIn taskId past).map Prod.fst).Nodup
  taken : ∀ x ∈ updatesIn taskId past, q.threads x.1 ≠ none
  saved : ∃ done : List (Nat × TaskUpdate), done.map Prod.fst = saversIn past ∧
    (saversIn past).Nodup ∧
    (∀ x ∈ done, x ∈ updatesIn taskId past ∧ x.2.Valid ext taskId known) ∧
    Holds taskId known (columns (applyAll (done.map Prod.snd) row₀)) q.shared.db.task
  places : ∀ tid th, q.threads tid = some th →
    UpdatePlace ext taskId known (updatesIn taskId past) (saversIn past) tid th.prog

section Ledger

variable {ext : Externals} {taskId : Int} {known : Int → Bool} {row₀ : Task} {past : Steps}
  {q : ServerPool}

theorem updatesIn_append (past : Steps) (x : ServerPool × Label Choice Start) :
    updatesIn taskId (past ++ [x]) =
      updatesIn taskId past ++ (receivedUpdate taskId x).toList := by
  simp only [updatesIn, List.filterMap_append, List.filterMap_cons, List.filterMap_nil]
  cases receivedUpdate taskId x <;> rfl

theorem saversIn_append (past : Steps) (x : ServerPool × Label Choice Start) :
    saversIn (past ++ [x]) = saversIn past ++ (savingThread x).toList := by
  simp only [saversIn, List.filterMap_append, List.filterMap_cons, List.filterMap_nil]
  cases savingThread x <;> rfl

/-- More may have been received, and other threads may have saved. -/
theorem UpdatePlace.mono {updates updates' : List (Nat × TaskUpdate)} {savers savers' : List Nat}
    {tid : Nat} {p : Program Reply} (h : UpdatePlace ext taskId known updates savers tid p)
    (hupdates : ∀ x ∈ updates, x ∈ updates') (hsavers : tid ∈ savers' → tid ∈ savers) :
    UpdatePlace ext taskId known updates' savers' tid p := by
  cases h with
  | received hmem hnot => exact .received (hupdates _ hmem) fun h => hnot (hsavers h)
  | holding hmem hnot hid hlive hp =>
    exact .holding (hupdates _ hmem) (fun h => hnot (hsavers h)) hid hlive hp
  | quiet hp => exact .quiet hp

/-- A thread that writes no task with its next operation saves none. -/
theorem savingThread_of_keepsTasks {tid : Nat} {c : Choice} {o : Op} {k : o.Res → Program Reply}
    {ℓ : Local} (hth : q.threads tid = some ⟨.op o k, ℓ⟩) (ho : KeepsTasks o) :
    savingThread (q, .op tid c) = none := by
  unfold savingThread
  dsimp only
  split
  · rename_i row k' ℓ' heq
    rw [hth] at heq
    cases heq
    exact ho.elim
  · rfl

/-- What a new thread receives, it receives under its number. -/
theorem number_of_spawn {tid : Nat} {x : Start} {y : Nat × TaskUpdate}
    (h : receivedUpdate taskId (q, .spawn tid x) = some y) : y.1 = tid := by
  cases x with
  | request caller req =>
    obtain ⟨u, -, rfl⟩ := Option.map_eq_some_iff.mp h
    rfl
  | managerStop => cases h
  | fire e => cases h

/-- A new thread has received an update, or will write no task. -/
theorem place_of_spawn {tid : Nat} {x : Start} {th : Thread Op Op.Res Reply Local} {s : State}
    {updates : List (Nat × TaskUpdate)} {savers : List Nat} (hnot : tid ∉ savers)
    (honly : OnlyUpdates taskId (.spawn tid x)) (h : Concurrent.spawn ext x s = some th)
    (hupdates : ∀ y, receivedUpdate taskId (q, .spawn tid x) = some y → y ∈ updates) :
    UpdatePlace ext taskId known updates savers tid th.prog := by
  rcases spawn_cases h with ⟨caller, req, rfl, -, rfl⟩ | ⟨rfl, rfl⟩ | ⟨e, entry, rfl, -, -, rfl⟩
  · cases hreq : req.isTaskRequest with
    | false => exact .quiet (request_keepsTasks hreq caller)
    | true =>
      -- the only requests about tasks are updates of this one
      obtain ⟨u, hu⟩ := honly hreq
      have hmem : (tid, u) ∈ updates := by
        apply hupdates
        simp only [receivedUpdate, hu, Option.map_some]
      rw [eq_request_of_taskUpdate hu]
      exact .received hmem hnot
  · exact .quiet (stopThread_keepsBoth.mono keepsTasks_of_both)
  · exact .quiet ((runThread_keepsBoth entry.id entry.job).mono keepsTasks_of_both)

/-- A new thread. -/
theorem Ledger.spawn {tid : Nat} {x : Start} {th : Thread Op Op.Res Reply Local}
    (h : Ledger ext taskId known row₀ past q) (hnone : q.threads tid = none)
    (honly : OnlyUpdates taskId (.spawn tid x))
    (hspawn : Concurrent.spawn ext x q.shared = some th) :
    Ledger ext taskId known row₀ (past ++ [(q, .spawn tid x)])
      ⟨q.shared, Function.update q.threads tid (some th)⟩ := by
  obtain ⟨done, hdone, hnodup, hmem, hholds⟩ := h.saved
  have hsavers : saversIn (past ++ [(q, .spawn tid x)]) = saversIn past := by
    rw [saversIn_append]
    exact List.append_nil _
  -- no thread of this number has received or saved anything
  have hfresh : ∀ y ∈ updatesIn taskId past, y.1 ≠ tid := by
    intro y hy heq
    apply h.taken y hy
    rw [heq]
    exact hnone
  have hnot : tid ∉ saversIn past := by
    rw [← hdone]
    intro hsaved
    obtain ⟨y, hy, heq⟩ := List.mem_map.mp hsaved
    exact hfresh y (hmem y hy).1 heq
  refine ⟨?_, ?_, ⟨done, ?_, ?_, ?_, hholds⟩, ?_⟩
  · -- the number of the new thread is new
    rw [updatesIn_append]
    cases hreceived : receivedUpdate taskId (q, .spawn tid x) with
    | none => simpa using h.numbers
    | some y =>
      have hnew : y.1 ∉ (updatesIn taskId past).map Prod.fst := by
        rw [number_of_spawn hreceived]
        intro hold
        obtain ⟨z, hz, heq⟩ := List.mem_map.mp hold
        exact hfresh z hz heq
      rw [Option.toList_some, List.map_append, List.map_singleton, ← List.concat_eq_append]
      exact h.numbers.concat hnew
  · -- no thread goes away
    intro y hy
    show Function.update q.threads tid (some th) y.1 ≠ none
    rw [updatesIn_append] at hy
    rcases List.mem_append.mp hy with hold | hnew
    · rw [Function.update_of_ne (hfresh y hold)]
      exact h.taken y hold
    · rw [number_of_spawn (Option.mem_toList.mp hnew), Function.update_self]
      exact Option.some_ne_none _
  · -- nothing has been saved
    rw [hsavers, hdone]
  · rw [hsavers]
    exact hnodup
  · intro y hy
    rw [updatesIn_append]
    exact ⟨List.mem_append_left _ (hmem y hy).1, (hmem y hy).2⟩
  · -- the new thread is at its start, the others are where they were
    intro tid' th' hth'
    rw [hsavers, updatesIn_append]
    rcases update_eq_some hth' with ⟨rfl, heq⟩ | ⟨hne, hold⟩
    · cases heq
      exact place_of_spawn hnot honly hspawn fun y hy =>
        List.mem_append_right _ (Option.mem_toList.mpr hy)
    · exact (h.places tid' th' hold).mono (fun y hy => List.mem_append_left _ hy) id

/-- An operation of a thread, from what it does to the table, to the savers and to its thread. -/
theorem Ledger.op {tid : Nat} {c : Choice} {th : Thread Op Op.Res Reply Local} {s' : State}
    {done : List (Nat × TaskUpdate)} (h : Ledger ext taskId known row₀ past q)
    (hdone : done.map Prod.fst = saversIn (past ++ [(q, .op tid c)]))
    (hnodup : (done.map Prod.fst).Nodup)
    (hmem : ∀ x ∈ done, x ∈ updatesIn taskId past ∧ x.2.Valid ext taskId known)
    (hholds : Holds taskId known (columns (applyAll (done.map Prod.snd) row₀)) s'.db.task)
    (hothers : ∀ other, other ≠ tid → other ∈ done.map Prod.fst → other ∈ saversIn past)
    (hplace : UpdatePlace ext taskId known (updatesIn taskId past) (done.map Prod.fst) tid
      th.prog) :
    Ledger ext taskId known row₀ (past ++ [(q, .op tid c)])
      ⟨s', Function.update q.threads tid (some th)⟩ := by
  have hupdates : updatesIn taskId (past ++ [(q, .op tid c)]) = updatesIn taskId past := by
    rw [updatesIn_append]
    exact List.append_nil _
  refine ⟨?_, ?_, ⟨done, hdone, ?_, ?_, hholds⟩, ?_⟩
  · rw [hupdates]
    exact h.numbers
  · -- no thread goes away
    rw [hupdates]
    intro y hy
    show Function.update q.threads tid (some th) y.1 ≠ none
    rcases eq_or_ne y.1 tid with heq | hne
    · rw [heq, Function.update_self]
      exact Option.some_ne_none _
    · rw [Function.update_of_ne hne]
      exact h.taken y hy
  · rw [← hdone]
    exact hnodup
  · rw [hupdates]
    exact hmem
  · -- only this thread has moved
    intro tid' th' hth'
    rw [hupdates, ← hdone]
    rcases update_eq_some hth' with ⟨rfl, heq⟩ | ⟨hne, hold⟩
    · cases heq
      exact hplace
    · exact (h.places tid' th' hold).mono (fun _ hy => hy) (hothers tid' hne)

/-- An operation that writes no task. -/
theorem Ledger.keep {tid : Nat} {c : Choice} {o : Op} {k : o.Res → Program Reply} {ℓ ℓ' : Local}
    {r : o.Res} {s' : State} (h : Ledger ext taskId known row₀ past q)
    (hth : q.threads tid = some ⟨.op o k, ℓ⟩) (ho : KeepsTasks o)
    (hexec : exec ext o c q.shared = some (r, s'))
    (hplace : UpdatePlace ext taskId known (updatesIn taskId past) (saversIn past) tid (k r)) :
    Ledger ext taskId known row₀ (past ++ [(q, .op tid c)])
      ⟨s', Function.update q.threads tid (some ⟨k r, ℓ'⟩)⟩ := by
  obtain ⟨done, hdone, hnodup, hmem, hholds⟩ := h.saved
  have hsavers : saversIn (past ++ [(q, .op tid c)]) = saversIn past := by
    rw [saversIn_append, savingThread_of_keepsTasks hth ho]
    exact List.append_nil _
  rw [← hdone] at hnodup hplace
  refine h.op (hdone.trans hsavers.symm) hnodup hmem (holds_of_keepsTasks ho hexec hholds) ?_ hplace
  exact fun _ _ hother => hdone ▸ hother

/-- The save of an update. -/
theorem Ledger.save {tid : Nat} {c : Choice} {u : TaskUpdate} {row : Task} {ℓ ℓ' : Local}
    {k : Except DbError Unit → Program Reply} {r : Except DbError Unit} {s' : State}
    (h : Ledger ext taskId known row₀ past q)
    (hth : q.threads tid = some ⟨.op (.db (.saveTask (u.apply row))) k, ℓ⟩)
    (hexec : exec ext (.db (.saveTask (u.apply row))) c q.shared = some (r, s'))
    (hu : (tid, u) ∈ updatesIn taskId past) (hnot : tid ∉ saversIn past) (hid : row.id = taskId)
    (hlive : live row = true) (hvalid : u.Valid ext taskId known) (hk : (k r).Uses KeepsTasks)
    (hcurrent : StillCurrent taskId past q (.op tid c)) :
    Ledger ext taskId known row₀ (past ++ [(q, .op tid c)])
      ⟨s', Function.update q.threads tid (some ⟨k r, ℓ'⟩)⟩ := by
  obtain ⟨done, hdone, hnodup, hmem, hholds⟩ := h.saved
  rw [← hdone] at hnodup hnot
  cases hfail : c.fail with
  | true =>
    -- a failed save writes nothing, and does not count
    have hsavers : saversIn (past ++ [(q, .op tid c)]) = saversIn past := by
      rw [saversIn_append]
      simp only [savingThread, hth, hfail, if_true, Option.toList_none, List.append_nil]
    refine h.op (hdone.trans hsavers.symm) hnodup hmem (holds_of_failedSave hexec hfail hholds) ?_
      (.quiet hk)
    exact fun _ _ hother => hdone ▸ hother
  | false =>
    have hsavers : saversIn (past ++ [(q, .op tid c)]) = saversIn past ++ [tid] := by
      rw [saversIn_append]
      simp only [savingThread, hth, hfail, Bool.false_eq_true, if_false, Option.toList_some]
    -- what is saved is what the update makes of the stored columns
    obtain ⟨stored, hstored, hcols⟩ := hholds.row
    have hagree : columns (u.apply row) = columns (u.apply stored) := by
      apply columns_apply_of_agree
      · -- a switch saves the row that it has read
        intro hswitch
        exact hcurrent u (u.apply row) stored hu hswitch ⟨k, ℓ, hth⟩ hfail hstored
      · -- an edit overwrites all that it does not read
        rintro err rfl
        exact hvalid
    have happly : columns (u.apply row) =
        columns (applyAll ((done ++ [(tid, u)]).map Prod.snd) row₀) := by
      rw [hagree, columns_apply_congr u hcols]
      simp only [applyAll, List.map_append, List.map_cons, List.map_nil, List.foldl_append,
        List.foldl_cons, List.foldl_nil]
    have hstamps := stamps_apply u row
    have hsaved := (holds_of_save hexec hfail (by rw [hstamps, hid])
      (by simpa only [live, stamps, hstamps] using hlive) hholds).2
    rw [happly] at hsaved
    refine h.op ?_ ?_ ?_ hsaved ?_ (.quiet hk)
    · rw [hsavers, List.map_append, hdone]
      rfl
    · -- the thread has not saved before
      rw [List.map_append, List.map_singleton, ← List.concat_eq_append]
      exact hnodup.concat hnot
    · intro x hx
      rcases List.mem_append.mp hx with hx | hx
      · exact hmem x hx
      · rw [List.mem_singleton.mp hx]
        exact ⟨hu, hvalid⟩
    · intro other hne hother
      rw [List.map_append] at hother
      rcases List.mem_append.mp hother with hother | hother
      · exact hdone ▸ hother
      · exact absurd (List.mem_singleton.mp hother) hne

/-- **Every step keeps the ledger.** -/
theorem Ledger.step {l : Label Choice Start} {q' : ServerPool}
    (h : Ledger ext taskId known row₀ past q) (honly : OnlyUpdates taskId l)
    (hcurrent : StillCurrent taskId past q l) (hstep : (server ext).step l q = some q') :
    Ledger ext taskId known row₀ (past ++ [(q, l)]) q' := by
  rcases System.step_cases hstep with ⟨tid, x, th, rfl, hnone, hspawn, rfl⟩ |
    ⟨tid, c, o, k, ℓ, r, s', rfl, hth, hexec, rfl⟩
  · exact h.spawn hnone honly hspawn
  · replace hexec : exec ext o c q.shared = some (r, s') := hexec
    have hplace := h.places tid _ hth
    generalize hp : (Prog.op o k : Program Reply) = p at hplace
    cases hplace with
    | @received u caller hu hnot =>
      -- the request is refused at once, or reads the row
      rcases request_holding ext taskId known u caller with
        ⟨reply, hdone⟩ | ⟨k', heq, herror, hok⟩
      · cases hp.trans hdone
      · cases hp.trans heq
        have hkeeps : KeepsTasks (.db (.findTask taskId)) := trivial
        refine h.keep hth hkeeps hexec ?_
        cases r with
        | error err => exact .quiet (herror err)
        | ok row =>
          obtain ⟨-, hid, hlive⟩ := Table.mem_of_byId (byId_of_findTask hexec)
          exact .holding hu hnot hid hlive (hok row hid)
    | @holding u row _ hu hnot hid hlive hp' =>
      -- it saves what it makes of its row, or looks up something else
      subst hp
      rcases hp' with ⟨⟨rfl, hvalid⟩, hk⟩ | ⟨ho, hk⟩
      · exact h.save hth hexec hu hnot hid hlive hvalid (hk r) hcurrent
      · refine h.keep hth ho hexec (.holding hu hnot hid hlive (hk r ?_))
        obtain ⟨done, -, -, -, hholds⟩ := h.saved
        unfold Found
        split
        · rename_i id found
          rw [← hholds.known, byId_of_findTask hexec]
          rfl
        · trivial
    | quiet hquiet =>
      subst hp
      exact h.keep hth hquiet.1 hexec (.quiet (hquiet.2 r))

end Ledger

/-! ## The serial order -/

section Serial

variable {ext : Externals} {taskId : Int} {known : Int → Bool} {row₀ : Task} {s : State}

theorem servesEach_append {front back : List (TaskUpdate × Bool)} {s₁ s₂ : State}
    (hfront : ServesEach ext taskId front s s₁) (hback : ServesEach ext taskId back s₁ s₂) :
    ServesEach ext taskId (front ++ back) s s₂ := by
  induction front generalizing s with
  | nil =>
    cases hfront
    exact hback
  | cons x rest ih =>
    obtain ⟨reply, s', hserves, hrest⟩ := hfront
    exact ⟨reply, s', hserves, ih hrest⟩

/-- Valid updates can be served one after the other, and set their columns. -/
theorem exists_servesEach (ext : Externals) {updates : List TaskUpdate}
    (hvalid : ∀ u ∈ updates, u.Valid ext taskId known) (hcrashed : s.os.crashed = false) {row : Task}
    (hs : Holds taskId known (columns row) s.db.task) :
    ∃ s', ServesEach ext taskId (updates.map fun u => (u, true)) s s' ∧ s'.os.crashed = false ∧
      Holds taskId known (columns (applyAll updates row)) s'.db.task := by
  induction updates generalizing s row with
  | nil => exact ⟨s, rfl, hcrashed, hs⟩
  | cons u rest ih =>
    obtain ⟨hu, hrest⟩ := List.forall_mem_cons.mp hvalid
    obtain ⟨stored, reply, s₁, -, hcols, hserves, hcrashed₁, hs₁⟩ := exists_serves hu hcrashed hs
    rw [columns_apply_congr u hcols] at hs₁
    obtain ⟨s', hserved, hcrashed', hs'⟩ := ih hrest hcrashed₁ hs₁
    exact ⟨s', ⟨reply, s₁, hserves, hserved⟩, hcrashed', hs'⟩

/-- Updates that fail can be served too, and change nothing. -/
theorem exists_servesEach_failing (ext : Externals) {cols : Task} (updates : List TaskUpdate)
    (hcrashed : s.os.crashed = false) (hs : Holds taskId known cols s.db.task) :
    ∃ s', ServesEach ext taskId (updates.map fun u => (u, false)) s s' ∧
      Holds taskId known cols s'.db.task := by
  induction updates generalizing s with
  | nil => exact ⟨s, rfl, hs⟩
  | cons u rest ih =>
    obtain ⟨reply, s₁, hserves, hcrashed₁, hs₁⟩ := exists_serves_failing ext u hcrashed hs
    obtain ⟨s', hserved, hs'⟩ := ih hcrashed₁ hs₁
    exact ⟨s', ⟨reply, s₁, hserves, hserved⟩, hs'⟩

end Serial

/-- The updates that have saved, and after them the others, are the updates received. -/
theorem perm_saved_append {α : Type} {done updates : List (Nat × α)}
    (hdone : (done.map Prod.fst).Nodup) (hupdates : (updates.map Prod.fst).Nodup)
    (hmem : ∀ x ∈ done, x ∈ updates) :
    (done ++ updates.filter fun x => decide (x.1 ∉ done.map Prod.fst)).Perm updates := by
  rw [List.perm_ext_iff_of_nodup]
  · intro x
    simp only [List.mem_append, List.mem_filter, decide_eq_true_eq]
    constructor
    · rintro (hx | ⟨hx, -⟩)
      · exact hmem x hx
      · exact hx
    · intro hx
      by_cases hsaved : x.1 ∈ done.map Prod.fst
      · -- no two updates have one number
        obtain ⟨y, hy, heq⟩ := List.mem_map.mp hsaved
        exact .inl (List.inj_on_of_nodup_map hupdates (hmem y hy) hx heq ▸ hy)
      · exact .inr ⟨hx, hsaved⟩
  · rw [List.nodup_append]
    refine ⟨hdone.of_map _, (hupdates.of_map _).filter _, ?_⟩
    rintro x hx _ hy rfl
    simp only [List.mem_filter, decide_eq_true_eq] at hy
    exact hy.2 (List.mem_map_of_mem hx)
  · exact hupdates.of_map _

/-- Nothing happens once the server has crashed. -/
theorem step_eq_none_of_crashed {ext : Externals} {p : ServerPool} {l : Label Choice Start}
    (hcrashed : p.shared.os.crashed = true)
    (hended : ∀ tid th, p.threads tid = some th → th.prog.isDone = true) :
    (server ext).step l p = none := by
  cases hstep : (server ext).step l p with
  | none => rfl
  | some p' =>
    rcases System.step_cases hstep with ⟨tid, x, th, -, -, hspawn, -⟩ |
      ⟨tid, c, o, k, ℓ, r, s', -, hth, -, -⟩
    · have hnone : spawn ext x p.shared = none := if_pos hcrashed
      exact absurd (hnone.symm.trans hspawn) nofun
    · exact absurd (hended tid _ hth) nofun

/-- Threads that have ended write nothing. -/
theorem ledger_start {ext : Externals} {taskId : Int} {known : Int → Bool} {row₀ : Task}
    {p₀ : ServerPool} (hended : ∀ tid th, p₀.threads tid = some th → th.prog.isDone = true)
    (hs : Holds taskId known (columns row₀) p₀.shared.db.task) :
    Ledger ext taskId known row₀ [] p₀ where
  numbers := List.nodup_nil
  taken := nofun
  saved := ⟨[], rfl, List.nodup_nil, nofun, hs⟩
  places := by
    intro tid th hth
    have hdone := hended tid th hth
    cases hprog : th.prog with
    | pure reply => exact .quiet trivial
    | op o k =>
      rw [hprog] at hdone
      cases hdone

/-- The serial order that a ledger stands for: first the updates that have saved, in the order of
    their saves, then the others. -/
theorem Ledger.serializable {ext : Externals} {taskId : Int} {known : Int → Bool} {row₀ : Task}
    {past : Steps} {p₀ p : ServerPool} (h : Ledger ext taskId known row₀ past p)
    (hs : Holds taskId known (columns row₀) p₀.shared.db.task)
    (hcrashed : p₀.shared.os.crashed = false) : Serializable ext taskId p₀ p past := by
  obtain ⟨done, hdone, hnodup, hmem, hholds⟩ := h.saved
  obtain ⟨row', hrow', hcols'⟩ := hholds.row
  have hvalid : ∀ u ∈ done.map Prod.snd, u.Valid ext taskId known := by
    intro u hu
    obtain ⟨x, hx, heq⟩ := List.mem_map.mp hu
    rw [← heq]
    exact (hmem x hx).2
  obtain ⟨s₁, hserved₁, hcrashed₁, hs₁⟩ := exists_servesEach ext hvalid hcrashed hs
  obtain ⟨s₂, hserved₂, hs₂⟩ := exists_servesEach_failing ext
    (((updatesIn taskId past).filter fun x => decide (x.1 ∉ done.map Prod.fst)).map Prod.snd)
    hcrashed₁ hs₁
  obtain ⟨row, hrow, hcols⟩ := hs₂.row
  have hperm := perm_saved_append (hdone ▸ hnodup) h.numbers fun x hx => (hmem x hx).1
  refine ⟨_, hperm, s₂, row, row', ?_, hrow, hrow', hcols.trans hcols'.symm⟩
  have hflags := servesEach_append hserved₁ hserved₂
  rw [← hdone, List.map_append]
  convert hflags using 2
  · -- the flag of an update that has saved is set
    rw [List.map_map]
    apply List.map_congr_left
    intro x hx
    simp [List.mem_map_of_mem hx]
  · -- the flag of one that has not is not
    rw [List.map_map]
    apply List.map_congr_left
    intro x hx
    have hnot := (List.mem_filter.mp hx).2
    simp only [decide_eq_true_eq] at hnot
    simp [hnot]

/-- **No update of a task is lost** in a run whose saves of `StopTask` and `StartTask` find the
    columns, but for the switch, as they were read. -/
theorem no_lost_update (ext : Externals) : NoLostUpdate ext StillCurrent := by
  rintro taskId p₀ ls p hended ⟨row₀, hrow₀⟩ honly hrun hcurrent -
  have hs : Holds taskId (fun j => (p₀.shared.db.task.byId j).isSome) (columns row₀)
      p₀.shared.db.task := ⟨⟨row₀, hrow₀, rfl⟩, fun _ => rfl⟩
  cases hcrashed : p₀.shared.os.crashed with
  | true =>
    -- the run is empty, and so is the serial order
    cases ls with
    | nil =>
      cases hrun
      exact ⟨[], .nil, p₀.shared, row₀, row₀, rfl, hrow₀, hrow₀, rfl⟩
    | cons l ls =>
      obtain ⟨q, hq, -⟩ := Option.bind_eq_some_iff.mp hrun
      rw [step_eq_none_of_crashed hcrashed hended] at hq
      cases hq
  | false =>
    have hledger := System.after_run
      (P := fun past q => Ledger ext taskId (fun j => (p₀.shared.db.task.byId j).isSome) row₀ past q)
      (K := fun past q l => OnlyUpdates taskId l ∧ StillCurrent taskId past q l)
      (fun past q l q' h hK hstep => h.step hK.1 hK.2 hstep) (ledger_start hended hs) hrun (by
        intro before q l after heq
        exact ⟨honly (q, l) (heq ▸ by simp), hcurrent before q l after heq⟩)
    exact hledger.serializable hs hcrashed

/-! ## An edit that is taken back -/

/-- A payload that renames a task. -/
def renamed (name : String) : TaskMutationPayload :=
  { name := name, command := "true", execType := "cmd", isDisable := true }

def editRequest (name : String) : Start := .request ⟨0, ""⟩ (.editTask 1 (.ok (renamed name)))

/-- The row of the one task. -/
def stoppedTask : Task := Table.empty.inserted { oneTask with isDisable := true } 0

/-- An edit reads the row, a stop reads and saves it, and the edit saves it. -/
def editAroundStop : List (Label Choice Start) :=
  [.spawn 0 (editRequest "renamed"), .op 0 {}, .spawn 1 stopRequest, .op 1 {}, .op 1 {}, .op 1 {},
    .op 1 { fail := true }, .op 0 {}, .op 0 {}, .op 0 { fail := true }]

/-- The stop finds the row as it has read it, and the edit comes after it in the serial order. -/
theorem no_lost_update_editAroundStop : ∃ p,
    (server plainExternals).run editAroundStop stoppedTaskPool = some p ∧
    Serializable plainExternals 1 stoppedTaskPool p
      ((server plainExternals).steps editAroundStop stoppedTaskPool) := by
  have hrun : ∃ p, (server plainExternals).run editAroundStop stoppedTaskPool = some p ∧
      (∃ th, p.threads 0 = some th ∧ th.prog.isDone = true) ∧
      ∃ th, p.threads 1 = some th ∧ th.prog.isDone = true :=
    ⟨_, rfl, ⟨_, rfl, rfl⟩, ⟨_, rfl, rfl⟩⟩
  have hupdates : updatesIn 1 ((server plainExternals).steps editAroundStop stoppedTaskPool) =
      [(0, .edit (.ok (renamed "renamed"))), (1, .stop)] := rfl
  have honly : ∀ l ∈ editAroundStop, OnlyUpdates 1 l := by
    intro l hl
    cases l with
    | spawn tid x =>
      simp only [editAroundStop, List.mem_cons, Label.spawn.injEq, reduceCtorEq, or_false, false_or,
        List.not_mem_nil] at hl
      rcases hl with ⟨-, rfl⟩ | ⟨-, rfl⟩ <;> exact fun _ => ⟨_, rfl⟩
    | op tid c => trivial
  have hcurrent : ∀ x ∈ (server plainExternals).steps editAroundStop stoppedTaskPool,
      ∀ c row stored, x.2 = .op 1 c → AtOp x.1 1 (.db (.saveTask row)) →
        x.1.shared.db.task.byId 1 = some stored → AgreeButSwitch row stored := by
    have hsteps : (server plainExternals).steps editAroundStop stoppedTaskPool =
      [(_, _), (_, _), (_, _), (_, _), (_, _), (_, _), (_, _), (_, _), (_, _), (_, _)] := rfl
    simp only [hsteps, List.forall_mem_cons]
    refine ⟨?_, ?_, ?_, ?_, ?_, ?_, ?_, ?_, ?_, ?_, by simp⟩
    -- one of the steps is the save of the stop
    all_goals rintro c row stored ⟨⟩ ⟨k, ℓ, hat⟩ hrow <;> cases hat <;> cases hrow <;> rfl
  obtain ⟨p, hp, hedit, hstop⟩ := hrun
  refine ⟨p, hp, ?_⟩
  have hempty : ∀ tid, stoppedTaskPool.threads tid = none := fun _ => rfl
  apply no_lost_update plainExternals 1 stoppedTaskPool editAroundStop p
    (fun tid _ h => absurd h (by simp [hempty tid])) ⟨stoppedTask, rfl⟩
    (fun x hx => honly _ (System.label_mem_of_mem_steps hx)) hp
  · intro before q l after heq
    cases l with
    | spawn tid x => trivial
    | op tid c =>
      intro u row stored hu hswitch hat _ hstored
      have hmem : (tid, u) ∈ updatesIn 1
          ((server plainExternals).steps editAroundStop stoppedTaskPool) := by
        rw [heq, updatesIn, List.filterMap_append]
        exact List.mem_append_left _ hu
      simp only [hupdates, List.mem_cons, Prod.mk.injEq, List.not_mem_nil, or_false] at hmem
      rcases hmem with ⟨-, rfl⟩ | ⟨rfl, rfl⟩
      · cases hswitch
      · exact hcurrent (q, .op 1 c) (by simp [heq]) c row stored rfl hat hstored
  · intro x hx
    simp only [hupdates, List.mem_cons, List.not_mem_nil, or_false] at hx
    rcases hx with rfl | rfl
    · exact hedit
    · exact hstop

/-- What valid updates that go well leave, served one after the other. -/
theorem servesEach_holds {ext : Externals} {taskId : Int} {known : Int → Bool}
    {updates : List TaskUpdate} {s s' : State} {row : Task}
    (hvalid : ∀ u ∈ updates, u.Valid ext taskId known)
    (hs : Holds taskId known (columns row) s.db.task)
    (h : ServesEach ext taskId (updates.map fun u => (u, true)) s s') :
    Holds taskId known (columns (applyAll updates row)) s'.db.task := by
  induction updates generalizing s row with
  | nil =>
    cases h
    exact hs
  | cons u rest ih =>
    obtain ⟨hu, hrest⟩ := List.forall_mem_cons.mp hvalid
    obtain ⟨reply, s₁, ⟨caller, hrun⟩, hserved⟩ := h
    obtain ⟨stored, hstored, hcols⟩ := hs.row
    have hs₁ := hrun.post (request_ensures hu caller hstored hs)
    rw [columns_apply_congr u hcols] at hs₁
    exact ih hrest hs₁ hserved

/-- Stops leave the name as the edit has set it. -/
theorem applyAll_renamed {updates : List TaskUpdate} {row : Task}
    (hall : ∀ u ∈ updates, u = .stop ∨ u = .edit (.ok (renamed "renamed")))
    (hsome : .edit (.ok (renamed "renamed")) ∈ updates ∨ row.name = "renamed") :
    (applyAll updates row).name = "renamed" := by
  induction updates generalizing row with
  | nil =>
    rcases hsome with hnone | hname
    · cases hnone
    · exact hname
  | cons u rest ih =>
    obtain ⟨hu, hrest⟩ := List.forall_mem_cons.mp hall
    apply ih hrest
    rcases hu with rfl | rfl
    · rcases hsome with hmem | hname
      · rcases List.mem_cons.mp hmem with heq | hmem
        · cases heq
        · exact .inl hmem
      · exact .inr hname
    · exact .inr rfl

/-- A stop reads the row, an edit reads and saves it, and the stop saves it. -/
def stopAroundEdit : List (Label Choice Start) :=
  [.spawn 0 stopRequest, .op 0 {}, .spawn 1 (editRequest "renamed"), .op 1 {}, .op 1 {}, .op 1 {},
    .op 1 { fail := true }, .op 0 {}, .op 0 {}, .op 0 { fail := true }]

/-- The row has its old name again, which no serial order leaves. -/
theorem stopTask_loses_edit : ¬ NoLostUpdate plainExternals fun _ _ _ _ => True := by
  intro hserializable
  have hrun : ∃ p, (server plainExternals).run stopAroundEdit stoppedTaskPool = some p ∧
      (∃ th, p.threads 0 = some th ∧ th.prog.isDone = true) ∧
      (∃ th, p.threads 1 = some th ∧ th.prog.isDone = true) ∧
      ∃ row, p.shared.db.task.byId 1 = some row ∧ row.name = "" :=
    ⟨_, rfl, ⟨_, rfl, rfl⟩, ⟨_, rfl, rfl⟩, ⟨_, rfl, rfl⟩⟩
  have hupdates : updatesIn 1 ((server plainExternals).steps stopAroundEdit stoppedTaskPool) =
      [(0, .stop), (1, .edit (.ok (renamed "renamed")))] := rfl
  have hsavers : saversIn ((server plainExternals).steps stopAroundEdit stoppedTaskPool) = [1, 0] := rfl
  have honly : ∀ l ∈ stopAroundEdit, OnlyUpdates 1 l := by
    intro l hl
    cases l with
    | spawn tid x =>
      simp only [stopAroundEdit, List.mem_cons, Label.spawn.injEq, reduceCtorEq, or_false, false_or,
        List.not_mem_nil] at hl
      rcases hl with ⟨-, rfl⟩ | ⟨-, rfl⟩ <;> exact fun _ => ⟨_, rfl⟩
    | op tid c => trivial
  obtain ⟨p, hp, hfirst, hsecond, row', hrow', hname⟩ := hrun
  obtain ⟨order, hperm, s, row, stored, hserved, hrow, hstored, hcols⟩ := hserializable 1
    stoppedTaskPool stopAroundEdit p (fun _ _ h => nomatch h) ⟨stoppedTask, rfl⟩
    (fun x hx => honly _ (System.label_mem_of_mem_steps hx)) hp (fun _ _ _ _ _ => trivial) (by
      intro x hx
      simp only [hupdates, List.mem_cons, List.not_mem_nil, or_false] at hx
      rcases hx with rfl | rfl
      · exact hfirst
      · exact hsecond)
  rw [hupdates] at hperm
  rw [hsavers] at hserved
  have hmem : ∀ x ∈ order, x = (0, .stop) ∨ x = (1, .edit (.ok (renamed "renamed"))) := by
    intro x hx
    simpa using hperm.mem_iff.mp hx
  have hflags : order.map (fun x => (x.2, decide (x.1 ∈ [1, 0]))) =
      (order.map Prod.snd).map fun u => (u, true) := by
    rw [List.map_map]
    refine List.map_congr_left fun x hx => ?_
    rcases hmem x hx with rfl | rfl <;> rfl
  rw [hflags] at hserved
  -- both updates are valid, so the serial order leaves what they make of the row
  have hstart : Holds 1 (fun j => (stoppedTaskPool.shared.db.task.byId j).isSome)
      (columns stoppedTask) stoppedTaskPool.shared.db.task := ⟨⟨stoppedTask, rfl, rfl⟩, fun _ => rfl⟩
  have hvalid : ∀ u ∈ order.map Prod.snd,
      u.Valid plainExternals 1 fun j => (stoppedTaskPool.shared.db.task.byId j).isSome := by
    intro u hu
    obtain ⟨x, hx, rfl⟩ := List.mem_map.mp hu
    rcases hmem x hx with rfl | rfl
    · trivial
    · exact ⟨by decide, by decide, nofun⟩
  obtain ⟨row'', hrow'', hcols''⟩ := (servesEach_holds hvalid hstart hserved).row
  have hrenamed : (applyAll (order.map Prod.snd) stoppedTask).name = "renamed" := by
    apply applyAll_renamed
    · intro u hu
      obtain ⟨x, hx, rfl⟩ := List.mem_map.mp hu
      rcases hmem x hx with rfl | rfl
      · exact .inl rfl
      · exact .inr rfl
    · have hedit : (1, .edit (.ok (renamed "renamed"))) ∈ order := hperm.mem_iff.mpr (by simp)
      exact .inl (List.mem_map_of_mem hedit)
  rw [hrow] at hrow''
  cases hrow''
  rw [hrow'] at hstored
  cases hstored
  have hold : (columns row').name = "renamed" := by
    rw [← hcols, hcols'']
    exact hrenamed
  exact absurd (hname.symm.trans hold) (by decide)

end Gonitor.Concurrent
