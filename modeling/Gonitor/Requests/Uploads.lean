import Gonitor.Framework.ProgramTrace
import Gonitor.Requests.Guarantees

/-!
# The Uploads of the Agents

An agent that has been offline uploads its events and the results of its runs, and drops them once
the server has acknowledged them.  The two handlers insert a row for each and do not look at the
errors of their inserts, so they acknowledge what they have not stored.

The failures of the database are those of a trace: which of the inserts were answered with an error.

## Main Results

- `createEvents_stores`: the loop stores the events whose insert has not failed.
- `acknowledged_iff`: an acknowledged upload is stored exactly if none of its inserts has failed.
- `lost_event_acknowledged`: an event that is lost although it has been acknowledged.
-/

namespace Gonitor.Requests

open Gonitor.Model Gonitor.Server Gonitor.Controller AtomicProgram SoftDelete

/-! ## Failed inserts -/

/-- The insert of an event or of a result that is answered with an error. -/
def isFailedInsert : (Σ o : Op, Op.Res o) → Bool
  | ⟨.db (.createNodeEvent _), .error _⟩ => true
  | ⟨.db (.createReportLog _), .error _⟩ => true
  | _ => false

/-- How many inserts have failed. -/
def failedInserts (tr : Trace Op Op.Res) : Nat := tr.countP isFailedInsert

@[simp] theorem failedInserts_append (tr tr' : Trace Op Op.Res) :
    failedInserts (tr ++ tr') = failedInserts tr + failedInserts tr' := List.countP_append ..

@[simp] theorem failedInserts_cons (x : Σ o : Op, Op.Res o) (tr : Trace Op Op.Res) :
    failedInserts (x :: tr) = failedInserts tr + if isFailedInsert x then 1 else 0 :=
  List.countP_cons ..

/-! ## What is acknowledged -/

/-- The requests that upload something. -/
inductive Uploads : Request → Prop
  | events (secretKey : String) (body : Except String (List EventItem)) :
      Uploads (.agentReportEvents secretKey body)
  | result (secretKey : String) (body : Except String TaskResult) :
      Uploads (.agentReportTaskResult secretKey body)

/-- The row stores the event. -/
structure StoresEvent (evt : EventItem) (row : NodeEvent) : Prop where
  eventType : row.eventType = evt.eventType
  message : row.message = evt.message
  eventTime : ∀ instant, evt.eventTime = some instant → row.eventTime = instant

/-- The row stores the result. -/
structure StoresResult (result : TaskResult) (row : TaskLog) : Prop where
  taskId : row.taskId = result.taskID
  execResult : row.execResult = result.execResult
  runningTime : row.runningTime = result.runningTime

/-- What the answer acknowledges is in the database: as many new events as it counts, or the new
    result. -/
def Acknowledged (old new : Database) (resp : Response) : Request → Prop
  | .agentReportEvents _ (.ok events) => ∃ stored rows, stored.Sublist events ∧
      new.nodeEvent.rows = old.nodeEvent.rows ++ rows ∧
      List.Forall₂ StoresEvent stored rows ∧ resp.data = .synced stored.length
  | .agentReportTaskResult _ (.ok result) => ∃ row,
      new.taskLog.rows = old.taskLog.rows ++ [row] ∧ StoresResult result row
  | _ => True

/-! ## The inserts -/

section Inserts

variable {ext : Externals} {s s' : State} {tr : Trace Op Op.Res}

/-- An insert that fails leaves the table as it is, one that does not adds its row. -/
theorem createNodeEvent_rows {row : NodeEvent} {r : Except DbError NodeEvent}
    (h : execStep ext AnyStep (.db (.createNodeEvent row)) s r s') :
    (∃ err, r = .error err ∧ s'.db = s.db) ∨ ∃ row' now, r = .ok row' ∧
      s'.db.nodeEvent.rows = s.db.nodeEvent.rows ++ [s.db.nodeEvent.inserted row now] := by
  obtain ⟨c, -, hexec⟩ := h
  obtain ⟨-, rfl, rfl⟩ := exec_db hexec
  simp only [DbOp.exec, statement]
  split
  · exact .inl ⟨_, rfl, rfl⟩
  · exact .inr ⟨_, _, rfl, rfl⟩

theorem createReportLog_rows {row : TaskLog} {r : Except DbError TaskLog}
    (h : execStep ext AnyStep (.db (.createReportLog row)) s r s') :
    (∃ err, r = .error err ∧ s'.db = s.db) ∨ ∃ row' now, r = .ok row' ∧
      s'.db.taskLog.rows = s.db.taskLog.rows ++ [s.db.taskLog.inserted row now] := by
  obtain ⟨c, -, hexec⟩ := h
  obtain ⟨-, rfl, rfl⟩ := exec_db hexec
  simp only [DbOp.exec, statement]
  split
  · exact .inl ⟨_, rfl, rfl⟩
  · exact .inr ⟨_, _, rfl, rfl⟩

/-- A read leaves the tables as they are. -/
theorem db_of_read {o : DbOp} {r : Op.Res (.db o)} (hread : ∀ c now d, (o.exec c now d).2 = d)
    (h : execStep ext AnyStep (.db o) s r s') : s'.db = s.db := by
  obtain ⟨c, -, hexec⟩ := h
  obtain ⟨-, -, rfl⟩ := exec_db hexec
  exact hread ..

theorem db_of_now {r : Time} (h : execStep ext AnyStep (.world .now) s r s') : s'.db = s.db := by
  obtain ⟨c, -, hexec⟩ := h
  obtain ⟨-, -, rfl⟩ := exec_world hexec
  rfl

/-- Finding out the time of an event. -/
theorem time_ends {evt : EventItem} {instant : Time} (h : evt.time.Ends tr instant) :
    failedInserts tr = 0 ∧ (∀ t, evt.eventTime = some t → instant = t) ∧
      ∀ s s', Prog.Performed (execStep ext AnyStep) tr s s' → s'.db = s.db := by
  unfold EventItem.time at h
  cases hdate : evt.eventTime with
  | some t =>
    rw [hdate] at h
    obtain ⟨rfl, rfl⟩ := Prog.Ends.of_pure h
    refine ⟨rfl, fun t' ht' => Option.some.inj ht', fun s s' hperformed => ?_⟩
    cases hperformed
    rfl
  | none =>
    rw [hdate] at h
    obtain ⟨r, rest, rfl, hrest⟩ := Prog.Ends.of_op h
    obtain ⟨rfl, rfl⟩ := Prog.Ends.of_pure hrest
    refine ⟨rfl, by simp, fun s s' hperformed => ?_⟩
    obtain ⟨s₁, hstep, hnil⟩ := hperformed.of_cons
    cases hnil
    exact db_of_now hstep

/-- **The loop** stores the events whose insert has not failed, in their order. -/
theorem createEvents_stores {nodeID : Int} {events : List EventItem}
    (h : (createEvents nodeID events).Ends tr ())
    (hperformed : Prog.Performed (execStep ext AnyStep) tr s s') :
    ∃ stored rows, stored.Sublist events ∧
      s'.db.nodeEvent.rows = s.db.nodeEvent.rows ++ rows ∧
      List.Forall₂ StoresEvent stored rows ∧
      stored.length + failedInserts tr = events.length := by
  -- each round takes its own part of the trace, and the state moves on with it
  induction events generalizing tr s with
  | nil =>
    obtain ⟨rfl, -⟩ := Prog.Ends.of_pure h
    cases hperformed
    exact ⟨[], [], .slnil, by simp, .nil, rfl⟩
  | cons evt events ih =>
    obtain ⟨instant, tr₁, rest, rfl, htime, hrest⟩ := Prog.Ends.bind h
    obtain ⟨r, tr₂, rfl, hloop⟩ := Prog.Ends.of_call_bind hrest
    obtain ⟨s₁, hdated, hinserted⟩ := hperformed.of_append
    obtain ⟨s₂, hstep, hothers⟩ := hinserted.of_cons
    obtain ⟨hnone, hdate, hsame⟩ := time_ends htime
    obtain ⟨stored, rows, hsub, hrows, hall, hcount⟩ := ih hloop hothers
    have hdb := hsame s s₁ hdated
    rcases createNodeEvent_rows hstep with ⟨err, rfl, hkept⟩ | ⟨row', now, rfl, hadded⟩
    · -- the event is lost, and the loop goes on
      refine ⟨stored, rows, hsub.cons _, ?_, hall, ?_⟩
      · rw [hrows, hkept, hdb]
      · simp [hnone, isFailedInsert, ← hcount, Nat.add_assoc]
    · generalize hrow : s₁.db.nodeEvent.inserted _ now = row at hadded
      have hstores : StoresEvent evt row := by
        subst hrow
        exact ⟨rfl, rfl, hdate⟩
      refine ⟨evt :: stored, row :: rows, hsub.cons_cons _, ?_, .cons hstores hall, ?_⟩
      · rw [hrows, hadded, hdb, List.append_assoc, List.singleton_append]
      · simp [hnone, isFailedInsert, ← hcount, Nat.add_right_comm]

/-! ## The handlers -/

/-- A request that is refused does not succeed. -/
theorem not_success_of_refusal {refusal resp : Response} (hrefusal : refusal.isSuccess = false)
    (h : (pure (.response refusal) : Program Reply).Ends tr (.response resp)) :
    ¬ resp.isSuccess = true := by
  obtain ⟨-, heq⟩ := Prog.Ends.of_pure h
  cases heq
  rw [hrefusal]
  exact Bool.false_ne_true

/-- A request that succeeds has found its node. -/
theorem withNode_ends {secretKey : String} {answer : Node → Program Reply} {resp : Response}
    (h : (withNode secretKey answer).Ends tr (.response resp)) (hsuccess : resp.isSuccess = true) :
    ∃ node rest, tr = ⟨.db (.findNodeWithKey secretKey), .ok node⟩ :: rest ∧
      (answer node).Ends rest (.response resp) := by
  unfold withNode at h
  split at h
  · -- "missing secret key"
    exact absurd hsuccess (not_success_of_refusal rfl h)
  · obtain ⟨r, rest, rfl, hrest⟩ := Prog.Ends.of_call_bind h
    cases r with
    | error err =>
      -- "invalid secret key"
      exact absurd hsuccess (not_success_of_refusal rfl hrest)
    | ok node => exact ⟨node, rest, rfl, hrest⟩

/-- What a successful upload of events has stored, and what it answers. -/
theorem agentReportEvents_stores {secretKey : String} {body : Except String (List EventItem)}
    {resp : Response} (h : (agentReportEvents secretKey body).Ends tr (.response resp))
    (hsuccess : resp.isSuccess = true)
    (hperformed : Prog.Performed (execStep ext AnyStep) tr s s') :
    ∃ events stored rows, body = .ok events ∧ stored.Sublist events ∧
      s'.db.nodeEvent.rows = s.db.nodeEvent.rows ++ rows ∧
      List.Forall₂ StoresEvent stored rows ∧
      stored.length + failedInserts tr = events.length ∧ resp.data = .synced events.length := by
  obtain ⟨node, rest, rfl, hanswer⟩ := withNode_ends h hsuccess
  obtain ⟨s₁, hlookup, hrest⟩ := hperformed.of_cons
  have hdb := db_of_read (fun _ _ _ => rfl) hlookup
  cases body with
  | error err => exact absurd hsuccess (not_success_of_refusal rfl hanswer)
  | ok events =>
    obtain ⟨⟨⟩, tr₁, tr₂, rfl, hloop, hdone⟩ := Prog.Ends.bind hanswer
    obtain ⟨rfl, heq⟩ := Prog.Ends.of_pure hdone
    cases heq
    rw [List.append_nil] at hrest
    obtain ⟨stored, rows, hsub, hrows, hall, hcount⟩ := createEvents_stores hloop hrest
    exact ⟨events, stored, rows, rfl, hsub, hdb ▸ hrows, hall,
      by simpa [isFailedInsert] using hcount, rfl⟩

/-- What a successful upload of a result has stored. -/
theorem agentReportTaskResult_stores {secretKey : String} {body : Except String TaskResult}
    {resp : Response} (h : (agentReportTaskResult secretKey body).Ends tr (.response resp))
    (hsuccess : resp.isSuccess = true)
    (hperformed : Prog.Performed (execStep ext AnyStep) tr s s') :
    ∃ result, body = .ok result ∧
      ((failedInserts tr = 0 ∧ ∃ row, s'.db.taskLog.rows = s.db.taskLog.rows ++ [row] ∧
        StoresResult result row) ∨
      (failedInserts tr = 1 ∧ s'.db.taskLog.rows = s.db.taskLog.rows)) := by
  obtain ⟨node, rest, rfl, hanswer⟩ := withNode_ends h hsuccess
  obtain ⟨s₁, hlookup, hrest⟩ := hperformed.of_cons
  have hdb := db_of_read (fun _ _ _ => rfl) hlookup
  cases body with
  | error err => exact absurd hsuccess (not_success_of_refusal rfl hanswer)
  | ok result =>
    obtain ⟨found, tr₁, rfl, h₁⟩ := Prog.Ends.of_call_bind hanswer
    cases found with
    | error err =>
      -- "task not found or not assigned to this node"
      exact absurd hsuccess (not_success_of_refusal rfl h₁)
    | ok taskModel =>
      obtain ⟨execTime, tr₂, rfl, h₂⟩ := Prog.Ends.of_call_bind h₁
      obtain ⟨r, tr₃, rfl, h₃⟩ := Prog.Ends.of_call_bind h₂
      obtain ⟨rfl, -⟩ := Prog.Ends.of_pure h₃
      obtain ⟨s₂, htask, hrest⟩ := hrest.of_cons
      obtain ⟨s₃, hnow, hrest⟩ := hrest.of_cons
      obtain ⟨s₄, hinsert, hnil⟩ := hrest.of_cons
      cases hnil
      have hdb₂ : s₂.db = s.db := (db_of_read (fun _ _ _ => rfl) htask).trans hdb
      have hdb₃ : s₃.db = s.db := (db_of_now hnow).trans hdb₂
      refine ⟨result, rfl, ?_⟩
      -- the error of the insert decides nothing but the row
      rcases createReportLog_rows hinsert with ⟨err, rfl, hkept⟩ | ⟨row', now, rfl, hadded⟩
      · exact .inr ⟨rfl, by rw [hkept, hdb₃]⟩
      · exact .inl ⟨rfl, _, hdb₃ ▸ hadded, rfl, rfl, rfl⟩

/-- **An acknowledged upload is stored** if and only if none of its inserts has failed. -/
theorem acknowledged_iff {caller : Caller} {req : Request} {resp : Response} (hreq : Uploads req)
    (h : (req.handle ext caller).Ends tr (.response resp))
    (hperformed : Prog.Performed (execStep ext AnyStep) tr s s')
    (hsuccess : resp.isSuccess = true) :
    Acknowledged s.db s'.db resp req ↔ failedInserts tr = 0 := by
  cases hreq with
  | events secretKey body =>
    obtain ⟨events, stored, rows, rfl, hsub, hrows, hall, hcount, hdata⟩ :=
      agentReportEvents_stores h hsuccess hperformed
    constructor
    · rintro ⟨stored', rows', -, hrows', hall', hdata'⟩
      -- the rows are those of all events, since the answer counts all
      obtain rfl : rows' = rows := List.append_cancel_left (hrows'.symm.trans hrows)
      have hlength := hall.length_eq
      have hlength' := hall'.length_eq
      rw [hdata, Data.synced.injEq] at hdata'
      omega
    · intro hnone
      refine ⟨stored, rows, hsub, hrows, hall, ?_⟩
      rw [hdata, ← hcount, hnone, Nat.add_zero]
  | result secretKey body =>
    obtain ⟨result, rfl, ⟨hnone, hrow⟩ | ⟨hone, hsame⟩⟩ :=
      agentReportTaskResult_stores h hsuccess hperformed
    · exact ⟨fun _ => hnone, fun _ => hrow⟩
    · constructor
      · rintro ⟨row, hrow, -⟩
        rw [hsame] at hrow
        simp at hrow
      · intro hnone
        omega

end Inserts

/-! ## A stored event and a lost one -/

/-- A node with the key `k`. -/
def oneNode : Node := { toStamps := Base.zero, name := "edge", secretKey := "k" }

/-- A database with this node. -/
def oneNodeDatabase : Database := { emptyDatabase with node := Table.empty.create oneNode 0 }

/-- Its row. -/
def oneNodeRow : Node := Table.empty.inserted oneNode 0

/-- The upload of one event. -/
def oneEvent : Request := .agentReportEvents "k" (.ok [{ eventType := "start", eventTime := some 5 }])

/-- The row of that event. -/
def oneEventRow : NodeEvent where
  toStamps := Base.zero
  nodeID := 1
  eventType := "start"
  eventTime := 5
  synced := true

/-- The lookup of the node, and the insert with the answer `r`. -/
def oneEventTrace (r : Except DbError NodeEvent) : Trace Op Op.Res :=
  [⟨.db (.findNodeWithKey "k"), .ok oneNodeRow⟩, ⟨.db (.createNodeEvent oneEventRow), r⟩]

/-- What the agent is answered, whatever becomes of the insert. -/
theorem oneEvent_ends (r : Except DbError NodeEvent) :
    (oneEvent.handle plainExternals ⟨0, ""⟩).Ends (oneEventTrace r)
      (.response (success "events synced" (.synced 1))) := .op (.op (.pure _))

/-- An event that is stored is acknowledged. -/
theorem acknowledged_iff_oneEvent : ∃ tr s', Prog.Performed (execStep plainExternals AnyStep) tr
    (State.boot oneNodeDatabase 0) s' ∧
    Acknowledged oneNodeDatabase s'.db (success "events synced" (.synced 1)) oneEvent := by
  have hperformed : ∃ r s', Prog.Performed (execStep plainExternals AnyStep)
      (oneEventTrace (.ok r)) (State.boot oneNodeDatabase 0) s' :=
    ⟨_, _, .cons ⟨{}, trivial, rfl⟩ (.cons ⟨{}, trivial, rfl⟩ (.nil _))⟩
  obtain ⟨r, s', hperformed⟩ := hperformed
  exact ⟨_, s', hperformed,
    (acknowledged_iff (.events _ _) (oneEvent_ends _) hperformed rfl).mpr rfl⟩

/-- An event whose insert fails is acknowledged all the same. -/
theorem lost_event_acknowledged : ¬ ∀ (caller : Caller) (req : Request) (resp : Response)
    (tr : Trace Op Op.Res) (s s' : State), Uploads req →
    (req.handle plainExternals caller).Ends tr (.response resp) →
    Prog.Performed (execStep plainExternals AnyStep) tr s s' → resp.isSuccess = true →
    Acknowledged s.db s'.db resp req := by
  intro hall
  have hperformed : ∃ s', Prog.Performed (execStep plainExternals AnyStep)
      (oneEventTrace (.error (.failure "disk full"))) (State.boot oneNodeDatabase 0) s' ∧
      s'.db.nodeEvent.rows = [] :=
    ⟨_, .cons ⟨{}, trivial, rfl⟩ (.cons ⟨{ fail := true, text := "disk full" }, trivial, rfl⟩
      (.nil _)), rfl⟩
  obtain ⟨s', hperformed, hempty⟩ := hperformed
  obtain ⟨stored, rows, -, hrows, hstored, hdata⟩ :=
    hall _ _ _ _ _ _ (.events _ _) (oneEvent_ends _) hperformed rfl
  -- no row has been added, although one event is acknowledged
  rw [hempty] at hrows
  have hnone : rows = [] := (List.nil_eq_append_iff.mp hrows).2
  have hlength := hstored.length_eq
  rw [success, Data.synced.injEq] at hdata
  rw [hnone, ← hdata] at hlength
  cases hlength

end Gonitor.Requests
