import Gonitor.Integrity.References
import Gonitor.Requests.Isolation

/-!
# The Master Node

`initDb` inserts the master node where it finds none, with an empty key.  The handlers of the node
requests turn away from a master, an agent request is refused when its key is empty, and what
`initDb` finds at a restart it leaves as it is.  So the row of the first bootstrap stays the only
master, column by column, and no agent acts for it.

## Main Results

- `OneMaster.step`: an operation that writes edge nodes only keeps the master.
- `master_stays`: the master through any sequence of requests and restarts.
-/

namespace Gonitor.Integrity

open Gonitor.Model Gonitor.Server Gonitor.Controller Gonitor.Requests AtomicProgram SoftDelete

/-! ## Starting the server -/

/-- The server is started on a database: `initDb`, then `Manager.Start`. -/
def startServer : Program Unit := do
  initDb
  Gonitor.Task.start

/-- The server is stopped between two requests, and started again. -/
def Restarts (ext : Externals) (s s' : State) : Prop :=
  ∃ now, Prog.Runs (execStep ext AnyStep) startServer (State.boot s.db now) () s'

/-- The first bootstrap, on an empty database, has created the row `m`. -/
structure FirstBootstrap (ext : Externals) (m : Node) (s : State) : Prop where
  started : ∃ now,
    Prog.Runs (execStep ext AnyStep) startServer (State.boot emptyDatabase now) () s
  created : m ∈ s.db.node.rows

/-- The requests about nodes, and those of the agents. -/
def NodeOrAgentRequest (req : Request) : Prop :=
  req.isNodeRequest = true ∨ req.isAgentRequest = true

/-- What happens between two moments at which nothing is in progress. -/
inductive Happens (ext : Externals) (s s' : State) : Prop
  | served : ServesOne ext AnyStep NodeOrAgentRequest s s' → Happens ext s s'
  | restarted : Restarts ext s s' → Happens ext s s'

/-! ## The master row -/

/-- `m` is the live row of its key, and the other live rows are edge nodes. -/
structure OneMaster (m : Node) (nodes : Table Node) : Prop where
  there : nodes.byId m.id = some m
  edge : ∀ i row, nodes.byId i = some row → i ≠ m.id → row.isMaster = false

/-- The row of an edge node. -/
def EdgeRow (m row : Node) : Prop := row.isMaster = false ∧ row.id ≠ m.id

/-- The operation writes edge nodes only. -/
def EdgeOk (m : Node) : Op → Prop
  | .db (.saveNode row) => EdgeRow m row
  | .db (.createNode row) => row.isMaster = false
  | .db (.deleteNode id) => id ≠ m.id
  | _ => True

/-- A lookup finds the master as it is, or an edge node; a search by key finds a row with the key,
    and one for the master finds something. -/
def EdgeAns (m : Node) : (o : Op) → o.Res → Prop
  | .db (.findNode _ _), .ok row => row = m ∨ EdgeRow m row
  | .db (.findNodeWithKey secretKey), .ok row =>
    row.secretKey = secretKey ∧ (row = m ∨ EdgeRow m row)
  | .db .findMaster, r => r ≠ .error .recordNotFound
  | _, _ => True

section OneMaster

variable {m : Node} {nodes nodes' : Table Node}

theorem OneMaster.mem (h : OneMaster m nodes) : m ∈ nodes.rows ∧ live m = true := by
  obtain ⟨hmem, -, hlive⟩ := Table.mem_of_byId h.there
  exact ⟨hmem, hlive⟩

/-- A live row is the master or an edge node. -/
theorem OneMaster.cases (h : OneMaster m nodes) {i : Int} {row : Node}
    (hrow : nodes.byId i = some row) : row = m ∨ EdgeRow m row := by
  have hid : row.id = i := (Table.mem_of_byId hrow).2.1
  by_cases hi : i = m.id
  · left
    rw [hi, h.there] at hrow
    exact (Option.some.inj hrow).symm
  · exact .inr ⟨h.edge i row hrow hi, hid ▸ hi⟩

/-- The master is the one live row that says so. -/
theorem OneMaster.isMaster_iff (h : OneMaster m nodes) (hm : m.isMaster = true) {row : Node}
    (hmem : row ∈ nodes.rows) (hlive : live row = true) : row.isMaster = true ↔ row = m := by
  constructor
  · intro hmaster
    rcases h.cases (Table.byId_of_mem hmem hlive) with hsame | ⟨hedge, -⟩
    · exact hsame
    · rw [hedge] at hmaster
      cases hmaster
  · rintro rfl
    exact hm

/-- The first row of a table is alone there. -/
theorem oneMaster_create (hempty : nodes.rows = []) (row : Node) (now : Time) :
    OneMaster (nodes.inserted row now) (nodes.create row now) := by
  have hid : (nodes.inserted row now).id = nodes.nextId := Table.rowId_inserted nodes row now
  constructor
  · rw [hid, Table.byId_create, if_pos rfl]
  · intro i x hx hi
    rw [Table.byId_create, if_neg (hid ▸ hi), Table.byId, Table.first, hempty] at hx
    cases hx

/-- **One operation** that writes edge nodes only keeps the master. -/
theorem OneMaster.step {c : Choice} {o : Op} (h : OneMaster m nodes) (ho : EdgeOk m o)
    (hstep : NodeStep c nodes o nodes') : OneMaster m nodes' := by
  cases hstep with
  | same => exact h
  | @created row now hok =>
    -- the new row does not get the key of the master
    have hnew : m.id ≠ nodes.nextId :=
      Int.ne_of_lt (Table.rowId_lt_nextId (Table.byId_eq_some.mp h.there).1)
    constructor
    · rw [Table.byId_create, if_neg hnew]
      exact h.there
    · intro i x hx hi
      rw [Table.byId_create] at hx
      split at hx
      · cases hx
        exact ho
      · exact h.edge i x hx hi
  | @saved row now _ hok hsave =>
    have hid : m.id ≠ rowId row := Ne.symm ho.2
    constructor
    · rw [Table.byId_eq_some, Table.row?_save hsave, if_neg hid]
      exact Table.byId_eq_some.mp h.there
    · intro i x hx hi
      rw [Table.byId_eq_some, Table.row?_save hsave] at hx
      split at hx
      · cases hx.1
        exact ho.1
      · exact h.edge i x (Table.byId_eq_some.mpr hx) hi
  | @deleted id now hok =>
    constructor
    · rw [Table.byId_delete, if_neg (Ne.symm ho)]
      exact h.there
    · intro i x hx hi
      rw [Table.byId_delete] at hx
      split at hx
      · cases hx
      · exact h.edge i x hx hi

end OneMaster

/-! ## Through a run -/

section Runs

variable {ext : Externals} {m : Node} {s s' : State} {α : Type}

/-- While the master is there, operations are answered accordingly. -/
theorem edgeAns_of_exec (h : OneMaster m s.db.node) (hm : m.isMaster = true) {o : Op} {c : Choice}
    {r : o.Res} (hexec : exec ext o c s = some (r, s')) : EdgeAns m o r := by
  unfold EdgeAns
  split
  · exact h.cases (byId_of_findNode hexec)
  · have hfirst := first_of_findNodeWithKey hexec
    have hp := List.find?_some hfirst
    simp only [Bool.and_eq_true, beq_iff_eq] at hp
    exact ⟨hp.2, h.cases (Table.byId_of_mem (List.mem_of_find?_eq_some hfirst) hp.1)⟩
  · -- the search for a master passes over no row that is one
    rintro rfl
    obtain ⟨-, hr, -⟩ := exec_db hexec
    simp only [DbOp.exec, query] at hr
    split at hr
    · cases hr
    · split at hr
      · cases hr
      · rename_i hnone
        have := List.find?_eq_none.mp hnone m h.mem.1
        simp [h.mem.2, hm] at this
  · trivial

/-- Alone, a program that writes edge nodes only keeps the master. -/
theorem OneMaster.runs (h : OneMaster m s.db.node) (hm : m.isMaster = true) {p : Program α} {a : α}
    (hp : p.Assured (EdgeOk m) (EdgeAns m)) (hrun : Prog.Runs (execStep ext AnyStep) p s a s') :
    OneMaster m s'.db.node := by
  refine hp.runs (I := fun s => OneMaster m s.db.node) ?_ h hrun
  rintro o s r s' hs ho ⟨c, -, hexec⟩
  exact ⟨edgeAns_of_exec hs hm hexec, hs.step ho (nodeStep_of_exec hexec)⟩

theorem edgeOk_of_keepsNodes (o : Op) (h : KeepsNodes o) : EdgeOk m o := by
  unfold KeepsNodes at h
  split at h
  case h_4 hcreate hsave hdelete =>
    unfold EdgeOk
    split
    case h_1 row => exact (hsave row rfl).elim
    case h_2 row => exact (hcreate row rfl).elim
    case h_3 id => exact (hdelete id rfl).elim
    case h_4 => trivial
  all_goals exact h.elim

/-- What the handlers write is no master: they look before, and an agent cannot name one. -/
theorem edge_duty (hm : m.isMaster = true) (hkey : m.secretKey = "") :
    NodeDuty (EdgeOk m) (EdgeAns m) := by
  -- a row that is no master is one of an edge node
  have hedge : ∀ row row' : Node, (row = m ∨ EdgeRow m row) → row ≠ m → SameNode row row' →
      EdgeRow m row' := by
    intro row row' hrow hne hsame
    obtain ⟨hmaster, hid⟩ := hrow.resolve_left hne
    exact ⟨hsame.isMaster.trans hmaster, by rwa [hsame.stamps]⟩
  have hmaster : ∀ row : Node, row.isMaster = false → row ≠ m := by
    rintro row hrow rfl
    rw [hm] at hrow
    cases hrow
  constructor
  · exact edgeOk_of_keepsNodes
  · exact fun row hrow _ => hrow
  · exact fun _ row row' hans hrow hsame => hedge row row' hans (hmaster row hrow) hsame
  · intro _ row key hans hrow _
    exact hans.resolve_left (hmaster row hrow)
  · intro key row row' hne hans hsame
    apply hedge row row' hans.2 _ hsame
    rintro rfl
    exact hne (hans.1.symm.trans hkey)

/-! ## Starting the server, again -/

theorem initAdmin_keepsNodes : initAdmin.Uses KeepsNodes := by
  refine Prog.Uses.call_bind trivial fun r => ?_
  cases r with
  | ok user => trivial
  | error err =>
    cases err with
    | failure text => trivial
    | recordNotFound =>
      refine Prog.Uses.call_bind trivial fun r => ?_
      cases r with
      | error err => trivial
      | ok hashedPassword => exact Prog.Uses.call_bind trivial fun _ => trivial

theorem start_keepsNodes : Gonitor.Task.start.Uses KeepsNodes :=
  start_startWork.mono fun o ho => keepsNodes_of_both o (keepsBoth_of_startWork o ho)

/-- With a master there, `initDb` creates none. -/
theorem startServer_assured : startServer.Assured (EdgeOk m) (EdgeAns m) := by
  have hmaster : initMaster.Assured (EdgeOk m) (EdgeAns m) := by
    refine .call_bind trivial fun r hr => ?_
    cases r with
    | ok node => trivial
    | error err =>
      cases err with
      | failure text => trivial
      | recordNotFound => exact absurd rfl hr
  have hadmin : initAdmin.Assured (EdgeOk m) (EdgeAns m) :=
    .of_uses initAdmin_keepsNodes edgeOk_of_keepsNodes
  have hstart : Gonitor.Task.start.Assured (EdgeOk m) (EdgeAns m) :=
    .of_uses start_keepsNodes edgeOk_of_keepsNodes
  exact (hmaster.bind fun _ => hadmin).bind fun _ => hstart

/-- The row that the first bootstrap creates. -/
def BootstrapRow (m : Node) : Prop := ∃ now, m = emptyDatabase.node.inserted initialMaster now

/-- What the first bootstrap leaves is the master alone, if anything. -/
theorem initMaster_ensures (now : Time) : Ensures ext AnyStep initMaster
    (fun _ s => ∀ m ∈ s.db.node.rows, BootstrapRow m ∧ OneMaster m s.db.node)
    (State.boot emptyDatabase now) := by
  have hempty : ∀ m ∈ (State.boot emptyDatabase now).db.node.rows,
      BootstrapRow m ∧ OneMaster m (State.boot emptyDatabase now).db.node :=
    fun m hm => by cases hm
  refine Ensures.op fun c r s _ h => ?_
  obtain ⟨-, -, rfl⟩ := exec_db h
  cases r with
  | ok node => exact Ensures.pure hempty
  | error err =>
    cases err with
    | failure text => exact Ensures.pure hempty
    | recordNotFound =>
      refine Ensures.op fun c r s' _ h => ?_
      obtain ⟨-, -, rfl⟩ := exec_db h
      apply Ensures.pure
      apply statement_elim (I := fun d => ∀ m ∈ d.node.rows, BootstrapRow m ∧ OneMaster m d.node)
        hempty
      intro _ a d' hcreated
      split at hcreated
      · cases hcreated
        intro m hm
        cases List.mem_singleton.mp hm
        exact ⟨⟨_, rfl⟩, oneMaster_create rfl _ _⟩
      · cases hcreated

/-- The first bootstrap makes its row the master. -/
theorem FirstBootstrap.oneMaster (h : FirstBootstrap ext m s) :
    BootstrapRow m ∧ OneMaster m s.db.node := by
  obtain ⟨⟨now, hrun⟩, hmem⟩ := h
  -- nothing after `initMaster` writes a node
  have hrest : ∀ {p : Program Unit}, p.Uses KeepsNodes → ∀ s : State,
      (∀ m ∈ s.db.node.rows, BootstrapRow m ∧ OneMaster m s.db.node) → Ensures ext AnyStep p
        (fun _ s' => ∀ m ∈ s'.db.node.rows, BootstrapRow m ∧ OneMaster m s'.db.node) s := by
    intro p hp s hs
    apply hp.wp _ hs
    intro o s ho hs
    refine ⟨trivial, ?_⟩
    rintro r s' ⟨c, -, hexec⟩
    rw [nodes_of_exec ho hexec]
    exact hs
  have hmaster : Ensures ext AnyStep initMaster _ _ := initMaster_ensures now
  have hinit := hmaster.bind fun _ s hs => hrest initAdmin_keepsNodes s hs
  exact hrun.post (hinit.bind fun _ s hs => hrest start_keepsNodes s hs) m hmem

theorem BootstrapRow.isMaster (h : BootstrapRow m) : m.isMaster = true := by
  obtain ⟨now, rfl⟩ := h
  rfl

theorem BootstrapRow.secretKey (h : BootstrapRow m) : m.secretKey = "" := by
  obtain ⟨now, rfl⟩ := h
  rfl

/-! ## In every run -/

/-- Whatever happens, the master stays. -/
theorem OneMaster.happens (h : OneMaster m s.db.node) (hrow : BootstrapRow m)
    (hhappens : Happens ext s s') : OneMaster m s'.db.node := by
  cases hhappens with
  | served hone =>
    obtain ⟨req, reply, hreq, caller, hrun⟩ := hone
    apply h.runs hrow.isMaster _ hrun
    apply request_assured (edge_duty hrow.isMaster hrow.secretKey)
    · intro id row hans hedge
      rcases hans with rfl | ⟨-, hid⟩
      · rw [hrow.isMaster] at hedge
        cases hedge
      · exact hid
    · rintro body rfl
      rcases hreq with hreq | hreq <;> cases hreq
  | restarted hagain =>
    obtain ⟨now, hrun⟩ := hagain
    exact OneMaster.runs (s := State.boot s.db now) h hrow.isMaster startServer_assured hrun

/-- **The master is unique, immutable and nobody's agent.**  From the first bootstrap on, through any
    sequence of requests and restarts, the row that it created is there, column by column, with an
    empty key; it is the only live row of a master; and whatever key an agent presents, the node it
    is taken for is another one. -/
theorem master_stays {s₀ : State} (hboot : FirstBootstrap ext m s₀)
    (h : Relation.ReflTransGen (Happens ext) s₀ s) :
    BootstrapRow m ∧ m.secretKey = "" ∧ s.db.node.byId m.id = some m ∧
      (∀ row ∈ s.db.node.rows, live row = true → (row.isMaster = true ↔ row = m)) ∧
      ∀ secretKey node, agentNode s secretKey = some node → node.isMaster = false ∧
        node.id ≠ m.id := by
  obtain ⟨hrow, hfirst⟩ := hboot.oneMaster
  have hmaster : OneMaster m s.db.node := by
    clear hboot
    induction h with
    | refl => exact hfirst
    | tail _ hone ih => exact ih.happens hrow hone
  refine ⟨hrow, hrow.secretKey, hmaster.there, ?_, ?_⟩
  · exact fun row hmem hlive => hmaster.isMaster_iff hrow.isMaster hmem hlive
  · intro secretKey node hnode
    unfold agentNode at hnode
    split at hnode
    · cases hnode
    · rename_i hkey
      have hp := List.find?_some hnode
      simp only [Bool.and_eq_true, beq_iff_eq] at hp
      rcases hmaster.cases (Table.byId_of_mem (List.mem_of_find?_eq_some hnode) hp.1) with
        rfl | hedge
      · exact absurd (hp.2.symm.trans hrow.secretKey) hkey
      · exact hedge

end Runs

/-- The key of an edge node. -/
def edgeText : String := "0123456789abcdef0123456789abcdef"

/-- A node is added, which gets this key. -/
def edgeAdded : List (Request × List Choice) :=
  [(.addNode (.ok { name := "edge", address := "http://10.0.0.2:8899" }),
    [{}, { text := edgeText }, {}, {}])]

/-- After the first bootstrap a node is added, and the server is restarted; then the key of the node
    leads to it. -/
theorem master_stays_restarted : ∃ (m : Node) (s : State),
    (∃ s₀ s₁, FirstBootstrap plainExternals m s₀ ∧
      ServesMany plainExternals AnyStep NodeOrAgentRequest s₀ s₁ ∧ Restarts plainExternals s₁ s) ∧
      (agentNode s edgeText).isSome = true ∧
      BootstrapRow m ∧ m.secretKey = "" ∧ s.db.node.byId m.id = some m ∧
      (∀ row ∈ s.db.node.rows, live row = true → (row.isMaster = true ↔ row = m)) ∧
      ∀ secretKey node, agentNode s secretKey = some node → node.isMaster = false ∧
        node.id ≠ m.id := by
  have hstarted : ∃ s₀ m, Prog.Runs (execStep plainExternals AnyStep) startServer
        (State.boot emptyDatabase 0) () s₀ ∧ m ∈ s₀.db.node.rows ∧
      ∃ s₁, serveWith plainExternals ⟨0, ""⟩ edgeAdded s₀ = some s₁ ∧
      ∃ s, Prog.Runs (execStep plainExternals AnyStep) startServer (State.boot s₁.db 1) () s ∧
        (agentNode s edgeText).isSome = true := by
    refine ⟨_, emptyDatabase.node.inserted initialMaster 0,
      runs_of_choices (List.replicate 6 {}) (fun _ _ _ _ => trivial) rfl,
      List.mem_singleton.mpr rfl, ?_⟩
    refine ⟨_, rfl, ?_⟩
    exact ⟨_, runs_of_choices (List.replicate 3 {}) (fun _ _ _ _ => trivial) rfl, rfl⟩
  obtain ⟨s₀, m, hfirst, hmem, s₁, hserve, s, hagain, hkey⟩ := hstarted
  have hboot : FirstBootstrap plainExternals m s₀ := ⟨⟨0, hfirst⟩, hmem⟩
  have hrestart : Restarts plainExternals s₁ s := ⟨1, hagain⟩
  have hmany : ServesMany plainExternals AnyStep NodeOrAgentRequest s₀ s₁ := by
    refine servesMany_of_serveWith ?_ (fun _ _ _ _ _ _ => trivial) hserve
    simp [edgeAdded, NodeOrAgentRequest, Request.isNodeRequest]
  have hhappens : Relation.ReflTransGen (Happens plainExternals) s₀ s := by
    apply Relation.ReflTransGen.tail (b := s₁)
    · exact hmany.lift id fun _ _ hone => .served hone
    · exact .restarted hrestart
  exact ⟨m, s, ⟨s₀, s₁, hboot, hmany, hrestart⟩, hkey, master_stays hboot hhappens⟩

end Gonitor.Integrity
