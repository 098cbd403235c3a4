import Gonitor.Integrity.AuditTrail

/-!
# The Names of the Nodes

Two things keep the names of nodes apart.  The handlers look for a live node with the name, and
the unique index on `node.name` refuses a row whose name any other row has, deleted ones among them:
a deleted node keeps its name.  So a name that no live node has can still be taken, and then the
handler finds it free and the database refuses it.

## Main Results

- `uniqueNames_of_exec`: every operation keeps the index.
- `addNode_succeeds_iff`, `editNode_succeeds_iff`: what decides about a name that no live node has.
- `free_names_usable_iff`: the names that are free and usable, after any requests.
- `deleted_name_refused`: a node is added, deleted, and cannot be added again.
-/

namespace Gonitor.Integrity

open Gonitor.Model Gonitor.Server Gonitor.Controller Gonitor.Requests AtomicProgram SoftDelete

/-! ## The index -/

/-- The unique index on `node.name`: no two rows have the same name, live or deleted. -/
def UniqueNames (nodes : Table Node) : Prop := ∀ n ∈ nodes.rows, NameFree nodes n.name n.id

/-- No deleted row has the name. -/
def Unretained (nodes : Table Node) (name : String) : Prop :=
  ∀ n ∈ nodes.rows, live n = false → n.name ≠ name

section Names

variable {nodes nodes' : Table Node} {name : String} {now : Time}

theorem UniqueNames.distinct (h : UniqueNames nodes) : nodes.Distinct Node.name := by
  intro i j n n' hn hn' hname
  obtain ⟨hmem, hid, -⟩ := Table.mem_of_byId hn
  obtain ⟨hmem', hid', -⟩ := Table.mem_of_byId hn'
  have hsame : n.id = n'.id := h n' hmem' n hmem hname
  rw [← hid, ← hid']
  exact hsame

theorem nodeNameFree_iff {row : Node} :
    nodeNameFree nodes row = true ↔ NameFree nodes row.name row.id := by
  constructor
  · exact nameFree_of_nodeNameFree
  · intro h
    apply List.all_eq_true.mpr
    intro n hn
    have := h n hn
    grind

/-- A row with a name of no live node is a deleted one. -/
theorem nameFree_iff_unretained (hfree : nodes.Free Node.name name) {id : Int}
    (hid : ∀ n ∈ nodes.rows, live n = false → n.id ≠ id) :
    NameFree nodes name id ↔ Unretained nodes name := by
  constructor
  · intro h n hn hdeleted hname
    exact hid n hn hdeleted (h n hn hname)
  · intro h n hn hname
    cases hlive : live n with
    | true => exact absurd hname (hfree n.id n (Table.byId_of_mem hn hlive))
    | false => exact absurd hname (h n hn hlive)

theorem UniqueNames.create (h : UniqueNames nodes) {row : Node}
    (hrow : NameFree nodes row.name 0) (now : Time) : UniqueNames (nodes.create row now) := by
  -- no row has the key 0, so none has the name
  have hnone : ∀ n ∈ nodes.rows, n.name ≠ row.name := by
    intro n hn hname
    have hpos : 0 < n.id := nodes.ids_pos n hn
    rw [hrow n hn hname] at hpos
    exact absurd hpos (Int.lt_irrefl 0)
  intro n hn x hx hname
  rw [Table.create, List.mem_append, List.mem_singleton] at hn hx
  obtain hn | rfl := hn <;> obtain hx | rfl := hx
  · exact h n hn x hx hname
  · exact absurd hname.symm (hnone n hn)
  · exact absurd hname (hnone x hx)
  · rfl

theorem UniqueNames.save (h : UniqueNames nodes) {row : Node} (hrow : NameFree nodes row.name row.id)
    (hsave : nodes.save row now = some nodes') : UniqueNames nodes' := by
  intro n hn x hx hname
  obtain rfl | ⟨hn, hne⟩ := Table.mem_of_save hsave hn <;>
    obtain rfl | ⟨hx, hne'⟩ := Table.mem_of_save hsave hx
  · rfl
  · exact absurd (hrow x hx hname) hne'
  · exact absurd (hrow n hn hname.symm) hne
  · exact h n hn x hx hname

theorem UniqueNames.delete (h : UniqueNames nodes) (id : Int) (now : Time) :
    UniqueNames (nodes.delete id now) := by
  -- a deletion keeps the name and the key of every row
  have hkeeps : ∀ n ∈ (nodes.delete id now).rows,
      ∃ n₀ ∈ nodes.rows, n₀.name = n.name ∧ n₀.id = n.id := by
    intro n hn
    obtain ⟨n₀, hn₀, rfl⟩ := List.mem_map.mp hn
    refine ⟨n₀, hn₀, ?_⟩
    split <;> exact ⟨rfl, rfl⟩
  intro n hn x hx hname
  obtain ⟨n₀, hn₀, hname₀, hid₀⟩ := hkeeps n hn
  obtain ⟨x₀, hx₀, hname₁, hid₁⟩ := hkeeps x hx
  rw [← hid₀, ← hid₁]
  apply h n₀ hn₀ x₀ hx₀
  rw [hname₀, hname₁, hname]

end Names

section Operations

variable {ext : Externals} {s s' : State} {c : Choice}

/-- **Every operation keeps the index.** -/
theorem uniqueNames_of_exec {o : Op} {r : o.Res} (h : exec ext o c s = some (r, s'))
    (hs : UniqueNames s.db.node) : UniqueNames s'.db.node := by
  have hstep := nodeStep_of_exec h
  generalize hnodes : s'.db.node = nodes at hstep
  cases hstep with
  | same => exact hs
  | created hok =>
    rw [← hnodes]
    rcases createNode_cases h with ⟨err, -, hd⟩ | ⟨now, -, hd, hname⟩
    · rw [hd]
      exact hs
    · rw [hd]
      exact hs.create hname now
  | saved hok hsave =>
    rw [← hnodes]
    rcases saveNode_cases h with ⟨err, -, hd⟩ | ⟨now, nodes, -, hsave, hd, hname⟩
    · rw [hd]
      exact hs
    · rw [hd]
      exact hs.save hname hsave
  | deleted hok => exact hs.delete _ _

/-- The search for a name finds nothing where no live node has it. -/
theorem findNodeNamed_of_free {name : String} {except : Option Int} {r : Except DbError Node}
    (hfree : s.db.node.Free Node.name name)
    (h : exec ext (.db (.findNodeNamed name except)) c s = some (r, s')) : ∃ err, r = .error err := by
  cases r with
  | error err => exact ⟨err, rfl⟩
  | ok node =>
    obtain ⟨-, hr, -⟩ := exec_db h
    have hfirst := query_ok hr.symm
    have hp := List.find?_some hfirst
    simp only [Bool.and_eq_true, beq_iff_eq] at hp
    exact absurd hp.2.1 (hfree _ _ (Table.byId_of_mem (List.mem_of_find?_eq_some hfirst) hp.1))

/-- The index decides about an insert. -/
theorem createNode_ok_iff {row : Node} {r : Except DbError Node}
    (h : exec ext (.db (.createNode row)) c s = some (r, s')) (hok : c.fail = false) :
    (∃ node, r = .ok node) ↔ NameFree s.db.node row.name 0 := by
  constructor
  · rintro ⟨node, rfl⟩
    rcases createNode_cases h with ⟨err, hr, -⟩ | ⟨now, -, -, hname⟩
    · cases hr
    · exact hname
  · intro hname
    have hfree : nodeNameFree s.db.node { row with id := 0 } = true := nodeNameFree_iff.mpr hname
    have hexec := db_of_exec h
    simp only [DbOp.exec, statement, hok, hfree, Bool.false_eq_true, if_false, if_true] at hexec
    exact ⟨_, (Prod.mk.inj hexec).1.symm⟩

/-- It decides about a save of a live row as well. -/
theorem saveNode_ok_iff {row : Node} {r : Except DbError Unit}
    (h : exec ext (.db (.saveNode row)) c s = some (r, s')) (hok : c.fail = false) {node : Node}
    (hthere : s.db.node.byId row.id = some node) :
    r = .ok () ↔ NameFree s.db.node row.name row.id := by
  constructor
  · rintro rfl
    rcases saveNode_cases h with ⟨err, hr, -⟩ | ⟨now, nodes, -, -, -, hname⟩
    · cases hr
    · exact hname
  · intro hname
    have hfree : nodeNameFree s.db.node row = true := nodeNameFree_iff.mpr hname
    have hsaved : ∃ nodes, s.db.node.save row (s.clock + c.elapsed) = some nodes := by
      cases hsave : s.db.node.save row (s.clock + c.elapsed) with
      | some nodes => exact ⟨nodes, rfl⟩
      | none =>
        have hnone : s.db.node.byId row.id = none := Table.byId_of_save_eq_none hsave
        rw [hnone] at hthere
        cases hthere
    obtain ⟨nodes, hsave⟩ := hsaved
    have hexec := db_of_exec h
    simp only [DbOp.exec, statement, hok, hfree, hsave, Bool.false_eq_true, if_false, if_true,
      Option.map_some] at hexec
    exact (Prod.mk.inj hexec).1.symm

end Operations

/-! ## Adding and editing -/

/-- The reply is a success. -/
def Succeeded (reply : Reply) : Prop := ∃ resp, reply = .response resp ∧ resp.isSuccess = true

theorem not_succeeded {code : Int} (hcode : code ≠ 0) (message : String) :
    ¬ Succeeded (.response (error code message)) := by
  rintro ⟨resp, heq, hsuccess⟩
  cases heq
  simp [Response.isSuccess, error, hcode] at hsuccess

theorem succeeded (message : String) (data : Data) :
    Succeeded (.response (success message data)) := ⟨_, rfl, rfl⟩

section Requests

variable {ext : Externals} {K : State → Op → Choice → Prop} {s : State} {form : NodeForm}

/-- The audit entry does not change the reply. -/
theorem logged_reply {P : Prop} {userId targetId : Int} {opType remark : String} {reply : Reply}
    (h : Succeeded reply ↔ P) :
    Ensures ext K (addOperationLog userId targetId opType remark >>= fun _ => pure reply)
      (fun reply _ => Succeeded reply ↔ P) s :=
  (Ensures.of_runs fun _ _ _ => trivial : Ensures ext K _ (fun _ _ => True) s).bind
    fun _ _ _ => Ensures.pure h

/-- **`AddNode`** of a valid form with a name that no live node has. -/
theorem addNode_succeeds_iff (hsure : NoDbFailure K) (hform : nodeFormError form = none)
    (hfree : s.db.node.Free Node.name form.name) (caller : Caller) :
    Ensures ext K (Controller.addNode caller (.ok form))
      (fun reply _ => Succeeded reply ↔ Unretained s.db.node form.name) s := by
  unfold Controller.addNode
  dsimp only
  rw [hform]
  refine Ensures.aside_bind (by trivial) rfl fun c r s₁ _ h₁ hd₁ => ?_
  obtain ⟨err, rfl⟩ := findNodeNamed_of_free hfree h₁
  refine Ensures.aside_bind (by trivial) hd₁ fun c secretKey s₂ _ h₂ hd₂ => ?_
  refine .call_bind fun c r s₃ hK₃ h₃ => ?_
  have hok := createNode_ok_iff h₃ (hsure _ _ _ hK₃)
  have hkeys : ∀ n ∈ s.db.node.rows, live n = false → n.id ≠ 0 := fun n hn _ =>
    (Int.ne_of_lt (s.db.node.ids_pos n hn)).symm
  rw [hd₂, nameFree_iff_unretained hfree hkeys] at hok
  cases r with
  | error err =>
    apply Ensures.pure
    rw [← hok]
    exact iff_of_false (not_succeeded (by decide) _) (by simp)
  | ok nodeModel =>
    apply logged_reply
    rw [← hok]
    exact iff_of_true (succeeded _ _) ⟨nodeModel, rfl⟩

/-- **`EditNode`** of a live edge node, likewise. -/
theorem editNode_succeeds_iff (hsure : NoDbFailure K) (hform : nodeFormError form = none)
    (hfree : s.db.node.Free Node.name form.name) {nodeId : Int} {node : Node}
    (hnode : s.db.node.byId nodeId = some node) (hedge : node.isMaster = false) (caller : Caller) :
    Ensures ext K (Controller.editNode caller nodeId (.ok form))
      (fun reply _ => Succeeded reply ↔ Unretained s.db.node form.name) s := by
  unfold Controller.editNode
  dsimp only
  refine Ensures.aside_bind (by trivial) rfl fun c r s₁ hK₁ h₁ hd₁ => ?_
  obtain ⟨-, hr, -⟩ := exec_db h₁
  have hfound : r = .ok node := by
    rw [hr]
    simp [DbOp.exec, query, hsure _ _ _ hK₁, hnode]
  subst hfound
  dsimp only
  rw [if_neg (by simp [hedge]), hform]
  refine Ensures.aside_bind (by trivial) hd₁ fun c r s₂ _ h₂ hd₂ => ?_
  have hfree₁ : s₁.db.node.Free Node.name form.name := by
    rw [hd₁]
    exact hfree
  obtain ⟨err, rfl⟩ := findNodeNamed_of_free hfree₁ h₂
  refine .call_bind fun c r s₃ hK₃ h₃ => ?_
  obtain ⟨-, hid, -⟩ := Table.mem_of_byId hnode
  have hthere : s₂.db.node.byId node.id = some node := by
    rw [hd₂, show node.id = nodeId from hid]
    exact hnode
  have hok := saveNode_ok_iff h₃ (hsure _ _ _ hK₃) hthere
  -- the node is live, so its key is not that of a deleted row
  have hkeys : ∀ n ∈ s.db.node.rows, live n = false → n.id ≠ node.id := by
    intro n hn hdeleted heq
    have hrow := Table.row?_of_mem hn
    rw [show rowId n = nodeId from heq.trans hid, (Table.byId_eq_some.mp hnode).1] at hrow
    obtain rfl := Option.some.inj hrow
    rw [(Table.byId_eq_some.mp hnode).2] at hdeleted
    cases hdeleted
  rw [hd₂, nameFree_iff_unretained hfree hkeys] at hok
  cases r with
  | error err =>
    apply Ensures.pure
    rw [← hok]
    exact iff_of_false (not_succeeded (by decide) _) (by simp)
  | ok _ =>
    apply logged_reply
    rw [← hok]
    exact iff_of_true (succeeded _ _) rfl

end Requests

/-! ## After any requests -/

/-- The requests that change the names of the nodes. -/
inductive NamesNodes : Request → Prop
  | add (body : Except String NodeForm) : NamesNodes (.addNode body)
  | edit (nodeId : Int) (body : Except String NodeForm) : NamesNodes (.editNode nodeId body)
  | delete (nodeId : Int) : NamesNodes (.deleteNode nodeId)
  | deployNew (body : Except String DeployNewForm) : NamesNodes (.deployNewNode body)

/-- The states after such requests, whatever fails in them, on a database with the index. -/
def ReachedByNodes (ext : Externals) (s : State) : Prop :=
  ∃ s₀, UniqueNames s₀.db.node ∧ ServesMany ext AnyStep NamesNodes s₀ s

theorem ReachedByNodes.uniqueNames {ext : Externals} {s : State} (h : ReachedByNodes ext s) :
    UniqueNames s.db.node := by
  obtain ⟨s₀, hs₀, hmany⟩ := h
  induction hmany with
  | refl => exact hs₀
  | tail _ hone ih =>
    obtain ⟨req, reply, -, caller, hrun⟩ := hone
    refine hrun.invariant (I := fun s => UniqueNames s.db.node) ?_ ih
    rintro o s₁ r s₂ ⟨c, -, hexec⟩ hs₁
    exact uniqueNames_of_exec hexec hs₁

/-- **The names of the nodes**: after any requests, no two live nodes have the same name, and a name
    that no live node has can be given to a new node, or to an edge node, if and only if no deleted
    node has had it. -/
theorem free_names_usable_iff {ext : Externals} {K : State → Op → Choice → Prop} {s : State}
    (h : ReachedByNodes ext s) (hsure : NoDbFailure K) :
    s.db.node.Distinct Node.name ∧
    ∀ form, nodeFormError form = none → s.db.node.Free Node.name form.name →
      (∀ caller reply s', Prog.Runs (execStep ext K)
        (Request.handle ext caller (.addNode (.ok form))) s reply s' →
        (Succeeded reply ↔ Unretained s.db.node form.name)) ∧
      ∀ nodeId node, s.db.node.byId nodeId = some node → node.isMaster = false →
        ∀ caller reply s', Prog.Runs (execStep ext K)
          (Request.handle ext caller (.editNode nodeId (.ok form))) s reply s' →
          (Succeeded reply ↔ Unretained s.db.node form.name) := by
  refine ⟨h.uniqueNames.distinct, fun form hform hfree => ⟨?_, ?_⟩⟩
  · intro caller reply s' hrun
    exact hrun.post (addNode_succeeds_iff hsure hform hfree caller)
  · intro nodeId node hnode hedge caller reply s' hrun
    exact hrun.post (editNode_succeeds_iff hsure hform hfree hnode hedge caller)

/-! ## A name that is used again -/

/-- The form of the node. -/
def edgeForm : NodeForm := { name := "edge", address := "http://10.0.0.2:8899" }

/-- The key it gets. -/
def edgeKey : Choice := { text := "0123456789abcdef0123456789abcdef" }

/-- There is no row that could break the index. -/
theorem emptyDatabase_uniqueNames : UniqueNames (State.boot emptyDatabase 0).db.node := by
  intro n hn
  cases hn

/-- The node is added to an empty table. -/
theorem free_names_usable_iff_edge : ∃ reply s', Prog.Runs (execStep plainExternals SureStep)
    (Request.handle plainExternals ⟨0, ""⟩ (.addNode (.ok edgeForm))) (State.boot emptyDatabase 0)
    reply s' ∧ Succeeded reply := by
  obtain ⟨-, hnames⟩ :=
    free_names_usable_iff ⟨_, emptyDatabase_uniqueNames, .refl⟩ noDbFailure_sureStep
  obtain ⟨hadd, -⟩ := hnames edgeForm (by decide) (Table.free_of_first rfl)
  have hrun : ∃ reply s', Prog.Runs (execStep plainExternals SureStep)
      (Request.handle plainExternals ⟨0, ""⟩ (.addNode (.ok edgeForm)))
      (State.boot emptyDatabase 0) reply s' :=
    ⟨_, _, runs_of_choices [{}, edgeKey, {}, {}] (by simp [SureStep, edgeKey]) rfl⟩
  obtain ⟨reply, s', hrun⟩ := hrun
  refine ⟨reply, s', hrun, (hadd _ _ _ hrun).mpr ?_⟩
  intro n hn
  cases hn

/-- The node is added and deleted, and cannot be added again. -/
theorem deleted_name_refused : ¬ ∀ s, ReachedByNodes plainExternals s → ∀ form,
    nodeFormError form = none → s.db.node.Free Node.name form.name →
    ∀ caller reply s', Prog.Runs (execStep plainExternals SureStep)
      (Request.handle plainExternals caller (.addNode (.ok form))) s reply s' →
      Succeeded reply := by
  intro hall
  have hserved : ∃ s reply s', serveWith plainExternals ⟨0, ""⟩
      [(.addNode (.ok edgeForm), [{}, edgeKey, {}, {}]), (.deleteNode 1, [{}, {}, {}, {}])]
        (State.boot emptyDatabase 0) = some s ∧
      s.db.node.first (fun n => n.name == edgeForm.name) = none ∧
      Prog.Runs (execStep plainExternals SureStep)
        (Request.handle plainExternals ⟨0, ""⟩ (.addNode (.ok edgeForm))) s reply s' ∧
      reply = .response (error ErrorCode.DB_ERROR "create node fail") :=
    ⟨_, _, _, rfl, rfl, runs_of_choices [{}, edgeKey, {}] (by simp [SureStep, edgeKey]) rfl, rfl⟩
  obtain ⟨s, reply, s', hserve, hfree, hrun, hreply⟩ := hserved
  have hmany : ServesMany plainExternals AnyStep NamesNodes (State.boot emptyDatabase 0) s := by
    refine servesMany_of_serveWith ?_ ?_ hserve
    · simp [NamesNodes.add, NamesNodes.delete]
    · exact fun _ _ _ _ _ _ => trivial
  have hsucceeded := hall s ⟨_, emptyDatabase_uniqueNames, hmany⟩ edgeForm (by decide)
    (Table.free_of_first hfree) _ _ _ hrun
  rw [hreply] at hsucceeded
  exact not_succeeded (by decide) _ hsucceeded

end Gonitor.Integrity
