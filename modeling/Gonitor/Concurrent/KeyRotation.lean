import Gonitor.Concurrent.Invariants
import Gonitor.Requests.NodeGuard
import Gonitor.Requests.Tables

/-!
# Rotating the Key of a Node

`RegenerateNodeKey` replaces the key of a node row.  The handlers that change a node read its row,
and later save all columns of it: `AgentHeartbeat`, `EditNode`, and `DeployNode` after minutes of
work.  One that has read the row before the rotation brings the old key back after it.

## Main Results

- `key_rotation_final`: the rotation is final where no request holds the old key while the new
  one is saved.
- `heartbeat_restores_key`: a heartbeat that has read the row before the rotation makes the old
  key good again.
-/

namespace Gonitor.Concurrent

open Gonitor.Model Gonitor.Server Gonitor.Controller Gonitor.Requests AtomicProgram SoftDelete

/-! ## Rotations -/

/-- The key that an agent request presents. -/
def presentedKey : Requests.Request → Option String
  | .agentHeartbeat secretKey _ | .agentGetTasks secretKey _ | .agentReportTaskResult secretKey _
  | .agentCheckUpdate secretKey _ | .agentReportEvents secretKey _ => some secretKey
  | _ => none

/-- The answers to a request whose key is not known. -/
def Refused (reply : Reply) : Prop :=
  reply = .response (error ErrorCode.PARSE_PARAMS_ERROR "missing secret key") ∨
    reply = .response (error ErrorCode.NOT_FOUND "invalid secret key")

/-- Conditions on the steps of a rotation of `secretKey` by the thread. -/
abbrev RotationCondition := String → Nat → Label Choice Start → ServerPool → Prop

/-- A request `RegenerateNodeKey` that is received in `q₀` replaces the key `secretKey` of its node:
    with its last step, from `q` to `q₁`, it has returned success. -/
structure Rotates (ext : Externals) (K : RotationCondition) (secretKey : String) (tid : Nat)
    (q₀ q q₁ : ServerPool) : Prop where
  reached : Reached ext q₀
  received : ∃ caller nodeId,
    q₀.threads tid = some ⟨(Request.regenerateNodeKey nodeId).handle ext caller, .init⟩ ∧
      ∃ row, q.shared.db.node.byId nodeId = some row ∧ row.secretKey = secretKey
  works : (server ext).Reach (K secretKey tid) q₀ q
  saves : ∃ c, K secretKey tid (.op tid c) q ∧ (server ext).step (.op tid c) q = some q₁
  returned : ∃ r ℓ, q₁.threads tid = some ⟨.pure (.response r), ℓ⟩ ∧ r.isSuccess = true

/-- Whatever happens after a rotation, an agent request with the old key that is received
    afterwards gets no further than its lookup. -/
def RotationFinal (ext : Externals) (K : RotationCondition) : Prop :=
  ∀ secretKey tid q₀ q q₁ p, Rotates ext K secretKey tid q₀ q q₁ →
    (server ext).Reach (K secretKey tid) q₁ p →
    ∀ agent caller req p', presentedKey req = some secretKey →
      p.threads agent = some ⟨req.handle ext caller, .init⟩ →
      (server ext).Reach (K secretKey tid) p p' →
      ∃ th, p'.threads agent = some th ∧
        (th.prog = req.handle ext caller ∨ ∃ reply, th.prog = .pure reply ∧ Refused reply)

/-! ## The condition -/

/-- Unless it is answered a row with the key or draws the key, the program saves no row with it: it
    is not on its way from reading such a row to saving it. -/
def Clear (secretKey : String) (p : Program Reply) : Prop :=
  p.Assured (NodeOk (fun row => row.secretKey ≠ secretKey) (fun key => key ≠ secretKey) fun _ => True)
    (NodeAns (fun row => row.secretKey ≠ secretKey) fun key => key ≠ secretKey)

/-- The rotation does not draw the old key, nor does any request after the rotation. -/
def FreshKeys (secretKey : String) (tid : Nat) : Label Choice Start → ServerPool → Prop
  | .spawn _ _, _ => True
  | .op tid' c, q => ∀ n, AtOp q tid' (.world (.randomString n)) →
    (tid' = tid ∨ ∃ reply ℓ, q.threads tid = some ⟨.pure reply, ℓ⟩) → c.text ≠ secretKey

/-- When the rotation saves its row, no other request holds the old key, and no other node has it. -/
def Unshared (secretKey : String) (tid : Nat) : Label Choice Start → ServerPool → Prop
  | .spawn _ _, _ => True
  | .op tid' _, q => tid' = tid → ∀ row, AtOp q tid (.db (.saveNode row)) →
    (∀ other th, other ≠ tid → q.threads other = some th → Clear secretKey th.prog) ∧
    ∀ i node, i ≠ row.id → q.shared.db.node.byId i = some node → node.secretKey ≠ secretKey

/-- Both. -/
def CleanRotation (secretKey : String) (tid : Nat) (l : Label Choice Start) (q : ServerPool) : Prop :=
  FreshKeys secretKey tid l q ∧ Unshared secretKey tid l q

section Clear

variable {ext : Externals} {secretKey : String}

theorem keyGuard (secretKey : String) :
    NodeGuard (fun row => row.secretKey ≠ secretKey) (fun key => key ≠ secretKey) where
  kept row row' _ _ hkey hrow := by rwa [hkey]
  rekeyed row key _ hkey _ := hkey

/-- Every thread starts out clear of every key. -/
theorem clear_of_spawn {x : Start} {s : State} {th : Thread Op Op.Res Reply Local}
    (h : spawn ext x s = some th) : Clear secretKey th.prog := by
  rcases spawn_cases h with ⟨caller, req, -, hreq, rfl⟩ | ⟨-, rfl⟩ | ⟨e, entry, -, -, -, rfl⟩
  · apply request_assured (keyGuard secretKey).duty _ caller req hreq
    intro _ row _ _
    trivial
  · exact assured_of_keepsNodes (keepsNodes stopThread_keepsBoth)
  · exact assured_of_keepsNodes (keepsNodes (runThread_keepsBoth entry.id entry.job))

/-- No live node has the key. -/
def KeyGone (secretKey : String) (s : State) : Prop :=
  ∀ i node, s.db.node.byId i = some node → node.secretKey ≠ secretKey

variable {s s' : State} {o : Op} {c : Choice} {r : o.Res}

/-- An operation that stores no row with the key brings it back to no node. -/
theorem keyGone_of_exec (hgone : KeyGone secretKey s)
    (ho : NodeOk (fun row => row.secretKey ≠ secretKey) (fun key => key ≠ secretKey)
      (fun _ => True) o)
    (h : exec ext o c s = some (r, s')) : KeyGone secretKey s' := by
  have hstep := nodeStep_of_exec h
  unfold KeyGone
  generalize s'.db.node = nodes' at hstep ⊢
  intro i node hnode
  cases hstep with
  | same => exact hgone i node hnode
  | created hok =>
    -- the new row has a key of its own
    rw [Table.byId_create] at hnode
    split at hnode
    · cases hnode
      exact ho.2
    · exact hgone i node hnode
  | saved hok hsave =>
    obtain ⟨hrow, hlive⟩ := Table.byId_eq_some.mp hnode
    rw [Table.row?_save hsave] at hrow
    split at hrow
    · cases hrow
      exact ho
    · exact hgone i node (Table.byId_eq_some.mpr ⟨hrow, hlive⟩)
  | deleted hok =>
    rw [Table.byId_delete] at hnode
    split at hnode
    · cases hnode
    · exact hgone i node hnode

end Clear

/-! ## The rotation -/

/-- `RegenerateNodeKey` from the save on. -/
def saveKey (nodeModel : Node) : Program Reply := do
  match ← saveNode nodeModel with
  | .error _ => pure (.response (error ErrorCode.DB_ERROR "update node key fail"))
  | .ok _ => pure (.response (success "regenerate success" (.node nodeModel)))

/-- `RegenerateNodeKey` from the draw on. -/
def drawKey (nodeModel : Node) : Program Reply := do
  let secretKey ← randomString 32
  saveKey { nodeModel with secretKey := secretKey }

theorem regenerateNodeKey_eq (nodeId : Int) : regenerateNodeKey nodeId = (do
    match ← findNode .nodeRequest nodeId with
    | .error _ => pure (.response (error ErrorCode.NOT_FOUND "node not found"))
    | .ok nodeModel =>
      if nodeModel.isMaster then
        pure (.response (error ErrorCode.PARSE_PARAMS_ERROR "cannot regenerate master node key"))
      else drawKey nodeModel) := rfl

/-- Where the rotation is; the key that it has drawn is not the old one. -/
inductive RotationPlace (secretKey : String) : Program Reply → Prop
  | received (nodeId : Int) : RotationPlace secretKey (regenerateNodeKey nodeId)
  | drawing (row : Node) : RotationPlace secretKey (drawKey row)
  | saving {row : Node} : row.secretKey ≠ secretKey → RotationPlace secretKey (saveKey row)
  | ended (reply : Reply) : RotationPlace secretKey (.pure reply)

section Rotation

variable {ext : Externals} {secretKey : String} {tid : Nat}

/-- The rotation moves on by its own steps. -/
theorem rotationPlace_of_op {o : Op} {k : o.Res → Program Reply} {c : Choice} {s s' : State}
    {r : o.Res} (hplace : RotationPlace secretKey (.op o k))
    (hdraw : ∀ n, o = .world (.randomString n) → c.text ≠ secretKey)
    (h : exec ext o c s = some (r, s')) : RotationPlace secretKey (k r) := by
  generalize hp : Prog.op o k = p at hplace
  cases hplace with
  | received nodeId =>
    -- the lookup: an unknown node and a master node are refused
    rw [regenerateNodeKey_eq] at hp
    cases hp
    cases r with
    | error err => exact .ended _
    | ok nodeModel =>
      show RotationPlace secretKey (if nodeModel.isMaster = true then _ else drawKey nodeModel)
      split
      · exact .ended _
      · exact .drawing nodeModel
  | drawing row =>
    -- the row takes over what is drawn, which is not the old key
    cases hp
    apply RotationPlace.saving
    rw [eq_of_randomString h]
    exact hdraw _ rfl
  | saving hkey =>
    cases hp
    cases r <;> exact .ended _
  | ended reply => cases hp

/-- Only the save of the row with the new key makes the rotation return success. -/
theorem saves_of_success {o : Op} {k : o.Res → Program Reply} {c : Choice} {s s' : State}
    {r : o.Res} {reply : Response} (hplace : RotationPlace secretKey (.op o k))
    (h : exec ext o c s = some (r, s')) (hend : k r = .pure (.response reply))
    (hsuccess : reply.isSuccess = true) :
    ∃ row now, row.secretKey ≠ secretKey ∧ o = .db (.saveNode row) ∧
      s.db.node.save row now = some s'.db.node := by
  generalize hp : Prog.op o k = p at hplace
  cases hplace with
  | received nodeId =>
    rw [regenerateNodeKey_eq] at hp
    cases hp
    cases r with
    | error err =>
      -- "node not found"
      cases hend
      cases hsuccess
    | ok nodeModel =>
      have hdrawing : (if nodeModel.isMaster = true then _ else drawKey nodeModel) =
          Prog.pure (Reply.response reply) := hend
      split at hdrawing
      · -- "cannot regenerate master node key"
        cases hdrawing
        cases hsuccess
      · cases hdrawing
  | drawing row =>
    -- after the draw there is still the save
    cases hp
    cases hend
  | @saving row hkey =>
    cases hp
    cases r with
    | error err =>
      -- "update node key fail"
      cases hend
      cases hsuccess
    | ok u =>
      obtain ⟨now, hsave⟩ := save_of_saveNode h
      exact ⟨row, now, hkey, rfl, hsave⟩
  | ended reply => cases hp

/-- The thread of the rotation is at one of its places. -/
def Rotating (secretKey : String) (tid : Nat) (q : ServerPool) : Prop :=
  ∃ p ℓ, q.threads tid = some ⟨p, ℓ⟩ ∧ RotationPlace secretKey p

theorem rotating_of_step {l : Label Choice Start} {q q' : ServerPool}
    (hK : FreshKeys secretKey tid l q) (hq : Rotating secretKey tid q)
    (h : (server ext).step l q = some q') : Rotating secretKey tid q' := by
  obtain ⟨p, ℓ, hth, hplace⟩ := hq
  rcases System.thread_of_step h hth with hsame | ⟨c, o, k, ℓ', r, rfl, heq, hexec, hnext⟩
  · exact ⟨p, ℓ, hsame, hplace⟩
  · cases heq
    -- the rotation itself does not draw the old key
    have hdraw : ∀ n, o = .world (.randomString n) → c.text ≠ secretKey := by
      intro n ho
      subst ho
      exact hK n ⟨k, ℓ, hth⟩ (.inl rfl)
    exact ⟨k r, _, hnext, rotationPlace_of_op hplace hdraw hexec⟩

/-- The rotation has ended, no node has the old key, and no thread is on its way to bring it back. -/
structure Rotated (secretKey : String) (tid : Nat) (q : ServerPool) : Prop where
  ended : ∃ reply ℓ, q.threads tid = some ⟨.pure reply, ℓ⟩
  gone : KeyGone secretKey q.shared
  clear : ∀ other th, q.threads other = some th → Clear secretKey th.prog

/-- Nothing undoes a rotation. -/
theorem rotated_of_step {l : Label Choice Start} {q q' : ServerPool}
    (hK : FreshKeys secretKey tid l q) (hq : Rotated secretKey tid q)
    (h : (server ext).step l q = some q') : Rotated secretKey tid q' := by
  obtain ⟨reply, ℓ, hended⟩ := hq.ended
  have hone : (server ext).Reach (fun l' q' => FreshKeys secretKey tid l' q' ∧
      q'.threads tid = some ⟨.pure reply, ℓ⟩) q q' :=
    .single ⟨l, ⟨hK, hended⟩, h⟩
  obtain ⟨hgone, hclear⟩ := assured_reach (I := KeyGone secretKey) (fun _ _ _ => clear_of_spawn) (by
    intro p tid' c o k ℓ' r s' hgone hK hth ho hexec
    -- the rotation has ended, so no thread draws the old key
    have hdraw : ∀ n, o = .world (.randomString n) → c.text ≠ secretKey := by
      intro n ho
      subst ho
      exact hK.1 n ⟨k, ℓ', hth⟩ (.inr ⟨reply, ℓ, hK.2⟩)
    exact ⟨nodeAns_of_exec hgone hdraw hexec, keyGone_of_exec hgone ho hexec⟩) hq.gone hq.clear hone
  exact ⟨⟨reply, ℓ, System.ended_of_step h hended⟩, hgone, hclear⟩

/-- With its last step the rotation takes the old key away. -/
theorem Rotates.rotated {q₀ q q₁ : ServerPool}
    (h : Rotates ext CleanRotation secretKey tid q₀ q q₁) : Rotated secretKey tid q₁ := by
  have hrotating : Rotating secretKey tid q := by
    obtain ⟨caller, nodeId, hth, -⟩ := h.received
    apply h.works.keeps (I := Rotating secretKey tid) _ ⟨_, _, hth, .received nodeId⟩
    exact fun l q q' hK hq hstep => rotating_of_step hK.1 hq hstep
  obtain ⟨p, ℓ, hth, hplace⟩ := hrotating
  obtain ⟨c, hK, hstep⟩ := h.saves
  obtain ⟨reply, ℓ₁, hreturned, hsuccess⟩ := h.returned
  rcases System.step_cases hstep with ⟨tid', x, th, hl, -⟩ |
    ⟨tid', c', o, k, ℓ', r, s', hl, hop, hexec, rfl⟩
  · cases hl
  · cases hl
    rw [hop] at hth
    cases hth
    have hend : k r = .pure (.response reply) := by
      have hnext := (Function.update_self ..).symm.trans hreturned
      exact congrArg Thread.prog (Option.some.inj hnext)
    obtain ⟨row, now, hkey, rfl, hsave⟩ := saves_of_success hplace hexec hend hsuccess
    obtain ⟨hothers, hnodes⟩ := hK.2 rfl row ⟨_, ℓ, hop⟩
    refine ⟨⟨_, ℓ₁, hreturned⟩, ?_, ?_⟩
    · -- the saved row has the new key, and no other node had the old one
      intro i node hnode
      obtain ⟨hrow, hlive⟩ := Table.byId_eq_some.mp hnode
      rw [Table.row?_save hsave] at hrow
      split at hrow
      · cases hrow
        exact hkey
      · rename_i hne
        exact hnodes i node hne (Table.byId_eq_some.mpr ⟨hrow, hlive⟩)
    · -- the thread itself has ended; the others were clear of the key
      intro other th hother
      rcases update_eq_some hother with ⟨rfl, hnew⟩ | ⟨hne, hold⟩
      · cases hnew
        show Clear secretKey (k r)
        rw [hend]
        exact trivial
      · exact hothers other th hne hold

/-! ## The requests that come afterwards -/

/-- An agent request begins with the lookup of its key. -/
theorem handle_of_presentedKey (ext : Externals) {req : Requests.Request}
    (hreq : presentedKey req = some secretKey) (caller : Caller) :
    ∃ answer, req.handle ext caller = withNode secretKey answer := by
  cases req with
  | agentHeartbeat _ _ | agentGetTasks _ _ | agentReportTaskResult _ _ | agentCheckUpdate _ _
  | agentReportEvents _ _ =>
    cases hreq
    exact ⟨_, rfl⟩
  | _ => cases hreq

/-- The lookup of a key that no node has is refused. -/
theorem refused_of_op {answer : Node → Program Reply} {o : Op} {k : o.Res → Program Reply}
    {c : Choice} {s s' : State} {r : o.Res} (hgone : KeyGone secretKey s)
    (hp : withNode secretKey answer = .op o k) (h : exec ext o c s = some (r, s')) :
    ∃ reply, k r = .pure reply ∧ Refused reply := by
  unfold withNode at hp
  split at hp
  · -- an empty key is refused without a lookup
    cases hp
  · cases hp
    cases r with
    | error err => exact ⟨_, rfl, .inr rfl⟩
    | ok nodeModel =>
      -- a node that is found has the key, and no node does
      have hfirst := first_of_findNodeWithKey h
      have hkey := List.find?_some hfirst
      simp only [Bool.and_eq_true, beq_iff_eq] at hkey
      have hrow := Table.byId_of_mem (List.mem_of_find?_eq_some hfirst) hkey.1
      exact absurd hkey.2 (hgone _ _ hrow)

/-- **The rotation of a key is final** where, while the new key is saved, no request is on its way
    from reading a row with the old key to saving it, and no other node has the old key; and where
    the old key is not drawn again. -/
theorem key_rotation_final (ext : Externals) : RotationFinal ext CleanRotation := by
  intro secretKey tid q₀ q q₁ p hrotates hlater agent caller req p' hreq hagent hrun
  obtain ⟨answer, hhandle⟩ := handle_of_presentedKey ext hreq caller
  have hstays : ∀ l q q', CleanRotation secretKey tid l q → Rotated secretKey tid q →
      (server ext).step l q = some q' → Rotated secretKey tid q' :=
    fun l q q' hK hq hstep => rotated_of_step hK.1 hq hstep
  have hrotated : Rotated secretKey tid p := hlater.keeps hstays hrotates.rotated
  -- the request is at its lookup, or has been refused
  have hplace : Rotated secretKey tid p' ∧ ∃ th, p'.threads agent = some th ∧
      (th.prog = req.handle ext caller ∨ ∃ reply, th.prog = .pure reply ∧ Refused reply) := by
    apply hrun.keeps (I := fun q => Rotated secretKey tid q ∧ ∃ th, q.threads agent = some th ∧
      (th.prog = req.handle ext caller ∨ ∃ reply, th.prog = .pure reply ∧ Refused reply)) _
      ⟨hrotated, _, hagent, .inl rfl⟩
    rintro l q q' hK ⟨hq, th, hth, hprog⟩ hstep
    refine ⟨hstays l q q' hK hq hstep, ?_⟩
    rcases System.thread_of_step hstep hth with hsame | ⟨c, o, k, ℓ, r, rfl, rfl, hexec, hnext⟩
    · exact ⟨th, hsame, hprog⟩
    · rcases hprog with hlookup | ⟨reply, hend, -⟩
      · -- it takes its lookup, in a state where no node has the key
        rw [hhandle] at hlookup
        exact ⟨_, hnext, .inr (refused_of_op hq.gone hlookup.symm hexec)⟩
      · cases hend
  exact hplace.2

end Rotation

/-! ## One node -/

/-- An edge node. -/
def edgeNode : Node :=
  { toStamps := Base.zero, name := "edge", address := "http://edge", secretKey := "old" }

/-- The pool after start-up on a database with this node, which gets the id 1. -/
def edgePool : ServerPool :=
  ⟨State.boot { emptyDatabase with node := Table.empty.create edgeNode 0 } 0, fun _ => none⟩

theorem edgePool_initial : Initial plainExternals edgePool :=
  ⟨⟨{ emptyDatabase with node := Table.empty.create edgeNode 0 }, 0,
    .op ⟨{}, trivial, rfl⟩ (.pure _ _)⟩, fun _ => rfl⟩

/-- The draw of the new key. -/
def newKey : Choice := { text := "0123456789abcdef0123456789abcdef" }

/-- Fresh keys are drawn where no choice is the old key. -/
theorem freshKeys_of_run {secretKey : String} {tid : Nat} {ls : List (Label Choice Start)}
    {p p' : ServerPool} (h : (server plainExternals).run ls p = some p')
    (hls : ∀ l ∈ ls, ∀ tid c, l = .op tid c → c.text ≠ secretKey) :
    (server plainExternals).Reach (FreshKeys secretKey tid) p p' := by
  apply System.reach_of_labels h
  intro l hl q
  cases l with
  | spawn tid' x => trivial
  | op tid' c => exact fun _ _ _ => hls _ hl tid' c rfl

/-- A rotation that no other request accompanies; a request with the old key is then refused. -/
theorem key_rotation_final_alone :
    ∃ q₀ q q₁ p p', Rotates plainExternals CleanRotation "old" 0 q₀ q q₁ ∧
      (server plainExternals).Reach (CleanRotation "old" 0) q₁ p ∧
      (server plainExternals).Reach (CleanRotation "old" 0) p p' ∧
      ∃ th reply, p'.threads 1 = some th ∧ th.prog = .pure reply ∧ Refused reply := by
  have hrun : ∃ q₀ q q₁ p p' r ℓ reply ℓ',
      (server plainExternals).run [.spawn 0 (.request ⟨0, ""⟩ (.regenerateNodeKey 1))] edgePool =
        some q₀ ∧
      q₀.threads 0 = some ⟨Request.handle plainExternals ⟨0, ""⟩ (.regenerateNodeKey 1), .init⟩ ∧
      (server plainExternals).Reach (CleanRotation "old" 0) q₀ q ∧
      (∃ row, q.shared.db.node.byId 1 = some row ∧ row.secretKey = "old") ∧
      (CleanRotation "old" 0 (.op 0 {}) q ∧ (server plainExternals).step (.op 0 {}) q = some q₁) ∧
      q₁.threads 0 = some ⟨.pure (.response r), ℓ⟩ ∧ r.isSuccess = true ∧
      (server plainExternals).Reach (CleanRotation "old" 0) q₁ p ∧
      p.threads 1 = some ⟨Request.handle plainExternals ⟨0, ""⟩ (.agentGetTasks "old" none), .init⟩ ∧
      (server plainExternals).Reach (CleanRotation "old" 0) p p' ∧
      p'.threads 1 = some ⟨.pure reply, ℓ'⟩ := by
    refine ⟨_, _, _, _, _, _, _, _, _, rfl, rfl,
      .head ⟨.op 0 {}, ⟨fun _ _ _ => by decide, ?_⟩, rfl⟩
        (.head ⟨.op 0 newKey, ⟨fun _ _ _ => by decide, ?_⟩, rfl⟩ .refl),
      ⟨_, rfl, rfl⟩, ⟨⟨fun _ _ _ => by decide, ?_⟩, rfl⟩, rfl, rfl,
      .single ⟨.spawn 1 (.request ⟨0, ""⟩ (.agentGetTasks "old" none)), ⟨trivial, trivial⟩, rfl⟩, rfl,
      .single ⟨.op 1 {}, ⟨fun _ _ _ => by decide, nofun⟩, rfl⟩, rfl⟩
    · rintro - row ⟨k, ℓ, hat⟩
      cases hat
    · rintro - row ⟨k, ℓ, hat⟩
      cases hat
    · -- at the save there is no other thread, and no other node
      rintro - row ⟨k, ℓ, hat⟩
      cases hat
      constructor
      · intro other th hne hth
        simp [edgePool, hne] at hth
      · intro i node hne hnode
        have hother : i ≠ 1 := hne
        have honly : (Table.empty.create edgeNode 0).byId i = some node := hnode
        rw [Table.byId_create] at honly
        split at honly
        · contradiction
        · cases honly
  obtain ⟨q₀, q, q₁, p, p', r, ℓ, reply, ℓ', h₀, hth₀, hq, hold, hsave, hreturned, hsuccess, hp, hth,
    hp', hth'⟩ := hrun
  have hrotates : Rotates plainExternals CleanRotation "old" 0 q₀ q q₁ :=
    { reached := ⟨edgePool, edgePool_initial, System.reach_of_run h₀⟩
      received := ⟨⟨0, ""⟩, 1, hth₀, hold⟩
      works := hq
      saves := ⟨{}, hsave⟩
      returned := ⟨r, ℓ, hreturned, hsuccess⟩ }
  obtain ⟨th, hthread, hlookup | hrefused⟩ := key_rotation_final plainExternals "old" 0 q₀ q q₁ p
    hrotates hp 1 ⟨0, ""⟩ (.agentGetTasks "old" none) p' rfl hth hp'
  · rw [hth'] at hthread
    cases hthread
    cases hlookup
  · obtain ⟨reply', hend, hrefused'⟩ := hrefused
    exact ⟨q₀, q, q₁, p, p', hrotates, hp, hp', th, reply', hthread, hend, hrefused'⟩

/-- A heartbeat reads the row before the rotation and saves it after: the old key is good again. -/
theorem heartbeat_restores_key : ¬ RotationFinal plainExternals FreshKeys := by
  intro hfinal
  have hrun : ∃ q₀ q q₁ p p' r ℓ r' ℓ',
      (server plainExternals).run [.spawn 0 (.request ⟨0, ""⟩ (.agentHeartbeat "old" {})), .op 0 {},
        .op 0 {}, .spawn 1 (.request ⟨0, ""⟩ (.regenerateNodeKey 1))] edgePool = some q₀ ∧
      q₀.threads 1 = some ⟨Request.handle plainExternals ⟨0, ""⟩ (.regenerateNodeKey 1), .init⟩ ∧
      (server plainExternals).run [.op 1 {}, .op 1 newKey] q₀ = some q ∧
      (∃ row, q.shared.db.node.byId 1 = some row ∧ row.secretKey = "old") ∧
      (server plainExternals).step (.op 1 {}) q = some q₁ ∧
      q₁.threads 1 = some ⟨.pure (.response r), ℓ⟩ ∧ r.isSuccess = true ∧
      (server plainExternals).run
        [.op 0 {}, .spawn 2 (.request ⟨0, ""⟩ (.agentGetTasks "old" none))] q₁ = some p ∧
      p.threads 2 = some ⟨Request.handle plainExternals ⟨0, ""⟩ (.agentGetTasks "old" none), .init⟩ ∧
      (server plainExternals).run [.op 2 {}, .op 2 {}] p = some p' ∧
      p'.threads 2 = some ⟨.pure (.response r'), ℓ'⟩ ∧ r'.isSuccess = true :=
    ⟨_, _, _, _, _, _, _, _, _, rfl, rfl, rfl, ⟨_, rfl, rfl⟩, rfl, rfl, rfl, rfl, rfl, rfl, rfl, rfl⟩
  obtain ⟨q₀, q, q₁, p, p', r, ℓ, r', ℓ', h₀, hth₀, hq, hold, hsave, hreturned, hsuccess, hp, hth,
    hp', hth', hsuccess'⟩ := hrun
  have hrotates : Rotates plainExternals FreshKeys "old" 1 q₀ q q₁ :=
    { reached := ⟨edgePool, edgePool_initial, System.reach_of_run h₀⟩
      received := ⟨⟨0, ""⟩, 1, hth₀, hold⟩
      works := freshKeys_of_run hq (by simp [newKey])
      saves := ⟨{}, fun _ _ _ => by decide, hsave⟩
      returned := ⟨r, ℓ, hreturned, hsuccess⟩ }
  obtain ⟨th, hthread, hlookup | ⟨reply, hend, hrefused⟩⟩ := hfinal "old" 1 q₀ q q₁ p hrotates
    (freshKeys_of_run hp (by simp)) 2 ⟨0, ""⟩ (.agentGetTasks "old" none) p' rfl hth
    (freshKeys_of_run hp' (by simp))
  · rw [hth'] at hthread
    cases hthread
    cases hlookup
  · rw [hth'] at hthread
    cases hthread
    cases hend
    rcases hrefused with h | h <;> cases h <;> cases hsuccess'

end Gonitor.Concurrent
