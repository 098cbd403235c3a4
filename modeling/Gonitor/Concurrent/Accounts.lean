import Gonitor.Requests.Footprints
import Gonitor.Requests.Guarantees
import Gonitor.Requests.Tables

/-!
# Accounts and Sessions Side by Side

`RegisterNewUser` looks the account up and inserts the user, `GenerateToken` deletes the tokens of
the user and inserts a new one; no transaction holds the two statements together, and no index makes
the columns unique.  Between the two a request *holds* the key it has made sure of.

## Main Results

- `accounts_distinct`: while no request inserts what another one holds, accounts are unique and
  sessions single in every reachable pool.
- `accounts_doubled`: two requests for one account, and two logins, taking turns.
-/

namespace Gonitor.Concurrent.Accounts

open Gonitor.Model Gonitor.Server Gonitor.Controller Gonitor.Requests AtomicProgram SoftDelete

/-! ## The pool -/

/-- What a request makes sure of before it inserts a row: the account is not taken, the user has no
    token. -/
inductive Key
  | account (loginAccount : String)
  | tokens (userID : Int)
  deriving DecidableEq

/-- The key that a request holds after an operation. -/
def next (held : Option Key) : (o : Op) → o.Res → Option Key
  | .db (.findUserByAccount loginAccount), .error .recordNotFound => some (.account loginAccount)
  | .db (.deleteUserTokens userID), .ok _ => some (.tokens userID)
  | .world _, _ => held
  | _, _ => none

/-- Users and tokens are inserted under keys that are held. -/
def Allowed (held : Option Key) : Op → Prop
  | .db (.createUser row) => held = some (.account row.loginAccount)
  | .db (.createUserToken row) => held = some (.tokens row.userID)
  | .db (.saveUser _) | .db (.deleteUser _) => False
  | _ => True

/-- The requests of this pool. -/
inductive Start
  | addUser (caller : Caller) (body : Except String NewUserForm)
  | userLogin (clientIP loginAccount password : String)

/-- Requests start at any time. -/
def spawn (ext : Externals) (x : Start) (_ : State) :
    Option (Thread Op Op.Res Reply (Option Key)) :=
  match x with
  | .addUser caller body => some ⟨Controller.addUser caller body, none⟩
  | .userLogin clientIP loginAccount password =>
    some ⟨Controller.userLogin ext clientIP loginAccount password, none⟩

/-- `AddUser` and `UserLogin` requests taking turns, operation by operation. -/
def accounts (ext : Externals) : System Op Op.Res Reply State (Option Key) Choice Start where
  exec := exec ext
  next := next
  spawn := spawn ext

abbrev AccountPool := Pool Op Op.Res Reply State (Option Key)

/-- No request is in progress. -/
def Quiet (p : AccountPool) : Prop := ∀ tid th, p.threads tid = some th → th.prog.isDone = true

/-- No account is used twice, and no user has two tokens. -/
structure Single (users : Table User) (tokens : Table UserToken) : Prop where
  accounts : users.Distinct User.loginAccount
  sessions : tokens.Distinct UserToken.userID

/-- Accounts are unique and sessions single whenever nothing is in progress. -/
def SingleWhenQuiet (ext : Externals) (K : Label Choice Start → AccountPool → Prop) : Prop :=
  ∀ p₀ p : AccountPool, Single p₀.shared.db.user p₀.shared.db.userToken →
    (∀ tid, p₀.threads tid = none) → (accounts ext).Reach K p₀ p → Quiet p →
    Single p.shared.db.user p.shared.db.userToken

/-- The thread has not ended, and holds the key. -/
def Holds (th : Thread Op Op.Res Reply (Option Key)) (k : Key) : Prop :=
  th.prog.isDone = false ∧ th.loc = some k

/-- The operation inserts a user or a token. -/
def Inserts : Op → Prop
  | .db (.createUser _) | .db (.createUserToken _) => True
  | _ => False

/-- A request that inserts does not insert what another one holds. -/
def NoOverlap : Label Choice Start → AccountPool → Prop
  | .spawn _ _, _ => True
  | .op tid _, p => ∀ o cont k, p.threads tid = some ⟨.op o cont, some k⟩ → Inserts o →
    ∀ tid' th', tid' ≠ tid → p.threads tid' = some th' → ¬ Holds th' k

/-! ## The code follows the discipline -/

section Discipline

variable {ext : Externals} {held : Option Key} {α : Type}

/-- From the key `held` on, the program inserts under keys that it holds only. -/
def Follows (p : Program α) (held : Option Key) : Prop :=
  p.wp Allowed (fun o ℓ r ℓ' => ℓ' = next ℓ o r) (fun _ _ => True) held

theorem Follows.call_bind {o : Op} {f : o.Res → Program α} (ho : Allowed held o)
    (hf : ∀ r, Follows (f r) (next held o r)) : Follows (Prog.call o >>= f) held := by
  refine ⟨ho, ?_⟩
  rintro r _ rfl
  exact hf r

theorem Follows.of_plain {p : Program α} (hp : p.Uses Plain) (held : Option Key) :
    Follows p held := by
  apply hp.wp (I := fun _ => True) _ trivial
  intro o held ho _
  refine ⟨?_, fun _ _ _ => trivial⟩
  unfold Plain at ho
  split at ho
  case h_15 => exact ho.elim
  all_goals trivial

/-- What follows the insertion is the entry of the operation log. -/
theorem logged_follows (userId targetId : Int) (opType remark : String) (reply : Reply) :
    Follows (addOperationLog userId targetId opType remark >>= fun _ => pure reply) held :=
  have hlog : (addOperationLog userId targetId opType remark >>= fun _ => pure reply).Uses Plain :=
    (addOperationLog_uses userId targetId opType remark).bind fun _ => trivial
  .of_plain hlog held

theorem addUser_follows (caller : Caller) (body : Except String NewUserForm) :
    Follows (Controller.addUser caller body) held := by
  unfold Controller.addUser
  cases body with
  | error err => trivial
  | ok form =>
    dsimp only
    split
    · trivial
    · split
      · trivial
      · refine .call_bind trivial fun r => ?_
        cases r with
        | error err => trivial
        | ok hashedPassword =>
          unfold registerNewUser
          dsimp only
          split
          · trivial
          · refine .call_bind trivial fun r => ?_
            cases r with
            | ok found => trivial
            | error err =>
              cases err with
              | failure text => trivial
              | recordNotFound =>
                -- the account has just been found free
                refine .call_bind rfl fun r => ?_
                cases r with
                | error err => trivial
                | ok newUser => exact logged_follows _ _ _ _ _

theorem userLogin_follows (clientIP loginAccount password : String) :
    Follows (Controller.userLogin ext clientIP loginAccount password) held := by
  refine .call_bind trivial fun r => ?_
  cases r with
  | error err => trivial
  | ok user =>
    dsimp only
    split
    · trivial
    · refine .call_bind trivial fun r => ?_
      cases r with
      | error err => trivial
      | ok _ =>
        -- drawing the token and reading the clock change nothing
        refine .call_bind trivial fun token => .call_bind trivial fun instant => ?_
        refine .call_bind rfl fun r => ?_
        cases r with
        | error err => trivial
        | ok _ => exact logged_follows _ _ _ _ _

theorem spawn_follows (x : Start) (s : State) (th : Thread Op Op.Res Reply (Option Key))
    (h : spawn ext x s = some th) : Follows th.prog th.loc := by
  cases x with
  | addUser caller body =>
    cases h
    exact addUser_follows caller body
  | userLogin clientIP loginAccount password =>
    cases h
    exact userLogin_follows clientIP loginAccount password

end Discipline

/-! ## What is held is free -/

/-- No live row has the key. -/
def Key.Free (users : Table User) (tokens : Table UserToken) : Key → Prop
  | .account loginAccount => users.Free User.loginAccount loginAccount
  | .tokens userID => tokens.Free UserToken.userID userID

/-- Accounts and sessions are single, and what a request holds is free. -/
structure Guarded (p : AccountPool) : Prop where
  single : Single p.shared.db.user p.shared.db.userToken
  free : ∀ tid th k, p.threads tid = some th → Holds th k →
    k.Free p.shared.db.user p.shared.db.userToken

section Steps

variable {ext : Externals} {c : Choice} {s s' : State}

/-- What a query for an account did not find is free. -/
theorem free_of_findUserByAccount {loginAccount : String}
    (h : exec ext (.db (.findUserByAccount loginAccount)) c s =
      some (.error .recordNotFound, s')) : (Key.account loginAccount).Free s'.db.user s'.db.userToken := by
  obtain ⟨-, hr, rfl⟩ := exec_db h
  apply Table.free_of_first
  simp only [DbOp.exec, query] at hr
  split at hr
  · cases hr
  · cases hfirst : s.db.user.first (fun u => u.loginAccount == loginAccount) with
    | none => exact hfirst
    | some u =>
      rw [hfirst] at hr
      cases hr

/-- After the deletion the user has no token. -/
theorem free_of_deleteUserTokens {userID : Int} {u : Unit}
    (h : exec ext (.db (.deleteUserTokens userID)) c s = some (.ok u, s')) :
    (Key.tokens userID).Free s'.db.user s'.db.userToken := by
  obtain ⟨-, hr, rfl⟩ := exec_db h
  simp only [DbOp.exec, statement] at hr
  split at hr
  · cases hr
  · rename_i hok
    have hfree := Table.free_deleteWhere s.db.userToken UserToken.userID userID (s.clock + c.elapsed)
    simpa only [Key.Free, DbOp.exec, statement, if_neg hok] using hfree

/-- What an operation makes its thread hold is free afterwards. -/
theorem free_of_next {o : Op} {r : o.Res} {held : Option Key} {k : Key}
    (hexec : exec ext o c s = some (r, s')) (hk : next held o r = some k)
    (hheld : ∀ w, o = .world w → held = some k → k.Free s'.db.user s'.db.userToken) :
    k.Free s'.db.user s'.db.userToken := by
  unfold next at hk
  split at hk
  · cases hk
    exact free_of_findUserByAccount hexec
  · cases hk
    exact free_of_deleteUserTokens hexec
  · exact hheld _ rfl hk
  · cases hk

/-- An operation under the discipline keeps accounts and sessions single; what was free stays free,
    unless it is the key under which a row is inserted. -/
theorem Single.step {users users' : Table User} {tokens tokens' : Table UserToken} {now : Time}
    {o : Op} {held : Option Key} (h : Single users tokens)
    (hfree : ∀ k, held = some k → k.Free users tokens) (ho : Allowed held o)
    (hstep : AccountStep c now users tokens o users' tokens') :
    Single users' tokens' ∧
      ∀ k : Key, k.Free users tokens → (Inserts o → held ≠ some k) → k.Free users' tokens' := by
  cases hstep with
  | same => exact ⟨h, fun k hk _ => hk⟩
  | @created row hok =>
    refine ⟨⟨h.accounts.create (hfree _ ho), h.sessions⟩, fun k hk hne => ?_⟩
    cases k with
    | account loginAccount =>
      apply Table.Free.create hk
      rintro rfl
      exact hne trivial ho
    | tokens userID => exact hk
  | saved | deleted => exact ho.elim
  | @tokensDeleted id hok =>
    refine ⟨⟨h.accounts, h.sessions.deleteWhere now⟩, fun k hk _ => ?_⟩
    cases k with
    | account loginAccount => exact hk
    | tokens userID => exact Table.Free.deleteWhere hk now
  | @tokenCreated row hok =>
    refine ⟨⟨h.accounts, h.sessions.create (hfree _ ho)⟩, fun k hk hne => ?_⟩
    cases k with
    | account loginAccount => exact hk
    | tokens userID =>
      apply Table.Free.create hk
      rintro rfl
      exact hne trivial ho

end Steps

/-! ## In every pool -/

/-- A server that has just been started on an empty database. -/
def emptyPool : AccountPool := ⟨State.boot emptyDatabase 0, fun _ => none⟩

theorem emptyPool_single : Single emptyPool.shared.db.user emptyPool.shared.db.userToken :=
  ⟨Table.distinct_of_rows_nil rfl, Table.distinct_of_rows_nil rfl⟩

/-- The form of a new user. -/
def somebody : NewUserForm :=
  { loginAccount := "somebody", password := "secret", confirmPassword := "secret" }

/-- **While no request inserts what another one holds**, accounts are unique and sessions single
    at any moment, and so whenever nothing is in progress. -/
theorem accounts_distinct (ext : Externals) : SingleWhenQuiet ext NoOverlap := by
  intro p₀ p hsingle hnone hreach _
  have hguarded : Guarded p₀ := by
    refine ⟨hsingle, fun tid th k hth => ?_⟩
    rw [hnone] at hth
    cases hth
  have hdisciplined : (accounts ext).Disciplined Allowed (fun _ => True) p₀ := by
    intro tid th hth
    rw [hnone] at hth
    cases hth
  refine (System.invariant (M := accounts ext) (I := Guarded) spawn_follows ?_ ?_ hdisciplined
    hguarded hreach).2.single
  · intro p tid x th _ hp _ _ hspawn
    refine ⟨hp.single, fun tid' th' k hth' hholds => ?_⟩
    rcases update_eq_some hth' with ⟨-, hnew⟩ | ⟨-, hold⟩
    · -- a request that starts holds nothing
      cases hnew
      cases x <;> cases hspawn <;> cases hholds.2
    · exact hp.free tid' th' k hold hholds
  · intro p tid c o cont held r s' _ hp hK hth ho hexec
    have hheld : ∀ k, held = some k → k.Free p.shared.db.user p.shared.db.userToken := by
      rintro k rfl
      exact hp.free tid _ k hth ⟨rfl, rfl⟩
    obtain ⟨hsingle', hstays⟩ := hp.single.step hheld ho (accountStep_of_exec hexec).1
    refine ⟨hsingle', fun tid' th' k hth' hholds => ?_⟩
    rcases update_eq_some hth' with ⟨-, hnew⟩ | ⟨hne, hold⟩
    · cases hnew
      apply free_of_next hexec hholds.2
      rintro w rfl hkey
      exact hstays k (hheld k hkey) fun hinserts => hinserts.elim
    · apply hstays k (hp.free tid' th' k hold hholds)
      rintro hinserts rfl
      exact hK o cont k hth hinserts tid' th' hne hold hholds

/-- Threads of higher numbers than those of its steps have not been started by a run. -/
theorem quiet_of_run {ext : Externals} {ls : List (Label Choice Start)} {n : Nat} {p : AccountPool}
    (h : (accounts ext).run ls emptyPool = some p) (hls : ∀ l ∈ ls, l.tid < n)
    (hdone : ∀ tid < n, (p.threads tid).all (fun th => th.prog.isDone) = true) : Quiet p := by
  intro tid th hth
  by_cases htid : tid < n
  · simpa [hth] using hdone tid htid
  · have hne : ∀ l ∈ ls, l.tid ≠ tid := fun l hl => by
      have := hls l hl
      omega
    rw [(System.threads_of_run h hne).1] at hth
    cases hth

/-- Two requests that add different users take turns. -/
def apart : List (Label Choice Start) :=
  [.spawn 0 (.addUser ⟨0, ""⟩ (.ok somebody)),
    .spawn 1 (.addUser ⟨0, ""⟩ (.ok { somebody with loginAccount := "another" })),
    .op 0 {}, .op 1 {}, .op 0 {}, .op 1 {}, .op 0 {}, .op 1 {}, .op 0 {}, .op 1 {}]

/-- Both users are there at the end, with their own accounts. -/
theorem accounts_distinct_apart : ∃ p, (accounts plainExternals).Reach NoOverlap emptyPool p ∧
    Quiet p ∧ (p.shared.db.user.byId 1).isSome = true ∧ (p.shared.db.user.byId 2).isSome = true ∧
    Single p.shared.db.user p.shared.db.userToken := by
  have hrun : ∃ p, (accounts plainExternals).run apart emptyPool = some p ∧
      (p.threads 0).all (fun th => th.prog.isDone) = true ∧
      (p.threads 1).all (fun th => th.prog.isDone) = true ∧
      (p.shared.db.user.byId 1).isSome = true ∧ (p.shared.db.user.byId 2).isSome = true :=
    ⟨_, rfl, rfl, rfl, rfl, rfl⟩
  obtain ⟨p, hp, hfirst, hsecond, huser, huser'⟩ := hrun
  have hreach : (accounts plainExternals).Reach NoOverlap emptyPool p := by
    apply System.reach_of_steps hp
    have hsteps : (accounts plainExternals).steps apart emptyPool =
      [(_, _), (_, _), (_, _), (_, _), (_, _), (_, _), (_, _), (_, _), (_, _), (_, _)] := rfl
    simp only [hsteps, List.forall_mem_cons]
    refine ⟨trivial, trivial, ?_, ?_, ?_, ?_, ?_, ?_, ?_, ?_, by simp⟩
    -- where one of them inserts its user, the other holds another account
    all_goals
      rintro o cont k ⟨⟩ ⟨⟩ (_ | _ | tid') th' hne ⟨⟩ ⟨-, hloc⟩ <;>
        first | exact hne rfl | exact absurd hloc (by decide)
  have hquiet : Quiet p := by
    apply quiet_of_run hp (n := 2)
    · decide
    · intro tid htid
      rcases Nat.lt_succ_iff_lt_or_eq.mp htid with hlt | rfl
      · rwa [Nat.lt_one_iff.mp hlt]
      · exact hsecond
  exact ⟨p, hreach, hquiet, huser, huser',
    accounts_distinct plainExternals emptyPool p emptyPool_single (fun _ => rfl) hreach hquiet⟩

/-- Two requests add the same user, each looking the account up before the other inserts it; then
    two logins each delete the tokens of the user before the other inserts one. -/
def takingTurns : List (Label Choice Start) :=
  [.spawn 0 (.addUser ⟨0, ""⟩ (.ok somebody)), .spawn 1 (.addUser ⟨0, ""⟩ (.ok somebody)),
    .op 0 {}, .op 1 {}, .op 0 {}, .op 1 {}, .op 0 {}, .op 1 {}, .op 0 {}, .op 1 {},
    .spawn 2 (.userLogin "" "somebody" "secret"), .spawn 3 (.userLogin "" "somebody" "secret"),
    .op 2 {}, .op 3 {}, .op 2 {}, .op 3 {},
    .op 2 { text := "aaaaaaaaaaaaaaaaaaaaaaaaaaaaaaaa" }, .op 2 {}, .op 2 {}, .op 2 {}, .op 2 {},
    .op 3 { text := "bbbbbbbbbbbbbbbbbbbbbbbbbbbbbbbb" }, .op 3 {}, .op 3 {}, .op 3 {}, .op 3 {}]

/-- At the end of it there are two users with one account, and two tokens of one user. -/
theorem accounts_doubled : ∃ p, (accounts plainExternals).Reach (fun _ _ => True) emptyPool p ∧
    Quiet p ∧ ¬ p.shared.db.user.Distinct User.loginAccount ∧
    ¬ p.shared.db.userToken.Distinct UserToken.userID := by
  have hrun : ∃ p, (accounts plainExternals).run takingTurns emptyPool = some p ∧
      ((p.threads 0).all (fun th => th.prog.isDone) = true ∧
        (p.threads 1).all (fun th => th.prog.isDone) = true ∧
        (p.threads 2).all (fun th => th.prog.isDone) = true ∧
        (p.threads 3).all (fun th => th.prog.isDone) = true) ∧
      (∃ u u', p.shared.db.user.byId 1 = some u ∧ p.shared.db.user.byId 2 = some u' ∧
        u.loginAccount = u'.loginAccount) ∧
      ∃ t t', p.shared.db.userToken.byId 1 = some t ∧ p.shared.db.userToken.byId 2 = some t' ∧
        t.userID = t'.userID :=
    ⟨_, rfl, ⟨rfl, rfl, rfl, rfl⟩, ⟨_, _, rfl, rfl, rfl⟩, _, _, rfl, rfl, rfl⟩
  obtain ⟨p, hp, ⟨h₀, h₁, h₂, h₃⟩, ⟨u, u', hu, hu', haccount⟩, t, t', ht, ht', huser⟩ := hrun
  refine ⟨p, System.reach_of_run hp, ?_, ?_, ?_⟩
  · apply quiet_of_run hp (n := 4)
    · decide
    · intro tid htid
      have hcases : tid = 0 ∨ tid = 1 ∨ tid = 2 ∨ tid = 3 := by omega
      rcases hcases with rfl | rfl | rfl | rfl
      · exact h₀
      · exact h₁
      · exact h₂
      · exact h₃
  · exact fun hdistinct => absurd (hdistinct 1 2 u u' hu hu' haccount) (by decide)
  · exact fun hdistinct => absurd (hdistinct 1 2 t t' ht ht' huser) (by decide)

/-- With nothing to keep requests apart, accounts are not unique. -/
theorem not_singleWhenQuiet : ¬ SingleWhenQuiet plainExternals fun _ _ => True := by
  intro hsingle
  obtain ⟨p, hreach, hquiet, hdoubled, -⟩ := accounts_doubled
  exact hdoubled (hsingle emptyPool p emptyPool_single (fun _ => rfl) hreach hquiet).accounts

end Gonitor.Concurrent.Accounts
