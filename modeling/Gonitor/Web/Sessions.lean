import Gonitor.Requests.Guarantees
import Gonitor.Requests.Tables
import Gonitor.Web.Authentication

/-!
# Sessions

A login makes a token that is good for a day.  `CheckToken` looks at the token and never at its
user, and `DeleteUser` leaves the tokens of the user where they are.

## Main Results

- `sessions_end_with_user`: where no user is deleted who has a token that is still good, every good
  token belongs to a live user, and nobody gets through under the id of a deleted one.
- `deleted_user_passes`: a user who is deleted while logged in keeps a good token.
-/

namespace Gonitor.Web

open Gonitor.Model Gonitor.Server Gonitor.Controller Gonitor.Requests AtomicProgram SoftDelete

/-! ## Histories -/

/-- The token table that the check leaves. -/
def tokensAfter : Handled → Table UserToken
  | .ok c => c.userToken
  | .error x => x.2.userToken

/-- A request about users is served, a token is checked, or time passes. -/
inductive SessionStep (ext : Externals) (K : State → Op → Choice → Prop) (s : State) : State → Prop
  | request {req : Requests.Request} {reply : Reply} {s' : State} : req.isUserRequest = true →
      Serves ext K req reply s s' → SessionStep ext K s s'
  | checked {w : World} {c : Context} : c.userToken = s.db.userToken → s.clock ≤ w.now →
      Finds c.userToken c.request.token w.query →
      SessionStep ext K s
        { s with clock := w.now, db := { s.db with userToken := tokensAfter (checkToken w c) } }
  | elapsed (d : Nat) : SessionStep ext K s { s with clock := s.clock + d }

/-- The states that are reached from a server without tokens. -/
def SessionReachable (ext : Externals) (K : State → Op → Choice → Prop) (s : State) : Prop :=
  ∃ s₀, s₀.db.userToken.rows = [] ∧ Relation.ReflTransGen (SessionStep ext K) s₀ s

/-- The user is live. -/
def UserLive (s : State) (userId : Int) : Prop := ∃ user, s.db.user.byId userId = some user

/-- A live token that has not expired. -/
def GoodToken (s : State) (now : Time) (row : UserToken) : Prop :=
  s.db.userToken.byId row.id = some row ∧ expired now row = false

/-- Every good token belongs to a live user. -/
def SessionsLive (s : State) : Prop := ∀ row, GoodToken s s.clock row → UserLive s row.userID

/-- The step deletes no user who has a good token. -/
def SettledStep (s : State) (o : Op) (c : Choice) : Prop :=
  match o with
  | .db (.deleteUser id) =>
    c.fail = false → ∀ row, GoodToken s (s.clock + c.elapsed) row → row.userID ≠ id
  | _ => True

/-- A token that has expired stays so. -/
theorem expired_mono {now now' : Time} (h : now ≤ now') {row : UserToken}
    (hnew : expired now' row = false) : expired now row = false := by
  unfold expired at hnew ⊢
  simp only [Bool.and_eq_false_imp, bne_iff_ne, ne_eq, decide_eq_false_iff_not, not_lt] at hnew ⊢
  intro hne
  exact le_trans h (hnew hne)

theorem GoodToken.earlier {s : State} {now now' : Time} {row : UserToken} (h : now ≤ now')
    (hgood : GoodToken s now' row) : GoodToken s now row :=
  ⟨hgood.1, expired_mono h hgood.2⟩

/-! ## What the requests do -/

/-- No user is deleted, rows of users are saved live, and tokens are made for users in `U`. -/
def SessionWork (U : Int → Prop) : Op → Prop
  | .db (.createUserToken row) => U row.userID
  | .db (.saveUser row) => live row = true
  | .db (.deleteUser _) => False
  | _ => True

section Steps

variable {ext : Externals} {s s' : State} {o : Op} {c : Choice} {r : o.Res}

/-- Live users stay live through such an operation. -/
theorem userLive_of_exec {U : Int → Prop} (ho : SessionWork U o)
    (h : exec ext o c s = some (r, s')) {userId : Int} (hlive : UserLive s userId) :
    UserLive s' userId := by
  obtain ⟨hstep, -⟩ := accountStep_of_exec h
  obtain ⟨user, huser⟩ := hlive
  unfold UserLive
  generalize s'.db.user = users' at hstep ⊢
  generalize s'.db.userToken = tokens' at hstep
  cases hstep with
  | same => exact ⟨user, huser⟩
  | created hok =>
    -- under the new id there is the new user
    rw [Table.byId_create]
    split
    · exact ⟨_, rfl⟩
    · exact ⟨user, huser⟩
  | @saved row _ hok hsave =>
    -- the row that is saved is live
    rw [Table.byId_save hsave ho]
    split
    · exact ⟨_, rfl⟩
    · exact ⟨user, huser⟩
  | deleted hok => exact ho.elim
  | tokensDeleted hok => exact ⟨user, huser⟩
  | tokenCreated hok => exact ⟨user, huser⟩

/-- A good token after the operation is one before it, or the one just made. -/
theorem goodToken_of_exec (h : exec ext o c s = some (r, s')) {row : UserToken}
    (hgood : GoodToken s' s'.clock row) :
    GoodToken s s'.clock row ∨ ∃ made, o = .db (.createUserToken made) ∧
      row.userID = made.userID := by
  obtain ⟨hstep, hclock⟩ := accountStep_of_exec h
  obtain ⟨hrow, hunexpired⟩ := hgood
  generalize s'.db.user = users' at hstep
  generalize s'.db.userToken = tokens' at hstep hrow
  cases hstep with
  | same => exact .inl ⟨hrow, hunexpired⟩
  | created hok => exact .inl ⟨hrow, hunexpired⟩
  | saved hok hsave => exact .inl ⟨hrow, hunexpired⟩
  | deleted hok => exact .inl ⟨hrow, hunexpired⟩
  | tokensDeleted hok => exact .inl ⟨(Table.byId_of_deleteWhere hrow).1, hunexpired⟩
  | @tokenCreated made hok =>
    rw [Table.byId_create] at hrow
    split at hrow
    · cases hrow
      exact .inr ⟨made, rfl, rfl⟩
    · exact .inl ⟨hrow, hunexpired⟩

theorem clock_le_of_exec (h : exec ext o c s = some (r, s')) : s.clock ≤ s'.clock := by
  obtain ⟨-, hclock⟩ := accountStep_of_exec h
  rw [hclock]
  exact Int.le_add_of_nonneg_right (Int.natCast_nonneg _)

/-- One operation of a request about users keeps the sessions live. -/
theorem sessionsLive_of_exec {U : Int → Prop} (ho : SessionWork U o)
    (h : exec ext o c s = some (r, s')) (hU : ∀ userId, U userId → UserLive s userId)
    (hs : SessionsLive s) : SessionsLive s' := by
  intro row hgood
  rcases goodToken_of_exec h hgood with hold | ⟨made, rfl, huser⟩
  · exact userLive_of_exec ho h (hs row (hold.earlier (clock_le_of_exec h)))
  · -- the token has just been made, for a live user
    rw [huser]
    exact userLive_of_exec ho h (hU _ ho)

/-- So does the deletion of a user without good tokens. -/
theorem sessionsLive_of_deleteUser {id : Int} {r : Except DbError Unit}
    (h : exec ext (.db (.deleteUser id)) c s = some (r, s'))
    (hsettled : SettledStep s (.db (.deleteUser id)) c) (hs : SessionsLive s) :
    SessionsLive s' := by
  intro row hgood
  rcases goodToken_of_exec h hgood with hold | ⟨made, heq, -⟩
  · obtain ⟨user, huser⟩ := hs row (hold.earlier (clock_le_of_exec h))
    obtain ⟨hstep, hclock⟩ := accountStep_of_exec h
    unfold UserLive
    generalize s'.db.user = users' at hstep ⊢
    generalize s'.db.userToken = tokens' at hstep
    cases hstep with
    | same => exact ⟨user, huser⟩
    | deleted hok =>
      -- the user of a good token is not the one deleted
      have hne : row.userID ≠ id := hsettled hok row (hclock ▸ hold)
      rw [Table.byId_delete, if_neg hne]
      exact ⟨user, huser⟩
  · cases heq

end Steps

section Requests

variable {ext : Externals}

/-- A program that does session work for live users keeps the sessions live. -/
theorem sessionsLive_of_uses {α : Type} {U : Int → Prop} {p : Program α}
    (hp : p.Uses (SessionWork U)) {s : State} (hU : ∀ userId, U userId → UserLive s userId)
    (hs : SessionsLive s) : Ensures ext SettledStep p (fun _ s' => SessionsLive s') s := by
  have hkeeps : Ensures ext SettledStep p (fun _ s' => SessionsLive s' ∧
      ∀ userId, U userId → UserLive s' userId) s := by
    apply hp.wp (I := fun s' : State => SessionsLive s' ∧ ∀ userId, U userId → UserLive s' userId)
      _ ⟨hs, hU⟩
    intro o s₁ ho hs₁
    refine ⟨trivial, ?_⟩
    rintro r s₂ ⟨c, -, hexec⟩
    exact ⟨sessionsLive_of_exec ho hexec hs₁.2 hs₁.1,
      fun userId huser => userLive_of_exec ho hexec (hs₁.2 userId huser)⟩
  exact hkeeps.mono fun _ _ h => h.1

theorem sessionWork_of_plain {U : Int → Prop} (o : Op) (h : Plain o) : SessionWork U o := by
  unfold Plain at h
  split at h
  case h_15 => exact h.elim
  all_goals trivial

/-- The answer after an audit entry. -/
theorem logged_sessionWork {U : Int → Prop} (userId targetId : Int) (opType remark : String)
    (reply : Reply) :
    (addOperationLog userId targetId opType remark >>= fun _ => pure reply).Uses
      (SessionWork U) :=
  ((addOperationLog_uses userId targetId opType remark).mono sessionWork_of_plain).bind
    fun _ => trivial

theorem generateToken_sessionWork (userId : Int) :
    (generateToken userId).Uses (SessionWork fun i => i = userId) := by
  refine Prog.Uses.call_bind trivial fun r => ?_
  cases r with
  | error err => trivial
  | ok _ =>
    -- the expired tokens are deleted, a token is drawn, the clock read, the token stored
    refine Prog.Uses.call_bind trivial fun token => Prog.Uses.call_bind trivial fun instant => ?_
    refine Prog.Uses.call_bind rfl fun r => ?_
    cases r <;> trivial

/-- `UserLogin` makes a token for a user it has found. -/
theorem userLogin_sessions (clientIP loginAccount password : String) {s : State}
    (hs : SessionsLive s) :
    Ensures ext SettledStep (userLogin ext clientIP loginAccount password)
      (fun _ s' => SessionsLive s') s := by
  refine Ensures.op fun c r s₁ _ h₁ => ?_
  have hs₁ : SessionsLive s₁ := sessionsLive_of_exec (U := fun _ => False)
    (show SessionWork _ (.db (.findUserByAccount loginAccount)) from trivial) h₁ nofun hs
  cases r with
  | error err => exact Ensures.pure hs₁
  | ok user =>
    have hlive : UserLive s₁ user.id := by
      obtain ⟨-, hr, rfl⟩ := exec_db h₁
      have hfirst := query_ok hr.symm
      have hp := List.find?_some hfirst
      simp only [Bool.and_eq_true] at hp
      exact ⟨user, Table.byId_of_mem (List.mem_of_find?_eq_some hfirst) hp.1⟩
    show Ensures ext SettledStep (if ¬ ext.checkPassword password user.password = true then _
      else _) _ s₁
    split
    · -- the password is wrong
      exact Ensures.pure hs₁
    · refine sessionsLive_of_uses (U := fun i => i = user.id) ?_ ?_ hs₁
      · refine (generateToken_sessionWork user.id).bind fun r => ?_
        cases r with
        | error err => trivial
        | ok token => exact logged_sessionWork _ _ _ _ _
      · rintro userId rfl
        exact hlive

theorem addUser_sessionWork (caller : Caller) (body : Except String NewUserForm) :
    (Controller.addUser caller body).Uses (SessionWork fun _ => False) := by
  unfold Controller.addUser
  cases body with
  | error err => trivial
  | ok form =>
    dsimp only
    split
    · trivial
    · split
      · trivial
      · refine Prog.Uses.call_bind trivial fun r => ?_
        cases r with
        | error err => trivial
        | ok hashedPassword =>
          have hregister : ∀ u, (registerNewUser u).Uses (SessionWork fun _ => False) := by
            intro u
            unfold registerNewUser
            split
            · trivial
            · refine Prog.Uses.call_bind trivial fun r => ?_
              cases r with
              | ok found => trivial
              | error err =>
                cases err with
                | failure text => trivial
                | recordNotFound =>
                  -- the account name is free
                  refine Prog.Uses.call_bind trivial fun r => ?_
                  cases r <;> trivial
          refine (hregister _).bind fun r => ?_
          cases r with
          | error err => trivial
          | ok newUser => exact logged_sessionWork _ _ _ _ _

/-- `EditUser` saves a row it has found. -/
theorem editUser_sessions (caller : Caller) (userId : Int) (body : Except String UserForm)
    {s : State} (hs : SessionsLive s) :
    Ensures ext SettledStep (Controller.editUser caller userId body)
      (fun _ s' => SessionsLive s') s := by
  unfold Controller.editUser
  cases body with
  | error err => exact Ensures.pure hs
  | ok form =>
    refine Ensures.op fun c r s₁ _ h₁ => ?_
    have hs₁ : SessionsLive s₁ := sessionsLive_of_exec (U := fun _ => False)
      (show SessionWork _ (.db (.userInfo userId)) from trivial) h₁ nofun hs
    cases r with
    | error err => exact Ensures.pure hs₁
    | ok userModel =>
      have hlive : live userModel = true := by
        obtain ⟨-, hr, -⟩ := exec_db h₁
        exact (Table.mem_of_byId (query_ok hr.symm)).2.2
      refine sessionsLive_of_uses (U := fun _ => False) ?_ nofun hs₁
      dsimp only
      split
      · trivial
      · split
        · trivial
        · refine Prog.Uses.call_bind trivial fun r => ?_
          cases r with
          | error err => trivial
          | ok hashedPassword =>
            -- the row as it was read, with the new columns
            refine Prog.Uses.call_bind hlive fun r => ?_
            cases r with
            | error err => trivial
            | ok _ => exact logged_sessionWork _ _ _ _ _

theorem deleteUser_sessions (caller : Caller) (userId : Int) {s : State} (hs : SessionsLive s) :
    Ensures ext SettledStep (Controller.deleteUser caller userId)
      (fun _ s' => SessionsLive s') s := by
  refine Ensures.op fun c r s₁ hsettled h₁ => ?_
  have hs₁ := sessionsLive_of_deleteUser h₁ hsettled hs
  cases r with
  | error err => exact Ensures.pure hs₁
  | ok _ =>
    -- the tokens of the user stay where they are
    exact sessionsLive_of_uses (U := fun _ => False) (logged_sessionWork _ _ _ _ _) nofun hs₁

/-- Every request about users keeps the sessions live. -/
theorem userRequest_sessions {req : Requests.Request} (hreq : req.isUserRequest = true)
    (caller : Caller) {s : State} (hs : SessionsLive s) :
    Ensures ext SettledStep (req.handle ext caller) (fun _ s' => SessionsLive s') s := by
  cases req with
  | userLogin loginAccount password =>
    exact userLogin_sessions caller.clientIP loginAccount password hs
  | addUser body => exact sessionsLive_of_uses (addUser_sessionWork caller body) nofun hs
  | editUser userId body => exact editUser_sessions caller userId body hs
  | deleteUser userId => exact deleteUser_sessions caller userId hs
  | _ => cases hreq

end Requests

/-! ## Checked tokens -/

section Checks

variable {s : State} {w : World} {c : Context}

/-- The check deletes a token or leaves all of them. -/
theorem byId_tokensAfter {i : Int} {row : UserToken}
    (h : (tokensAfter (checkToken w c)).byId i = some row) : c.userToken.byId i = some row := by
  unfold checkToken at h
  by_cases hnone : w.query.error = some .recordNotFound
  · rwa [if_pos hnone] at h
  · rw [if_neg hnone] at h
    by_cases hexpired : expired w.now w.query.userToken = true
    · -- an expired token is deleted, where the cleaning gets to it
      rw [if_pos hexpired] at h
      cases hcleans : w.cleans with
      | false => rwa [hcleans] at h
      | true =>
        rw [hcleans] at h
        have hdeleted : (c.userToken.delete w.query.userToken.id w.now).byId i = some row := h
        rw [Table.byId_delete] at hdeleted
        split at hdeleted
        · cases hdeleted
        · exact hdeleted
    · rwa [if_neg hexpired] at h

/-- What the check lets through, and what it hands to the action. -/
theorem checkToken_ok {c' : Context} (h : checkToken w c = .ok c') :
    expired w.now w.query.userToken = false ∧
      c' = (c.addParam "current_user_id" (toString w.query.userToken.userID)).addUserId
        (toString w.query.userToken.userID) := by
  simp only [checkToken] at h
  split at h
  · cases h
  · split at h
    · cases h
    · rename_i hunexpired
      cases h
      exact ⟨by simpa using hunexpired, rfl⟩

/-- The token that gets a request through is a good one, where the query has read one. -/
theorem passed_by_goodToken {c' : Context} (htokens : c.userToken = s.db.userToken)
    (hfinds : Finds c.userToken c.request.token w.query) (h : checkToken w c = .ok c') :
    w.query.userToken = UserToken.zero ∨ GoodToken s w.now w.query.userToken := by
  -- what the table holds under the presented token is live
  have hpresented : ∀ row ∈ presented c.userToken c.request.token,
      s.db.userToken.byId row.id = some row := by
    intro row hrow
    unfold presented at hrow
    split at hrow
    · obtain ⟨hmem, hp⟩ := List.mem_filter.mp hrow
      simp only [Bool.and_eq_true] at hp
      exact htokens ▸ Table.byId_of_mem hmem hp.1
    · cases hrow
  have hunexpired := (checkToken_ok h).1
  generalize w.query = query at hfinds hunexpired ⊢
  -- without a row the query leaves the empty token, which never expires
  cases hfinds with
  | row hrow => exact .inr ⟨hpresented _ hrow, hunexpired⟩
  | notFound hlength hnone => exact .inl rfl
  | failure text => exact .inl rfl
  | interrupted text hrow => exact .inr ⟨hpresented _ hrow, hunexpired⟩

end Checks

/-! ## Whole histories -/

section Histories

variable {ext : Externals}

/-- Every step of a history keeps the sessions live. -/
theorem SessionStep.sessionsLive {s s' : State} (h : SessionStep ext SettledStep s s')
    (hs : SessionsLive s) : SessionsLive s' := by
  cases h with
  | request hreq hserves =>
    obtain ⟨caller, hrun⟩ := hserves
    exact hrun.post (userRequest_sessions hreq caller hs)
  | checked htokens hclock hfinds =>
    intro row hgood
    have hrow := byId_tokensAfter hgood.1
    rw [htokens] at hrow
    exact hs row (GoodToken.earlier hclock ⟨hrow, hgood.2⟩)
  | elapsed d =>
    intro row hgood
    have hclock : s.clock ≤ s.clock + d := Int.le_add_of_nonneg_right (Int.natCast_nonneg d)
    exact hs row (GoodToken.earlier hclock hgood)

theorem SessionReachable.sessionsLive {s : State} (h : SessionReachable ext SettledStep s) :
    SessionsLive s := by
  obtain ⟨s₀, hnone, hhistory⟩ := h
  induction hhistory with
  | refl =>
    intro row hgood
    have hmem := (Table.mem_of_byId hgood.1).1
    rw [hnone] at hmem
    cases hmem
  | tail _ hstep ih => exact hstep.sessionsLive ih

/-- The id has been handed out, and no live user has it. -/
def UserGone (s : State) (userId : Int) : Prop :=
  s.db.user.byId userId = none ∧ userId < s.db.user.nextId

/-- No operation brings a user back, and no id is handed out twice. -/
theorem userGone_of_exec {s s' : State} {o : Op} {c : Choice} {r : o.Res} {userId : Int}
    (h : exec ext o c s = some (r, s')) (hgone : UserGone s userId) : UserGone s' userId := by
  obtain ⟨hstep, -⟩ := accountStep_of_exec h
  obtain ⟨hnone, hid⟩ := hgone
  unfold UserGone
  generalize s'.db.user = users' at hstep ⊢
  generalize s'.db.userToken = tokens' at hstep
  cases hstep with
  | same => exact ⟨hnone, hid⟩
  | created hok => exact ⟨Table.byId_create_eq_none hnone hid _ _, Int.lt_add_one_of_le hid.le⟩
  | saved hok hsave =>
    rw [Table.nextId_save hsave]
    exact ⟨Table.byId_save_eq_none hsave hnone, hid⟩
  | deleted hok => exact ⟨Table.byId_delete_eq_none _ _ (.inr hnone), hid⟩
  | tokensDeleted hok => exact ⟨hnone, hid⟩
  | tokenCreated hok => exact ⟨hnone, hid⟩

theorem userGone_of_runs {K : State → Op → Choice → Prop} {α : Type} {p : Program α} {s s' : State}
    {a : α} {userId : Int} (h : Prog.Runs (execStep ext K) p s a s') (hgone : UserGone s userId) :
    UserGone s' userId := by
  apply h.invariant (I := fun s => UserGone s userId) _ hgone
  rintro o s₁ r s₂ ⟨c, -, hexec⟩ h₁
  exact userGone_of_exec hexec h₁

/-- A user who is gone stays so. -/
theorem SessionStep.userGone {K : State → Op → Choice → Prop} {s s' : State} {userId : Int}
    (h : SessionStep ext K s s') (hgone : UserGone s userId) : UserGone s' userId := by
  cases h with
  | request hreq hserves =>
    obtain ⟨caller, hrun⟩ := hserves
    exact userGone_of_runs hrun hgone
  | checked htokens hclock hfinds => exact hgone
  | elapsed d => exact hgone

/-- `DeleteUser` answers success only when the user is gone. -/
theorem deleteUser_gone {K : State → Op → Choice → Prop} (caller : Caller) {userId : Int}
    {s : State} {user : User} (huser : s.db.user.row? userId = some user) :
    Ensures ext K (Controller.deleteUser caller userId) (fun reply s' =>
      ∀ r, reply = .response r → r.isSuccess = true → UserGone s' userId) s := by
  refine Ensures.op fun c r s₁ _ h₁ => ?_
  cases r with
  | error err =>
    apply Ensures.pure
    rintro r hr hsuccess
    cases hr
    cases hsuccess
  | ok _ =>
    have hgone : UserGone s₁ userId := by
      obtain ⟨-, hr, rfl⟩ := exec_db h₁
      simp only [DbOp.exec, statement] at hr ⊢
      split at hr
      · cases hr
      · rename_i hok
        rw [if_neg hok]
        have hid : userId < s.db.user.nextId := Table.rowId_lt_nextId huser
        exact ⟨Table.byId_delete_eq_none _ _ (.inl rfl), hid⟩
    apply Ensures.of_runs
    intro reply s₂ hrun _ _ _
    exact userGone_of_runs hrun hgone

/-- **Sessions end with their user** in every history whose steps delete no user who has a good
    token.  Once a user has been deleted in one, the check lets nothing through under the id of
    that user: what it hands to the action is another id, or 0 where the query has failed. -/
theorem sessions_end_with_user (ext : Externals) :
    (∀ s, SessionReachable ext SettledStep s → SessionsLive s) ∧
    (∀ s s₁ s₂ userId user r, SessionReachable ext SettledStep s →
      s.db.user.row? userId = some user →
      Serves ext SettledStep (.deleteUser userId) (.response r) s s₁ → r.isSuccess = true →
      Relation.ReflTransGen (SessionStep ext SettledStep) s₁ s₂ →
      ∀ w c c', c.userToken = s₂.db.userToken → s₂.clock ≤ w.now →
        Finds c.userToken c.request.token w.query → checkToken w c = .ok c' →
        ∃ id, id ≠ userId ∧ c' = (c.addParam "current_user_id" (toString id)).addUserId
          (toString id)) := by
  constructor
  · exact fun s hs => hs.sessionsLive
  · intro s s₁ s₂ userId user r hs huser hdelete hsuccess hlater w c c' htokens hclock hfinds hpass
    have hserved : SessionStep ext SettledStep s s₁ := .request rfl hdelete
    have hgone₁ : UserGone s₁ userId := by
      obtain ⟨caller, hrun⟩ := hdelete
      exact hrun.post (deleteUser_gone caller huser) r rfl hsuccess
    have hstays : ∀ {s₃}, Relation.ReflTransGen (SessionStep ext SettledStep) s₁ s₃ →
        UserGone s₃ userId := by
      intro s₃ hlater₃
      induction hlater₃ with
      | refl => exact hgone₁
      | tail _ hstep ih => exact hstep.userGone ih
    have hgone₂ := hstays hlater
    have hlive₂ : SessionsLive s₂ := by
      obtain ⟨s₀, hnone, hhistory⟩ := hs
      exact SessionReachable.sessionsLive ⟨s₀, hnone, (hhistory.tail hserved).trans hlater⟩
    refine ⟨w.query.userToken.userID, ?_, (checkToken_ok hpass).2⟩
    rintro rfl
    rcases passed_by_goodToken htokens hfinds hpass with hzero | hgood
    · -- ids start at 1, so no user has the id of the empty token
      obtain ⟨hmem, hid⟩ := Table.row?_eq_some huser
      have hpos := s.db.user.ids_pos _ hmem
      rw [hid, hzero] at hpos
      exact absurd hpos (by decide)
    · obtain ⟨user', huser'⟩ := hlive₂ _ (hgood.earlier hclock)
      rw [hgone₂.1] at huser'
      cases huser'

end Histories

/-- A server with one user and no tokens. -/
def oneUserState : State :=
  let user : User := { toStamps := Base.zero, loginAccount := "gopher", password := "secret" }
  State.boot { emptyDatabase with user := Table.empty.create user 0 } 0

/-- The token that the user gets. -/
def issuedToken : UserToken where
  toStamps := ⟨1, 0, 0, none⟩
  userID := 1
  token := "0123456789abcdef0123456789abcdef"
  expiredAt := tokenLifetime

/-- The user logs in, and the token is theirs; or the user is deleted first, and a query that fails
    then lets a request through under the id 0. -/
theorem sessions_end_with_user_oneUser :
    (∃ (s : State) (row : UserToken), GoodToken s s.clock row ∧ UserLive s row.userID) ∧
    ∃ w c c', ∃ id : Int, checkToken w c = .ok c' ∧ id ≠ 1 ∧
      c' = (c.addParam "current_user_id" (toString id)).addUserId (toString id) := by
  constructor
  · have hserved : ∃ (reply : Reply) (s : State),
        Serves plainExternals SettledStep (.userLogin "gopher" "secret") reply oneUserState s ∧
          GoodToken s s.clock issuedToken :=
      ⟨_, _, ⟨⟨0, ""⟩, .op ⟨{}, trivial, rfl⟩ (.op ⟨{}, trivial, rfl⟩
        (.op ⟨{ text := issuedToken.token }, trivial, rfl⟩
          (.op ⟨{}, trivial, rfl⟩ (.op ⟨{}, trivial, rfl⟩
            (.op ⟨{ fail := true }, trivial, rfl⟩ (.pure _ _))))))⟩, rfl, by decide⟩
    obtain ⟨reply, s, hlogin, hgood⟩ := hserved
    have hreach : SessionReachable plainExternals SettledStep s :=
      ⟨oneUserState, rfl, .single (.request rfl hlogin)⟩
    have hlive := (sessions_end_with_user plainExternals).1 s hreach issuedToken hgood
    exact ⟨s, issuedToken, hgood, hlive⟩
  · have hsettled : SettledStep oneUserState (.db (.deleteUser 1)) {} := by
      rintro - row ⟨hrow, -⟩
      cases hrow
    have hserved : ∃ r s, Serves plainExternals SettledStep (.deleteUser 1) (.response r)
        oneUserState s ∧ r.isSuccess = true ∧ s.db.userToken = Table.empty :=
      ⟨_, _, ⟨⟨0, ""⟩, .op ⟨{}, hsettled, rfl⟩
        (.op ⟨{ fail := true }, trivial, rfl⟩ (.pure _ _))⟩, rfl, rfl⟩
    obtain ⟨r, s, hdelete, hsuccess, htokens⟩ := hserved
    let w : World := ⟨⟨UserToken.zero, some (.failure "")⟩, s.clock, true⟩
    let c : Context := { request := ⟨"GET", "", [""], []⟩, params := [], userToken := Table.empty }
    obtain ⟨id, hne, heq⟩ := (sessions_end_with_user plainExternals).2 oneUserState s s 1
      _ r ⟨oneUserState, rfl, .refl⟩ rfl hdelete hsuccess .refl w c _ htokens.symm (le_refl _)
      (.failure "") rfl
    exact ⟨w, c, _, id, rfl, hne, heq⟩

/-- The user logs in and is deleted. -/
theorem deleted_user_passes :
    ¬ ∀ s, SessionReachable plainExternals AnyStep s → SessionsLive s := by
  intro hlive
  have hserved : ∃ s : State, serveWith plainExternals ⟨0, ""⟩
      [(.userLogin "gopher" "secret",
          [{}, {}, { text := issuedToken.token }, {}, {}, { fail := true }]),
        (.deleteUser 1, [{}, { fail := true }])] oneUserState = some s ∧
      GoodToken s s.clock issuedToken ∧ s.db.user.byId 1 = none :=
    ⟨_, rfl, ⟨rfl, by decide⟩, rfl⟩
  obtain ⟨s, hserve, hgood, hnone⟩ := hserved
  have hmany : ServesMany plainExternals AnyStep (fun req => req.isUserRequest = true)
      oneUserState s := by
    refine servesMany_of_serveWith ?_ ?_ hserve
    · simp [Request.isUserRequest]
    · exact fun _ _ _ _ _ _ => trivial
  have hreach : SessionReachable plainExternals AnyStep s := by
    refine ⟨oneUserState, rfl, hmany.lift id ?_⟩
    rintro s₁ s₂ ⟨req, reply, hreq, hserves⟩
    exact .request hreq hserves
  obtain ⟨user, huser⟩ := hlive s hreach issuedToken hgood
  have heq := huser.symm.trans hnone
  cases heq

end Gonitor.Web
