import Gonitor.Concurrent.Discipline
import Gonitor.Framework.Linearization
import Gonitor.Requests.Guarantees
import Gonitor.Requests.Neutral
import Gonitor.Requests.Tables

/-!
# Passwords

The table of users keeps a hash of each password.  What it is for is a *book*: each user has an account
and a key, and whoever knows a password with this key may log in.  Requests about users take turns,
operation by operation, with each other and with all other threads of the server; the book tells that
each of them takes effect at one moment.

bcrypt is a parameter: it answers with a hash that fits the passwords of one key (it does not look at
all of a long password).  A hash of an older version is an MD5 sum.

## Main Results

- `requests_linearized`: every step leaves the book alone, or makes the change that its request asks
  for; each request makes it at most once, and exactly if it succeeds.
- `token_needs_password`: a token is given for a password whose key the user had when the account was
  looked up.
-/

namespace Gonitor.Concurrent.Credentials

open Gonitor.Model Gonitor.Server Gonitor.Controller Gonitor.Requests AtomicProgram SoftDelete

/-! ## The book -/

section Book

variable {ι ν κ : Type} [DecidableEq ι]

/-- Who has which name and which key. -/
abbrev Book (ι ν κ : Type) := ι → Option (ν × κ)

/-- What is asked of the book. -/
inductive Intent (ι ν κ : Type)
  | register (name : ν) (key : κ)
  | change (id : ι) (key : κ)
  | remove (id : ι)

/-- What a request does to the book when it takes effect. -/
inductive Moves : Intent ι ν κ → Book ι ν κ → Book ι ν κ → Prop
  | register {book : Book ι ν κ} {id : ι} {name : ν} {key : κ} : book id = none →
      Moves (.register name key) book (Function.update book id (some (name, key)))
  | change {book : Book ι ν κ} {id : ι} {name : ν} {old key : κ} : book id = some (name, old) →
      Moves (.change id key) book (Function.update book id (some (name, key)))
  | remove {book : Book ι ν κ} {id : ι} : Moves (.remove id) book (Function.update book id none)

end Book

/-! ## Hashes -/

section Hashes

/-- `bcrypt` and `md5`, and what of a password bcrypt looks at. -/
structure Hashing (κ : Type) where
  compareHashAndPassword : String → String → Bool
  md5 : String → String
  key : String → κ

variable {κ : Type} (hashing : Hashing κ)

/-- `CheckPassword` of `utils`. -/
def Hashing.checkPassword (password hash : String) : Bool :=
  hashing.compareHashAndPassword hash password || hashing.md5 password == hash

/-- The hash fits the passwords of one key. -/
def Hashing.Fits (hash : String) (k : κ) : Prop :=
  ∀ password, hashing.checkPassword password hash = true ↔ hashing.key password = k

/-- What bcrypt answers for a password: it fits the passwords with the same key, and is no MD5 sum. -/
structure Hashing.IsHashOf (hash password : String) : Prop where
  compare : ∀ password', hashing.compareHashAndPassword hash password' = true ↔
    hashing.key password' = hashing.key password
  noSum : ∀ password', hashing.md5 password' ≠ hash

theorem Hashing.IsHashOf.fits {hash password : String} (h : hashing.IsHashOf hash password) :
    hashing.Fits hash (hashing.key password) := by
  intro password'
  simp [checkPassword, h.compare password', h.noSum password']

open Classical in
/-- The key that a hash fits, if it is the key of some password. -/
noncomputable def Hashing.fitted (hash : String) : Option κ :=
  if h : ∃ password, hashing.Fits hash (hashing.key password) then some (hashing.key h.choose) else none

/-- A hash fits one key only. -/
theorem Hashing.fitted_eq {hash password : String} (h : hashing.Fits hash (hashing.key password)) :
    hashing.fitted hash = some (hashing.key password) := by
  have hex : ∃ password, hashing.Fits hash (hashing.key password) := ⟨password, h⟩
  rw [fitted, dif_pos hex, Option.some.injEq]
  exact ((hex.choose_spec password).mp ((h password).mpr rfl)).symm

end Hashes

/-! ## The book of a table -/

section Shown

variable {κ : Type} (hashing : Hashing κ)

/-- The book that the table of users stands for. -/
noncomputable def shown (users : Table User) : Book Int String (Option κ) := fun id =>
  (users.byId id).map fun u => (u.loginAccount, hashing.fitted u.password)

/-- What a request asks of the book. -/
def intent : Request → Option (Intent Int String (Option κ))
  | .addUser (.ok form) => some (.register form.loginAccount (some (hashing.key form.password)))
  | .editUser userId (.ok form) => some (.change userId (some (hashing.key form.password)))
  | .deleteUser userId => some (.remove userId)
  | _ => none

theorem shown_create (users : Table User) (row : User) (now : Time) :
    shown hashing (users.create row now) =
      Function.update (shown hashing users) users.nextId
        (some (row.loginAccount, hashing.fitted row.password)) := by
  funext id
  rcases eq_or_ne id users.nextId with rfl | hne
  · simp only [shown, Table.byId_create, if_true, Function.update_self]
    rfl
  · simp only [shown, Table.byId_create, if_neg hne, Function.update_of_ne hne]

theorem shown_save {users users' : Table User} {row : User} {now : Time}
    (h : users.save row now = some users') (hlive : live row = true) :
    shown hashing users' = Function.update (shown hashing users) row.id
      (some (row.loginAccount, hashing.fitted row.password)) := by
  funext id
  have hid : rowId row = row.id := rfl
  rcases eq_or_ne id row.id with rfl | hne
  · simp only [shown, Table.byId_save h hlive, hid, if_true, Function.update_self]
    rfl
  · simp only [shown, Table.byId_save h hlive, hid, if_neg hne, Function.update_of_ne hne]

theorem shown_delete (users : Table User) (id : Int) (now : Time) :
    shown hashing (users.delete id now) = Function.update (shown hashing users) id none := by
  funext id'
  rcases eq_or_ne id' id with rfl | hne
  · simp [shown, Table.byId_delete]
  · simp [shown, Table.byId_delete, hne]

theorem shown_nextId (users : Table User) : shown hashing users users.nextId = none := by
  have hnone : users.byId users.nextId = none := by
    rw [Table.byId_eq_none]
    intro r hr
    rw [Table.row?_nextId] at hr
    cases hr
  simp [shown, hnone]

end Shown

/-! ## Pages -/

/-- What a thread knows: the request that it serves, the users that it has looked up last, by id and by
    account, the hash that it has got last, and whether it has written. -/
structure Page where
  req : Option Request := none
  info : Option (Int × User) := none
  account : Option (String × User) := none
  hash : Option (String × String) := none
  done : Bool := false

/-- The page after an operation. -/
def next (page : Page) : (o : Op) → o.Res → Page
  | .db (.userInfo id), .ok u => { page with info := some (id, u) }
  | .db (.findUserByAccount loginAccount), .ok u => { page with account := some (loginAccount, u) }
  | .world (.hashPassword password), .ok hash => { page with hash := some (password, hash) }
  | .db (.createUser _), .ok _ => { page with done := true }
  | .db (.saveUser _), .ok _ => { page with done := true }
  | .db (.deleteUser _), .ok _ => { page with done := true }
  | _, _ => page

/-- Users and tokens are written as the request says, and users once. -/
def Allowed (ext : Externals) (page : Page) : Op → Prop
  | .db (.createUser row) => page.done = false ∧ ∃ form, page.req = some (.addUser (.ok form)) ∧
      row.loginAccount = form.loginAccount ∧ page.hash = some (form.password, row.password)
  | .db (.saveUser row) => page.done = false ∧ ∃ userId form u,
      page.req = some (.editUser userId (.ok form)) ∧ page.info = some (userId, u) ∧
      row.toStamps = u.toStamps ∧ row.loginAccount = u.loginAccount ∧
      page.hash = some (form.password, row.password)
  | .db (.deleteUser userId) => page.done = false ∧ page.req = some (.deleteUser userId)
  | .db (.createUserToken row) => ∃ loginAccount password u,
      page.req = some (.userLogin loginAccount password) ∧ page.account = some (loginAccount, u) ∧
      ext.checkPassword password u.password = true ∧ row.userID = u.id
  | _ => True

@[simp] theorem next_req (page : Page) (o : Op) (r : o.Res) : (next page o r).req = page.req := by
  unfold next
  split <;> rfl

theorem allowed_of_keepsAccounts {ext : Externals} {page : Page} {o : Op} (ho : KeepsAccounts o) :
    Allowed ext page o := by
  unfold KeepsAccounts at ho
  split at ho
  case h_5 hcreate hsave hdelete htoken =>
    unfold Allowed
    split
    · exact absurd rfl (hcreate _)
    · exact absurd rfl (hsave _)
    · exact absurd rfl (hdelete _)
    · exact absurd rfl (htoken _)
    · trivial
  all_goals exact ho.elim

theorem next_done {page : Page} {o : Op} (ho : KeepsAccounts o) (r : o.Res) :
    (next page o r).done = page.done := by
  unfold next
  split
  case h_4 | h_5 | h_6 => exact ho.elim
  all_goals rfl

/-- The request that a thread is started with. -/
def request? : Start → Option Request
  | .request _ req => some req
  | _ => none

/-- The threads of the server, with pages. -/
def spawn (ext : Externals) (x : Start) (s : State) : Option (Thread Op Op.Res Reply Page) :=
  (Concurrent.spawn ext x s).map fun th => ⟨th.prog, { req := request? x }⟩

/-- The server, with pages. -/
def credentials (ext : Externals) : System Op Op.Res Reply State Page Choice Start where
  exec := exec ext
  next := next
  spawn := spawn ext

abbrev PagePool := Pool Op Op.Res Reply State Page

theorem credentials_same (ext : Externals) : SameSystem (server ext) (credentials ext) where
  exec := rfl
  spawn x s := by
    simp only [credentials, server, spawn]
    cases Concurrent.spawn ext x s <;> rfl

/-! ## The code keeps its pages -/

/-- Did the request succeed? -/
def succeeds : Reply → Bool
  | .response r => r.isSuccess
  | _ => false

section Pages

variable {κ : Type} {hashing : Hashing κ} {ext : Externals} {page page' : Page}

/-- The change that the thread has in mind. -/
def Page.asks (hashing : Hashing κ) (page : Page) : Option (Intent Int String (Option κ)) :=
  page.req.bind (intent hashing)

/-- A request that asks for a change succeeds exactly if it has made the change. -/
def Answers (hashing : Hashing κ) (reply : Reply) (page : Page) : Prop :=
  ∀ i, page.asks hashing = some i → (succeeds reply = true ↔ page.done = true)

/-- From this page on the program keeps to `Allowed`, and answers. -/
abbrev Keeps (hashing : Hashing κ) (ext : Externals) (p : Program Reply) (page : Page) : Prop :=
  Walk (Allowed ext) next p (Answers hashing) page

theorem Answers.failed {reply : Reply} (hreply : succeeds reply = false) (hdone : page.done = false) :
    Answers hashing reply page := by
  intro i _
  rw [hreply, hdone]

theorem Answers.of_not_asked {reply : Reply} (h : page.asks hashing = none) :
    Answers hashing reply page := by
  intro i hi
  rw [h] at hi
  cases hi

/-- What writes no user keeps the request, and whether it has been served. -/
theorem walk_of_keepsAccounts {α : Type} {p : Program α} (hp : p.Uses KeepsAccounts) :
    Walk (Allowed ext) next p (fun _ page' => page'.req = page.req ∧ page'.done = page.done) page := by
  refine Walk.of_uses (I := fun page' : Page => page'.req = page.req ∧ page'.done = page.done) hp ?_
    ⟨rfl, rfl⟩
  rintro o page' ho ⟨hreq, hdone⟩
  refine ⟨allowed_of_keepsAccounts ho, fun r => ⟨?_, ?_⟩⟩
  · rw [next_req, hreq]
  · rw [next_done ho, hdone]

/-- A request that asks for no change. -/
theorem Keeps.of_not_asked {p : Program Reply} (hp : p.Uses KeepsAccounts)
    (h : page.asks hashing = none) : Keeps hashing ext p page := by
  refine (walk_of_keepsAccounts hp).mono ?_
  rintro reply page' ⟨hreq, -⟩
  exact .of_not_asked (by rw [Page.asks, hreq, ← Page.asks, h])

/-- What follows a write is the entry of the operation log. -/
theorem logged_keeps (caller : Caller) (u : User) (opType : String) (hdone : page.done = true) :
    Keeps hashing ext (logUserOperation caller u opType >>= fun _ =>
      pure (.response (success "success" .nil))) page := by
  have hplain : (logUserOperation caller u opType).Uses Plain := addOperationLog_uses _ _ _ _
  refine (walk_of_keepsAccounts (keepsAccounts_of_usesBystander (bystander_of_usesPlain hplain))).bind ?_
  rintro _ page' ⟨-, hdone'⟩
  refine Walk.pure fun i _ => ?_
  simp [hdone', hdone, succeeds, success, Response.isSuccess]

theorem addUser_keeps (caller : Caller) (body : Except String NewUserForm)
    (hreq : page.req = some (.addUser body)) (hdone : page.done = false) :
    Keeps hashing ext (Controller.addUser caller body) page := by
  unfold Controller.addUser
  cases body with
  | error err => exact Walk.pure (.failed rfl hdone)
  | ok form =>
    dsimp only
    split
    · exact Walk.pure (.failed rfl hdone)
    · split
      · exact Walk.pure (.failed rfl hdone)
      · refine Walk.call trivial fun r => ?_
        cases r with
        | error err => exact Walk.pure (.failed rfl hdone)
        | ok hashedPassword =>
          unfold registerNewUser
          dsimp only
          split
          · exact Walk.pure (.failed rfl hdone)
          · refine Walk.call trivial fun r => ?_
            cases r with
            | ok found => exact Walk.pure (.failed rfl hdone)
            | error err =>
              cases err with
              | failure text => exact Walk.pure (.failed rfl hdone)
              | recordNotFound =>
                refine Walk.call ⟨hdone, form, hreq, rfl, rfl⟩ fun r => ?_
                cases r with
                | error err => exact Walk.pure (.failed rfl hdone)
                | ok newUser => exact logged_keeps _ _ _ rfl

theorem editUser_keeps (caller : Caller) (userId : Int) (body : Except String UserForm)
    (hreq : page.req = some (.editUser userId body)) (hdone : page.done = false) :
    Keeps hashing ext (Controller.editUser caller userId body) page := by
  unfold Controller.editUser
  cases body with
  | error err => exact Walk.pure (.failed rfl hdone)
  | ok form =>
    refine Walk.call trivial fun r => ?_
    cases r with
    | error err => exact Walk.pure (.failed rfl hdone)
    | ok userModel =>
      dsimp only
      split
      · exact Walk.pure (.failed rfl hdone)
      · split
        · exact Walk.pure (.failed rfl hdone)
        · refine Walk.call trivial fun r => ?_
          cases r with
          | error err => exact Walk.pure (.failed rfl hdone)
          | ok hashedPassword =>
            -- the account is that of the row that has been read
            refine Walk.call ⟨hdone, userId, form, userModel, hreq, rfl, rfl, rfl, rfl⟩ fun r => ?_
            cases r with
            | error err => exact Walk.pure (.failed rfl hdone)
            | ok _ => exact logged_keeps _ _ _ rfl

theorem deleteUser_keeps (caller : Caller) (userId : Int) (hreq : page.req = some (.deleteUser userId))
    (hdone : page.done = false) : Keeps hashing ext (Controller.deleteUser caller userId) page := by
  refine Walk.call ⟨hdone, hreq⟩ fun r => ?_
  cases r with
  | error err => exact Walk.pure (.failed rfl hdone)
  | ok _ => exact logged_keeps _ _ _ rfl

theorem userLogin_keeps (clientIP loginAccount password : String)
    (hreq : page.req = some (.userLogin loginAccount password)) :
    Keeps hashing ext (Controller.userLogin ext clientIP loginAccount password) page := by
  have hasks : ∀ {page' : Page}, page'.req = page.req → ∀ reply, Answers hashing reply page' :=
    fun hsame reply => .of_not_asked (by simp [Page.asks, hsame, hreq, intent])
  refine Walk.call trivial fun r => ?_
  cases r with
  | error err => exact Walk.pure (hasks rfl _)
  | ok user =>
    dsimp only
    split
    · exact Walk.pure (hasks rfl _)
    · rename_i hcheck
      rw [not_not] at hcheck
      refine Walk.call trivial fun r => ?_
      cases r with
      | error err => exact Walk.pure (hasks rfl _)
      | ok _ =>
        refine Walk.call trivial fun token => Walk.call trivial fun instant => ?_
        refine Walk.call ⟨loginAccount, password, user, hreq, rfl, hcheck, rfl⟩ fun r => ?_
        cases r with
        | error err => exact Walk.pure (hasks rfl _)
        | ok _ =>
          have hplain : (addOperationLog user.id user.id "Login" clientIP >>= fun _ =>
              pure (.response (success "登录成功" (.token token))) : Program Reply).Uses Plain :=
            (addOperationLog_uses _ _ _ _).bind fun _ => trivial
          refine Keeps.of_not_asked (keepsAccounts_of_usesBystander (bystander_of_usesPlain hplain)) ?_
          simp [Page.asks, hreq, intent, next]

/-- Every thread of the server keeps its page. -/
theorem spawn_keeps {x : Start} {s : State} {th : Thread Op Op.Res Reply Page}
    (h : spawn ext x s = some th) : Keeps hashing ext th.prog th.loc := by
  obtain ⟨th₀, hspawn, rfl⟩ := Option.map_eq_some_iff.mp h
  rcases spawn_cases hspawn with ⟨caller, req, rfl, himport, rfl⟩ | ⟨rfl, rfl⟩ | ⟨e, entry, rfl, -, -, rfl⟩
  · cases huser : req.isUserRequest with
    | true =>
      cases req with
      | userLogin loginAccount password => exact userLogin_keeps caller.clientIP loginAccount password rfl
      | addUser body => exact addUser_keeps caller body rfl rfl
      | editUser userId body => exact editUser_keeps caller userId body rfl rfl
      | deleteUser userId => exact deleteUser_keeps caller userId rfl rfl
      | _ => cases huser
    | false =>
      have hasks : intent hashing req = none := by
        cases req <;> first | rfl | cases huser
      by_cases hrun : ∃ taskId, req = .startOnceTask taskId
      · obtain ⟨taskId, rfl⟩ := hrun
        exact .of_not_asked ((startOnceTask_runWork caller taskId).mono keepsAccounts_of_runWork) hasks
      · have hne : ∀ taskId, req ≠ .startOnceTask taskId := fun taskId heq => hrun ⟨taskId, heq⟩
        exact .of_not_asked
          (keepsAccounts_of_usesBystander (handle_bystander caller req hne himport huser)) hasks
  · exact .of_not_asked (keepsAccounts_of_usesBystander stopThread_bystander) rfl
  · exact .of_not_asked ((runThread_runWork entry.id entry.job).mono keepsAccounts_of_runWork) rfl

end Pages

/-! ## One operation -/

section Steps

variable {κ : Type} {hashing : Hashing κ} {ext : Externals} {page : Page} {users users' : Table User}
  {c : Choice} {s s' : State} {o : Op} {r : o.Res}

/-- What the page says of the users is true, and the hash is one. -/
structure Page.Sound (hashing : Hashing κ) (users : Table User) (page : Page) : Prop where
  info : ∀ id u, page.info = some (id, u) → u.id = id ∧ live u = true ∧ id < users.nextId ∧
    ∀ v, users.byId id = some v → v.loginAccount = u.loginAccount
  hash : ∀ password hash, page.hash = some (password, hash) → hashing.IsHashOf hash password

/-- Users keep their accounts. -/
structure Evolves (users users' : Table User) : Prop where
  nextId : users.nextId ≤ users'.nextId
  accounts : ∀ id v, id < users.nextId → users'.byId id = some v →
    ∃ u, users.byId id = some u ∧ u.loginAccount = v.loginAccount

theorem Evolves.refl : Evolves users users := ⟨Int.le_refl _, fun _ v _ hv => ⟨v, hv, rfl⟩⟩

theorem Page.Sound.mono (h : page.Sound hashing users) (hev : Evolves users users') :
    page.Sound hashing users' where
  info id u hinfo := by
    obtain ⟨hid, hlive, hlt, haccount⟩ := h.info id u hinfo
    refine ⟨hid, hlive, Int.lt_of_lt_of_le hlt hev.nextId, fun v hv => ?_⟩
    obtain ⟨u', hu', heq⟩ := hev.accounts id v hlt hv
    exact heq.symm.trans (haccount u' hu')
  hash := h.hash

theorem evolves_create (row : User) (now : Time) : Evolves users (users.create row now) where
  nextId := Int.le_add_one (Int.le_refl _)
  accounts id v hlt hv := by
    rw [Table.byId_create, if_neg (Int.ne_of_lt hlt)] at hv
    exact ⟨v, hv, rfl⟩

theorem evolves_delete (id : Int) (now : Time) : Evolves users (users.delete id now) where
  nextId := Int.le_refl _
  accounts id' v _ hv := by
    rw [Table.byId_delete] at hv
    split at hv
    · cases hv
    · exact ⟨v, hv, rfl⟩

theorem evolves_save {row : User} {now : Time} (h : users.save row now = some users')
    (hlive : live row = true)
    (haccount : ∀ u, users.byId row.id = some u → u.loginAccount = row.loginAccount) :
    Evolves users users' where
  nextId := Int.le_of_eq (Table.nextId_save h).symm
  accounts id v _ hv := by
    have hid : rowId row = row.id := rfl
    rw [Table.byId_save h hlive, hid] at hv
    split at hv
    · rename_i heq
      cases hv
      obtain ⟨u, hu⟩ := Table.byId_of_save h
      rw [heq]
      exact ⟨u, hu, haccount u hu⟩
    · exact ⟨v, hv, rfl⟩

/-- The server's book, and the changes that requests ask for. -/
noncomputable def booking (hashing : Hashing κ) :
    Purpose State Start (Book Int String (Option κ)) (Intent Int String (Option κ)) where
  shows s := shown hashing s.db.user
  Moves := Moves
  intent x := (request? x).bind (intent hashing)

/-- What an operation does to the users, to the book and to the page of its thread. -/
structure Effect (hashing : Hashing κ) (page page' : Page) (s s' : State) : Prop where
  evolves : Evolves s.db.user s'.db.user
  sound : page'.Sound hashing s'.db.user
  turn : Turn (booking hashing) (Page.asks hashing) Page.done page page' s s'

/-- An operation that leaves the users alone. -/
theorem Effect.still {page' : Page} (hsound : page'.Sound hashing s.db.user)
    (husers : s'.db.user = s.db.user) (hreq : page'.req = page.req) (hdone : page'.done = page.done) :
    Effect hashing page page' s s' where
  evolves := husers ▸ .refl
  sound := husers ▸ hsound
  turn := ⟨by rw [Page.asks, hreq, ← Page.asks], .inl ⟨congrArg (shown hashing) husers, hdone⟩⟩

/-- An operation that makes the change. -/
theorem Effect.change {page' : Page} (h : page.Sound hashing s.db.user)
    (hev : Evolves s.db.user s'.db.user) (hpage' : page' = { page with done := true })
    (hdone : page.done = false) {req : Request} (hreq : page.req = some req)
    {i : Intent Int String (Option κ)} (hi : intent hashing req = some i)
    (hmoves : Moves i (shown hashing s.db.user) (shown hashing s'.db.user)) :
    Effect hashing page page' s s' := by
  subst hpage'
  have hsound := h.mono hev
  refine ⟨hev, ⟨hsound.info, hsound.hash⟩, rfl, .inr ⟨hdone, rfl, i, ?_, hmoves⟩⟩
  rw [Page.asks, hreq]
  exact hi

/-- An operation that writes no user leaves the users alone. -/
theorem users_of_exec (ho : KeepsAccounts o) (h : exec ext o c s = some (r, s')) :
    s'.db.user = s.db.user := by
  obtain ⟨hstep, -⟩ := accountStep_of_exec h
  generalize s'.db.user = users', s'.db.userToken = tokens' at hstep ⊢
  cases hstep with
  | same | tokensDeleted => rfl
  | created | saved | deleted | tokenCreated => exact ho.elim

/-- What a statement answers, and what it leaves. -/
theorem statement_cases {α : Type} {d d' : Database} {r : Option (α × Database)}
    {a : Except DbError α} (h : (a, d') = statement c d r) :
    (∃ err, a = .error err ∧ d' = d) ∨ ∃ x, a = .ok x ∧ r = some (x, d') := by
  unfold statement at h
  split at h
  · cases h
    exact .inl ⟨_, rfl, rfl⟩
  · cases r with
    | none =>
      cases h
      exact .inl ⟨_, rfl, rfl⟩
    | some y =>
      cases h
      exact .inr ⟨y.1, rfl, rfl⟩

theorem createUser_exec {row : User} {r : Except DbError User}
    (h : exec ext (.db (.createUser row)) c s = some (r, s')) :
    (∃ err, r = .error err ∧ s'.db.user = s.db.user) ∨
      ∃ u now, r = .ok u ∧ s'.db.user = s.db.user.create row now := by
  obtain ⟨-, hr, rfl⟩ := exec_db h
  rcases statement_cases (Prod.ext hr rfl : (r, _) = statement c s.db _) with
    ⟨err, rfl, hdb⟩ | ⟨u, rfl, hdb⟩
  · exact .inl ⟨err, rfl, congrArg Database.user hdb⟩
  · exact .inr ⟨u, _, rfl, (congrArg (fun x => x.2.user) (Option.some.inj hdb)).symm⟩

theorem saveUser_exec {row : User} {r : Except DbError Unit}
    (h : exec ext (.db (.saveUser row)) c s = some (r, s')) :
    (∃ err, r = .error err ∧ s'.db.user = s.db.user) ∨
      ∃ now, r = .ok () ∧ s.db.user.save row now = some s'.db.user := by
  obtain ⟨-, hr, rfl⟩ := exec_db h
  rcases statement_cases (Prod.ext hr rfl : (r, _) = statement c s.db _) with
    ⟨err, rfl, hdb⟩ | ⟨_, rfl, hdb⟩
  · exact .inl ⟨err, rfl, congrArg Database.user hdb⟩
  · obtain ⟨users, hsave, heq⟩ := Option.map_eq_some_iff.mp hdb
    refine .inr ⟨_, rfl, hsave.trans ?_⟩
    exact congrArg (fun x => some x.2.user) heq

theorem deleteUser_exec {id : Int} {r : Except DbError Unit}
    (h : exec ext (.db (.deleteUser id)) c s = some (r, s')) :
    (∃ err, r = .error err ∧ s'.db.user = s.db.user) ∨
      ∃ now, r = .ok () ∧ s'.db.user = s.db.user.delete id now := by
  obtain ⟨-, hr, rfl⟩ := exec_db h
  rcases statement_cases (Prod.ext hr rfl : (r, _) = statement c s.db _) with
    ⟨err, rfl, hdb⟩ | ⟨_, rfl, hdb⟩
  · exact .inl ⟨err, rfl, congrArg Database.user hdb⟩
  · exact .inr ⟨_, rfl, (congrArg (fun x => x.2.user) (Option.some.inj hdb)).symm⟩

theorem effect_createUser {row : User} {r : Except DbError User} (h : page.Sound hashing s.db.user)
    (hallowed : Allowed ext page (.db (.createUser row)))
    (hexec : exec ext (.db (.createUser row)) c s = some (r, s')) :
    Effect hashing page (next page (.db (.createUser row)) r) s s' := by
  obtain ⟨hdone, form, hreq, haccount, hhash⟩ := hallowed
  rcases createUser_exec hexec with ⟨err, rfl, husers⟩ | ⟨u, now, rfl, husers⟩
  · exact .still h husers rfl rfl
  · refine .change h (husers ▸ evolves_create row now) rfl hdone hreq rfl ?_
    rw [husers, shown_create, haccount, hashing.fitted_eq (h.hash _ _ hhash).fits]
    exact .register (shown_nextId hashing _)

theorem effect_saveUser {row : User} {r : Except DbError Unit} (h : page.Sound hashing s.db.user)
    (hallowed : Allowed ext page (.db (.saveUser row)))
    (hexec : exec ext (.db (.saveUser row)) c s = some (r, s')) :
    Effect hashing page (next page (.db (.saveUser row)) r) s s' := by
  obtain ⟨hdone, userId, form, u, hreq, hinfo, hstamps, haccount, hhash⟩ := hallowed
  obtain ⟨hid, hlive, -, hsame⟩ := h.info userId u hinfo
  rcases saveUser_exec hexec with ⟨err, rfl, husers⟩ | ⟨now, rfl, hsave⟩
  · exact .still h husers rfl rfl
  · have hrow : row.id = userId := (congrArg Stamps.id hstamps).trans hid
    have hlive' : live row = true := (congrArg (fun x => x.deletedAt.isNone) hstamps).trans hlive
    -- the row that is there has the account that has been read
    have hkept : ∀ v, s.db.user.byId row.id = some v → v.loginAccount = row.loginAccount := by
      rw [hrow, haccount]
      exact hsame
    refine .change h (evolves_save hsave hlive' hkept) rfl hdone hreq rfl ?_
    obtain ⟨v, hv⟩ := Table.byId_of_save hsave
    have hv' : s.db.user.byId row.id = some v := hv
    rw [shown_save hashing hsave hlive', hashing.fitted_eq (h.hash _ _ hhash).fits, hrow]
    have hshown : shown hashing s.db.user userId =
        some (row.loginAccount, hashing.fitted v.password) := by
      simp only [shown, ← hrow, hv', Option.map_some, hkept v hv']
    exact .change hshown

theorem effect_deleteUser {userId : Int} {r : Except DbError Unit} (h : page.Sound hashing s.db.user)
    (hallowed : Allowed ext page (.db (.deleteUser userId)))
    (hexec : exec ext (.db (.deleteUser userId)) c s = some (r, s')) :
    Effect hashing page (next page (.db (.deleteUser userId)) r) s s' := by
  obtain ⟨hdone, hreq⟩ := hallowed
  rcases deleteUser_exec hexec with ⟨err, rfl, husers⟩ | ⟨now, rfl, husers⟩
  · exact .still h husers rfl rfl
  · refine .change h (husers ▸ evolves_delete userId now) rfl hdone hreq rfl ?_
    rw [husers, shown_delete]
    exact .remove

/-- The password that a thread is about to hash, and its hash. -/
def hashed {L : Type} (l : Label Choice Start) (p : Pool Op Op.Res Reply State L) :
    Option (String × String) :=
  match l with
  | .spawn _ _ => none
  | .op tid c =>
    match (p.threads tid).map Thread.prog with
    | some (.op (.world (.hashPassword password)) _) => if c.fail then none else some (password, c.text)
    | _ => none

/-- The hash fits the password. -/
def HashFits {L : Type} (hashing : Hashing κ) (l : Label Choice Start)
    (p : Pool Op Op.Res Reply State L) : Prop :=
  ∀ password hash, hashed l p = some (password, hash) → hashing.IsHashOf hash password

/-- **What an allowed operation does**, if it hashes as it should. -/
theorem effect_of_exec (h : page.Sound hashing s.db.user) (hallowed : Allowed ext page o)
    (hfit : ∀ password hash, o = .world (.hashPassword password) → c.fail = false → c.text = hash →
      hashing.IsHashOf hash password)
    (hexec : exec ext o c s = some (r, s')) : Effect hashing page (next page o r) s s' := by
  cases o with
  | db o =>
    cases o with
    | createUser row => exact effect_createUser h hallowed hexec
    | saveUser row => exact effect_saveUser h hallowed hexec
    | deleteUser userId => exact effect_deleteUser h hallowed hexec
    | userInfo id =>
      have husers := users_of_exec (o := .db (.userInfo id)) trivial hexec
      obtain ⟨-, hr, rfl⟩ := exec_db hexec
      cases r with
      | error err => exact .still h husers rfl rfl
      | ok u =>
        refine .still ⟨?_, h.hash⟩ husers rfl rfl
        rintro id' u' ⟨⟩
        have hu : s.db.user.byId id = some u := query_ok hr.symm
        obtain ⟨hmem, hid, hlive⟩ := Table.mem_of_byId hu
        refine ⟨hid, hlive, hid ▸ s.db.user.ids_lt u hmem, fun v hv => ?_⟩
        rw [hu] at hv
        cases hv
        rfl
    | findUserByAccount loginAccount =>
      have husers := users_of_exec (o := .db (.findUserByAccount loginAccount)) trivial hexec
      cases r with
      | error err => exact .still h husers rfl rfl
      | ok u => exact .still ⟨h.info, h.hash⟩ husers rfl rfl
    | createUserToken row =>
      obtain ⟨-, -, rfl⟩ := exec_db hexec
      refine .still h ?_ rfl rfl
      simp only [DbOp.exec, statement]
      split <;> rfl
    | _ =>
      refine .still h ?_ rfl rfl
      apply users_of_exec _ hexec
      trivial
  | sched o => exact .still h (users_of_exec (o := .sched o) trivial hexec) rfl rfl
  | run o => exact .still h (users_of_exec (o := .run o) trivial hexec) rfl rfl
  | world o =>
    have husers := users_of_exec (o := .world o) trivial hexec
    cases o with
    | hashPassword password =>
      obtain ⟨-, hr, -⟩ := exec_world hexec
      cases r with
      | error err => exact .still h husers rfl rfl
      | ok hash =>
        refine .still ⟨h.info, ?_⟩ husers rfl rfl
        rintro password' hash' ⟨⟩
        simp only [WorldOp.exec, Option.some.injEq] at hr
        split at hr
        · cases hr
        · rename_i hok
          exact hfit password hash rfl (by simpa using hok) (Except.ok.inj hr)
    | _ => exact .still h husers rfl rfl

end Steps

/-! ## A run with one user -/

def bcryptHash : String := "$2a$12$R9h/cIPz0gi.URNNX3kh2OPST9/PgBkqquzi.Ss7KIUgO2t0jWMUW"

/-- Hashing as it is for one hash, and the password that it is of. -/
def onePassword : Hashing String where
  compareHashAndPassword _ password := password == "abc123xyz"
  md5 password := if password = "abc123xyz" then "65816c49c4ecad1bdcb870caf8b22853" else ""
  key password := password

theorem onePassword_isHashOf : onePassword.IsHashOf bcryptHash "abc123xyz" where
  compare password' := by simp [onePassword]
  noSum password' := by
    simp only [onePassword]
    split <;> decide

def oneExternals : Externals := { plainExternals with checkPassword := onePassword.checkPassword }

def newcomer : NewUserForm where
  username := "newcomer"
  password := "abc123xyz"
  confirmPassword := "abc123xyz"
  loginAccount := "newcomer"

def emptyServer : ServerPool := ⟨State.boot emptyDatabase 0, fun _ => none⟩

/-- A user is added. -/
def adding : List (Label Choice Start) :=
  [.spawn 0 (.request ⟨0, ""⟩ (.addUser (.ok newcomer))), .op 0 { text := bcryptHash }, .op 0 {},
    .op 0 {}, .op 0 {}]

/-- The user logs in, up to the insertion of the token. -/
def loggingIn : List (Label Choice Start) :=
  [.spawn 1 (.request ⟨0, ""⟩ (.userLogin "newcomer" "abc123xyz")), .op 1 {}, .op 1 {},
    .op 1 { text := "aaaaaaaaaaaaaaaaaaaaaaaaaaaaaaaa" }, .op 1 {}]

/-! ## In every pool -/

section Pools

variable {κ : Type} {hashing : Hashing κ} {ext : Externals} {q q' : PagePool} {tid : Nat}
  {page : Page} {c : Choice} {o : Op} {k : o.Res → Program Reply} {r : o.Res} {s' : State}

/-- All threads keep their pages, and all pages are true. -/
structure Kept (hashing : Hashing κ) (ext : Externals) (q : PagePool) : Prop where
  keeps : ∀ tid th, q.threads tid = some th → Keeps hashing ext th.prog th.loc
  sound : ∀ tid th, q.threads tid = some th → th.loc.Sound hashing q.shared.db.user

theorem Kept.nil (hnone : ∀ tid, q.threads tid = none) : Kept hashing ext q := by
  constructor
  all_goals
    intro tid th hth
    rw [hnone] at hth
    cases hth

theorem Kept.spawn (h : Kept hashing ext q) {x : Start} {th : Thread Op Op.Res Reply Page}
    (hspawn : Credentials.spawn ext x q.shared = some th) :
    Kept hashing ext ⟨q.shared, Function.update q.threads tid (some th)⟩ where
  keeps i th' hth' := by
    rcases update_eq_some hth' with ⟨-, hnew⟩ | ⟨-, hold⟩
    · cases hnew
      exact spawn_keeps hspawn
    · exact h.keeps i th' hold
  sound i th' hth' := by
    rcases update_eq_some hth' with ⟨-, hnew⟩ | ⟨-, hold⟩
    · cases hnew
      obtain ⟨th₀, -, rfl⟩ := Option.map_eq_some_iff.mp hspawn
      exact ⟨nofun, nofun⟩
    · exact h.sound i th' hold

/-- What the next operation of a thread does. -/
theorem Kept.effect (h : Kept hashing ext q) (hth : q.threads tid = some ⟨.op o k, page⟩)
    (hfits : HashFits hashing (.op tid c) q) (hexec : exec ext o c q.shared = some (r, s')) :
    Effect hashing page (next page o r) q.shared s' := by
  refine effect_of_exec (h.sound tid _ hth) (Walk.op_iff.mp (h.keeps tid _ hth)).1 ?_ hexec
  rintro password hash rfl hok rfl
  exact hfits password c.text (by simp [hashed, hth, hok])

theorem Kept.op (h : Kept hashing ext q) (hth : q.threads tid = some ⟨.op o k, page⟩)
    (hfits : HashFits hashing (.op tid c) q) (hexec : exec ext o c q.shared = some (r, s')) :
    Kept hashing ext ⟨s', Function.update q.threads tid (some ⟨k r, next page o r⟩)⟩ where
  keeps i th' hth' := by
    rcases update_eq_some hth' with ⟨-, hnew⟩ | ⟨-, hold⟩
    · cases hnew
      exact (Walk.op_iff.mp (h.keeps tid _ hth)).2 r
    · exact h.keeps i th' hold
  sound i th' hth' := by
    have heffect := h.effect hth hfits hexec
    rcases update_eq_some hth' with ⟨-, hnew⟩ | ⟨-, hold⟩
    · cases hnew
      exact heffect.sound
    · exact (h.sound i th' hold).mono heffect.evolves

theorem Kept.step {l : Label Choice Start} (hfits : HashFits hashing l q) (h : Kept hashing ext q)
    (hstep : (credentials ext).step l q = some q') : Kept hashing ext q' := by
  rcases System.step_cases hstep with ⟨tid, x, th, -, -, hspawn, rfl⟩ |
    ⟨tid, c, o, k, page, r, s', rfl, hth, hexec, rfl⟩
  · exact h.spawn hspawn
  · exact h.op hth hfits hexec

/-- The pages tell the changes. -/
theorem pages_tell (hashing : Hashing κ) (ext : Externals) :
    Tells (booking hashing) (Page.asks hashing) Page.done (credentials ext) (HashFits hashing)
      (Kept hashing ext) where
  spawn x s th h := by
    obtain ⟨th₀, -, rfl⟩ := Option.map_eq_some_iff.mp h
    exact ⟨rfl, rfl⟩
  keeps _ _ _ hfits h hstep := h.step hfits hstep
  turn _ _ _ _ _ _ _ _ h hfits hth hexec := (h.effect hth hfits hexec).turn

theorem HashFits.same {p : ServerPool} (hsame : SamePrograms p q) {l : Label Choice Start}
    (h : HashFits hashing l p) : HashFits hashing l q := by
  have heq : hashed l q = hashed l p := by
    cases l with
    | spawn tid x => rfl
    | op tid c => simp only [hashed, hsame.progs tid]
  unfold HashFits
  rwa [heq]

/-- The pool with pages, before any thread has started. -/
theorem blank_same {p₀ : ServerPool} (hnone : ∀ tid, p₀.threads tid = none) :
    SamePrograms p₀ (⟨p₀.shared, fun _ => none⟩ : PagePool) :=
  ⟨rfl, fun tid => by rw [hnone]; rfl⟩

/-- **Requests about users take effect at one moment**: in every run each step leaves the book alone, or
    makes the change that the request of its thread asks for, and no thread makes two changes.  A
    request for a change that has been answered has succeeded if and only if it has made the change. -/
theorem requests_linearized {p₀ p : ServerPool} (hnone : ∀ tid, p₀.threads tid = none)
    {ls : List (Label Choice Start)} (hrun : (server ext).run ls p₀ = some p)
    (hfits : ∀ x ∈ (server ext).steps ls p₀, HashFits hashing x.2 x.1) :
    ∃ history, history.map Moment.taken = (server ext).steps ls p₀ ∧
      Linearized (server ext) (booking hashing) p₀ history p ∧
      ∀ tid x i reply ℓ, .spawn tid x ∈ ls → (booking hashing).intent x = some i →
        p.threads tid = some ⟨.pure reply, ℓ⟩ → (succeeds reply = true ↔ Changed history tid) := by
  obtain ⟨history, q, hsteps, hlin, hsame, hkept, hrec⟩ := (blank_same hnone).linearized
    (credentials_same ext) (pages_tell hashing ext) (fun _ _ _ hsame h => h.same hsame)
    (.nil fun _ => rfl) (fun _ => rfl) hrun hfits
  refine ⟨history, hsteps, hlin, ?_⟩
  intro tid x i reply ℓ hspawn hi hth
  obtain ⟨page, hth'⟩ := hsame.thread hth
  -- the start of the thread is in the history
  have hlabels : .spawn tid x ∈ history.map fun e => e.taken.2 := by
    rw [← System.labels_of_run hrun, ← hsteps, List.map_map] at hspawn
    exact hspawn
  obtain ⟨e, he, hlabel⟩ := List.mem_map.mp hlabels
  have hasks := hrec.asks e he tid x _ hlabel hth'
  have hanswers : Answers hashing reply page := hkept.keeps tid _ hth'
  rw [← hrec.done tid _ hth']
  exact hanswers i (hasks.trans hi)

theorem hashFits_of_steps {ls : List (Label Choice Start)} {p : ServerPool}
    (h : ((server oneExternals).steps ls p).filterMap (fun x => hashed x.2 x.1) =
      [("abc123xyz", bcryptHash)]) :
    ∀ x ∈ (server oneExternals).steps ls p, HashFits onePassword x.2 x.1 := by
  intro x hx password hash hhashed
  have hmem : (password, hash) ∈ ((server oneExternals).steps ls p).filterMap
      (fun x => hashed x.2 x.1) := List.mem_filterMap.mpr ⟨x, hx, hhashed⟩
  rw [h, List.mem_singleton] at hmem
  cases hmem
  exact onePassword_isHashOf

theorem requests_linearized_one : ∃ p history, (server oneExternals).run adding emptyServer = some p ∧
    Linearized (server oneExternals) (booking onePassword) emptyServer history p ∧
    Changed history 0 := by
  have hrun : ∃ p ℓ reply, (server oneExternals).run adding emptyServer = some p ∧
      ((server oneExternals).steps adding emptyServer).filterMap (fun x => hashed x.2 x.1) =
        [("abc123xyz", bcryptHash)] ∧
      p.threads 0 = some ⟨.pure reply, ℓ⟩ ∧ succeeds reply = true := ⟨_, _, _, rfl, rfl, rfl, rfl⟩
  obtain ⟨p, ℓ, reply, hp, hhashes, hth, hreply⟩ := hrun
  obtain ⟨history, -, hlin, hanswers⟩ := requests_linearized (fun _ => rfl) hp
    (hashFits_of_steps hhashes)
  refine ⟨p, history, hp, hlin, (hanswers 0 _ _ _ _ List.mem_cons_self rfl hth).mp hreply⟩

/-! ## Tokens -/

/-- A key that the book shows is that of every password that its hash accepts. -/
theorem key_of_fitted {hash password : String} {key : κ} (h : hashing.fitted hash = some key)
    (hcheck : hashing.checkPassword password hash = true) : key = hashing.key password := by
  unfold Hashing.fitted at h
  split at h
  · rename_i hex
    cases h
    exact ((hex.choose_spec password).mp hcheck).symm
  · cases h

/-- Where the page of a thread comes from. -/
structure Page.From (page : Page) (tid : Nat) (past : List (ServerPool × Label Choice Start)) :
    Prop where
  req : ∀ req, page.req = some req → ∃ caller, .spawn tid (.request caller req) ∈ past.map Prod.snd
  account : ∀ loginAccount u, page.account = some (loginAccount, u) → ∃ x ∈ past, x.2.tid = tid ∧
    x.1.shared.db.user.byId u.id = some u ∧ u.loginAccount = loginAccount

theorem Page.From.mono {past past' : List (ServerPool × Label Choice Start)} (h : page.From tid past)
    (hsub : ∀ x ∈ past, x ∈ past') : page.From tid past' where
  req req hreq := by
    obtain ⟨caller, hmem⟩ := h.req req hreq
    exact ⟨caller, List.map_subset _ hsub hmem⟩
  account loginAccount u hu := by
    obtain ⟨x, hx, hrest⟩ := h.account loginAccount u hu
    exact ⟨x, hsub x hx, hrest⟩

/-- A user that has been found by the account is there. -/
theorem byId_of_findUserByAccount {s s' : State} {loginAccount : String} {u : User}
    (h : exec ext (.db (.findUserByAccount loginAccount)) c s = some (.ok u, s')) :
    s.db.user.byId u.id = some u ∧ u.loginAccount = loginAccount := by
  obtain ⟨-, hr, -⟩ := exec_db h
  have hfirst : s.db.user.first (fun u => u.loginAccount == loginAccount) = some u := query_ok hr.symm
  have hmem := List.mem_of_find?_eq_some hfirst
  have hprop := List.find?_some (p := fun u : User => live u && (u.loginAccount == loginAccount)) hfirst
  simp only [Bool.and_eq_true, beq_iff_eq] at hprop
  exact ⟨Table.byId_of_mem hmem hprop.1, hprop.2⟩

theorem Page.From.op {past : List (ServerPool × Label Choice Start)} {p : ServerPool}
    {l : Label Choice Start} (h : page.From tid past) (hl : l.tid = tid)
    (hexec : exec ext o c p.shared = some (r, s')) :
    (next page o r).From tid (past ++ [(p, l)]) where
  req req hreq := by
    rw [next_req] at hreq
    exact (h.mono fun x hx => List.mem_append_left _ hx).req req hreq
  account loginAccount u hu := by
    have hold := (h.mono fun x hx => List.mem_append_left [(p, l)] hx).account
    unfold next at hu
    split at hu
    case h_2 =>
      cases hu
      exact ⟨(p, l), List.mem_append_right _ (List.mem_singleton_self _), hl,
        byId_of_findUserByAccount hexec⟩
    all_goals exact hold _ _ hu

/-- The pool has pages, they are true, and come from the steps of the past. -/
def Traced (hashing : Hashing κ) (ext : Externals) (past : List (ServerPool × Label Choice Start))
    (p : ServerPool) : Prop :=
  ∃ q : PagePool, SamePrograms p q ∧ Kept hashing ext q ∧
    ∀ tid th, q.threads tid = some th → th.loc.From tid past

theorem Traced.step {past : List (ServerPool × Label Choice Start)} {p p' : ServerPool}
    {l : Label Choice Start} (h : Traced hashing ext past p) (hfits : HashFits hashing l p)
    (hstep : (server ext).step l p = some p') : Traced hashing ext (past ++ [(p, l)]) p' := by
  obtain ⟨q, hsame, hkept, hfrom⟩ := h
  obtain ⟨q', hstep', hsame'⟩ := hsame.step (credentials_same ext) hstep
  refine ⟨q', hsame', hkept.step (hfits.same hsame) hstep', ?_⟩
  have hold : ∀ i th, q.threads i = some th → th.loc.From i (past ++ [(p, l)]) := fun i th hi =>
    (hfrom i th hi).mono fun x hx => List.mem_append_left _ hx
  rcases System.step_cases hstep' with ⟨tid, x, th, rfl, -, hspawn, rfl⟩ |
    ⟨tid, c, o, k, page, r, s', rfl, hth, hexec, rfl⟩
  · intro i th' hi
    rcases update_eq_some hi with ⟨rfl, hnew⟩ | ⟨-, hi⟩
    · cases hnew
      obtain ⟨th₀, -, rfl⟩ := Option.map_eq_some_iff.mp hspawn
      refine ⟨fun req hreq => ?_, nofun⟩
      -- the request is the one that this step starts the thread with
      cases x with
      | request caller req' =>
        cases hreq
        exact ⟨caller, by simp⟩
      | _ => cases hreq
    · exact hold i th' hi
  · rw [hsame.shared] at hexec
    intro i th' hi
    rcases update_eq_some hi with ⟨rfl, hnew⟩ | ⟨-, hi⟩
    · cases hnew
      exact (hfrom i _ hth).op rfl hexec
    · exact hold i th' hi

theorem Traced.run {p₀ p : ServerPool} (hnone : ∀ tid, p₀.threads tid = none)
    {ls : List (Label Choice Start)} (hrun : (server ext).run ls p₀ = some p)
    (hfits : ∀ x ∈ (server ext).steps ls p₀, HashFits hashing x.2 x.1) :
    Traced hashing ext ((server ext).steps ls p₀) p := by
  have hblank : Traced hashing ext [] p₀ := by
    refine ⟨_, blank_same hnone, .nil fun _ => rfl, ?_⟩
    intro tid th hth
    cases hth
  have htraced := System.after_run (K := fun _ p l => HashFits hashing l p)
    (fun _ _ _ _ h hfits hstep => Traced.step h hfits hstep) hblank hrun ?_
  · rwa [List.nil_append] at htraced
  · intro before q l after heq
    exact hfits (q, l) (by simp [heq])

/-- **A token is given for a password**: a thread that is about to insert a token serves a login.  When it
    looked the account up, the book had the user under this account, and no other key than that of the
    password. -/
theorem token_needs_password {p₀ p : ServerPool} (hnone : ∀ tid, p₀.threads tid = none)
    (hext : ext.checkPassword = hashing.checkPassword) {ls : List (Label Choice Start)}
    (hrun : (server ext).run ls p₀ = some p)
    (hfits : ∀ x ∈ (server ext).steps ls p₀, HashFits hashing x.2 x.1) {row : UserToken}
    (hat : AtOp p tid (.db (.createUserToken row))) :
    ∃ caller loginAccount password, .spawn tid (.request caller (.userLogin loginAccount password)) ∈ ls ∧
      ∃ x ∈ (server ext).steps ls p₀, x.2.tid = tid ∧
        ∃ key?, shown hashing x.1.shared.db.user row.userID = some (loginAccount, key?) ∧
          ∀ key ∈ key?, key = hashing.key password := by
  obtain ⟨k, ℓ, hth⟩ := hat
  obtain ⟨q, hsame, hkept, hfrom⟩ := Traced.run hnone hrun hfits
  obtain ⟨page, hth'⟩ := hsame.thread hth
  obtain ⟨loginAccount, password, u, hreq, haccount, hcheck, hrow⟩ :=
    (Walk.op_iff.mp (hkept.keeps tid _ hth')).1
  obtain ⟨caller, hspawn⟩ := (hfrom tid _ hth').req _ hreq
  obtain ⟨x, hx, htid, hu, rfl⟩ := (hfrom tid _ hth').account _ _ haccount
  rw [System.labels_of_run hrun] at hspawn
  rw [hext] at hcheck
  refine ⟨caller, u.loginAccount, password, hspawn, x, hx, htid, hashing.fitted u.password, ?_,
    fun key hkey => key_of_fitted hkey hcheck⟩
  simp [shown, hrow, hu]

/-- The user that has just been added logs in. -/
theorem token_needs_password_one : ∃ p caller loginAccount password,
    (server oneExternals).run (adding ++ loggingIn) emptyServer = some p ∧
    .spawn 1 (.request caller (.userLogin loginAccount password)) ∈ adding ++ loggingIn ∧
    ∃ x ∈ (server oneExternals).steps (adding ++ loggingIn) emptyServer, x.2.tid = 1 ∧
      ∃ key?, shown onePassword x.1.shared.db.user 1 = some (loginAccount, key?) ∧
        ∀ key ∈ key?, key = password := by
  have hrun : ∃ p row, (server oneExternals).run (adding ++ loggingIn) emptyServer = some p ∧
      ((server oneExternals).steps (adding ++ loggingIn) emptyServer).filterMap
        (fun x => hashed x.2 x.1) = [("abc123xyz", bcryptHash)] ∧
      AtOp p 1 (.db (.createUserToken row)) ∧ row.userID = 1 :=
    ⟨_, _, rfl, rfl, ⟨_, _, rfl⟩, rfl⟩
  obtain ⟨p, row, hp, hhashes, hat, huser⟩ := hrun
  have hext : oneExternals.checkPassword = onePassword.checkPassword := rfl
  obtain ⟨caller, loginAccount, password, hspawn, hx⟩ := token_needs_password
    (fun _ => rfl) hext hp (hashFits_of_steps hhashes) hat
  rw [huser] at hx
  exact ⟨p, caller, loginAccount, password, hp, hspawn, hx⟩

end Pools

end Gonitor.Concurrent.Credentials
