import Gonitor.Controller.Response
import Mathlib.Data.List.Basic

/-!
# Middlewares

The handlers of `package middleware` and `package exception` that stand before the action of a
route, and the chain they form.  A handler takes the context of the request and either hands it
on or aborts the chain.

The query of `CheckToken` is answered by gorm, which is not part of the repository; `Finds` says
which answers it can give.  `Where("token = ?", values)` takes the slice of header values apart,
one placeholder for each, so only a single value gives a condition the database can read.
-/

namespace Gonitor.Web

open Gonitor.Model Gonitor.Server Gonitor.Controller SoftDelete

/-! ## Contexts -/

/-- What the handlers read and change of `http.Request`. -/
structure Request where
  method : String
  origin : String
  token : List String
  userId : List String := []

/-- `gin.Context`: the request, the parameters of its URL, the headers of the response so far,
    and the token table behind it. -/
structure Context where
  request : Request
  params : List (String × String)
  header : List (String × String) := []
  userToken : Table UserToken

/-- `c.Param`: the first parameter of this name. -/
def Context.param (c : Context) (key : String) : String :=
  ((c.params.find? fun p => p.1 == key).map Prod.snd).getD ""

/-- `c.Header` -/
def Context.setHeader (c : Context) (key value : String) : Context :=
  { c with header := c.header ++ [(key, value)] }

/-- `c.AddParam` -/
def Context.addParam (c : Context) (key value : String) : Context :=
  { c with params := c.params ++ [(key, value)] }

/-- `c.Request.Header.Add("user_id", _)` -/
def Context.addUserId (c : Context) (value : String) : Context :=
  { c with request := { c.request with userId := c.request.userId ++ [value] } }

/-- What an aborted chain answers: `AbortWithStatus`, or `AbortWithStatusJSON`. -/
inductive Abort
  | status (code : Nat)
  | json (code : Nat) (body : Response)
  deriving DecidableEq

/-- What a handler leaves: the context for the next one, or the answer of an aborted chain. -/
abbrev Handled := Except (Abort × Context) Context

/-! ## The token query -/

/-- `model.UserToken{}` -/
def UserToken.zero : UserToken where
  toStamps := Base.zero
  userID := 0
  token := ""
  expiredAt := 0

/-- `core.Db.Where("token = ?", token).Find(&userToken)`: what is in `userToken` afterwards, and
    `dbResult.Error`. -/
structure TokenQuery where
  userToken : UserToken
  error : Option DbError

/-- The live rows of the table with the presented token. -/
def presented (tokens : Table UserToken) (values : List String) : List UserToken :=
  match values with
  | [token] => tokens.find fun row => row.token == token
  | _ => []

/-- The answers of gorm to the query for these values.  A found row is any of the matching ones
    (`Find` into a structure keeps the last that the database yields).  An error other than
    `ErrRecordNotFound` can come at any time, also while the rows are read. -/
inductive Finds (tokens : Table UserToken) (values : List String) : TokenQuery → Prop
  | row {row : UserToken} : row ∈ presented tokens values → Finds tokens values ⟨row, none⟩
  | notFound : values.length ≤ 1 → presented tokens values = [] →
      Finds tokens values ⟨UserToken.zero, some .recordNotFound⟩
  | failure (text : String) : Finds tokens values ⟨UserToken.zero, some (.failure text)⟩
  | interrupted {row : UserToken} (text : String) : row ∈ presented tokens values →
      Finds tokens values ⟨row, some (.failure text)⟩

/-- What the world decides while a request is handled: the answer to the token query, the time,
    and whether the clean-up of an expired token succeeds. -/
structure World where
  query : TokenQuery
  now : Time
  cleans : Bool := true

/-- `!ExpiredAt.IsZero() && ExpiredAt.Before(now)` -/
def expired (now : Time) (row : UserToken) : Bool := row.expiredAt != 0 && row.expiredAt < now

/-! ## Handlers -/

/-- `exception.Exception`; it acts on panics, and no handler before the action panics. -/
def exception (c : Context) : Handled := .ok c

/-- The headers that `Cors` sets. -/
def corsHeaders (c : Context) : Context :=
  let c := if c.request.origin ≠ "" then c.setHeader "Access-Control-Allow-Origin" c.request.origin else c
  let c := c.setHeader "Access-Control-Allow-Headers"
    "Content-Type,AccessToken,X-CSRF-Token, Authorization, Token"
  let c := c.setHeader "Access-Control-Allow-Methods" "POST, OPTIONS, GET, PUT, DELETE"
  let c := c.setHeader "Access-Control-Expose-Headers"
    "Content-Length, Access-Control-Allow-Origin, Access-Control-Allow-Headers, Content-Type"
  c.setHeader "Access-Control-Allow-Credentials" "true"

/-- `middleware.Cors`; after an abort its `context.Next()` runs nothing. -/
def cors (c : Context) : Handled :=
  let c := corsHeaders c
  if c.request.method = "OPTIONS" then .error (.status 204, c) else .ok c

/-- `middleware.CheckToken` -/
def checkToken (w : World) (c : Context) : Handled :=
  let userToken := w.query.userToken
  if w.query.error = some .recordNotFound then
    .error (.json 200 (error ErrorCode.TOKEN_EXPIRED "登录状态失效, 请重新登录"), c)
  else if expired w.now userToken then
    let c := if w.cleans then { c with userToken := c.userToken.delete userToken.id w.now } else c
    .error (.json 200 (error ErrorCode.TOKEN_EXPIRED "登录已过期, 请重新登录"), c)
  else
    -- any other error comes here too, with `userToken` as the query left it
    .ok ((c.addParam "current_user_id" (toString userToken.userID)).addUserId
      (toString userToken.userID))

/-- The handlers that `kernel.Middleware` and `routes.config` put before actions. -/
inductive Middleware
  | exception
  | cors
  | checkToken
  deriving DecidableEq, Repr

/-- Run the handler. -/
def Middleware.handle (w : World) : Middleware → Context → Handled
  | .exception => Web.exception
  | .cors => Web.cors
  | .checkToken => Web.checkToken w

/-- The handlers run in the order of their registration, until one aborts. -/
def runHandlers (w : World) (handlers : List Middleware) (c : Context) : Handled :=
  handlers.foldlM (fun c handler => handler.handle w c) c

/-! ## What the chain hands to the action -/

/-- The handler does not abort a request of this method. -/
def Middleware.passes (w : World) (method : String) : Middleware → Bool
  | .exception => true
  | .cors => method != "OPTIONS"
  | .checkToken => w.query.error != some .recordNotFound && !expired w.now w.query.userToken

/-- The parameters that the handler adds. -/
def Middleware.added (w : World) : Middleware → List (String × String)
  | .checkToken => [("current_user_id", toString w.query.userToken.userID)]
  | _ => []

theorem request_corsHeaders (c : Context) : (corsHeaders c).request = c.request := by
  unfold corsHeaders
  split <;> rfl

theorem params_corsHeaders (c : Context) : (corsHeaders c).params = c.params := by
  unfold corsHeaders
  split <;> rfl

/-- What a handler that does not abort hands on. -/
theorem handle_ok {w : World} {handler : Middleware} {c c' : Context}
    (h : handler.handle w c = .ok c') :
    handler.passes w c.request.method = true ∧ c'.request.method = c.request.method ∧
      c'.params = c.params ++ handler.added w := by
  cases handler with
  | exception =>
    cases h
    exact ⟨rfl, rfl, (List.append_nil _).symm⟩
  | cors =>
    simp only [Middleware.handle, cors] at h
    split at h
    · -- `OPTIONS` is answered here
      cases h
    · rename_i hmethod
      cases h
      rw [request_corsHeaders] at hmethod ⊢
      rw [params_corsHeaders]
      exact ⟨by simpa [Middleware.passes] using hmethod, rfl, (List.append_nil _).symm⟩
  | checkToken =>
    -- a token that is not found and one that has expired abort
    simp only [Middleware.handle, checkToken] at h
    split at h
    · cases h
    · split at h
      · cases h
      · rename_i hfound hlive
        cases h
        exact ⟨by simp [Middleware.passes, hfound, hlive], rfl, rfl⟩

/-- A handler that passes the method does not abort. -/
theorem handle_of_passes {w : World} {handler : Middleware} {c : Context}
    (h : handler.passes w c.request.method = true) : ∃ c', handler.handle w c = .ok c' := by
  cases handler with
  | exception => exact ⟨c, rfl⟩
  | cors =>
    have hmethod : (corsHeaders c).request.method ≠ "OPTIONS" := by
      rw [request_corsHeaders]
      simpa [Middleware.passes] using h
    exact ⟨corsHeaders c, if_neg hmethod⟩
  | checkToken =>
    simp only [Middleware.passes, Bool.and_eq_true, bne_iff_ne, ne_eq, Bool.not_eq_true'] at h
    show ∃ c', checkToken w c = .ok c'
    simp only [checkToken, if_neg h.1, h.2]
    exact ⟨_, rfl⟩

/-- The context that reaches the action has the parameters that the handlers have added, in
    their order, after those of the URL; and no handler has aborted. -/
theorem runHandlers_ok {w : World} {handlers : List Middleware} {c c' : Context}
    (h : runHandlers w handlers c = .ok c') :
    (∀ handler ∈ handlers, handler.passes w c.request.method = true) ∧
      c'.params = c.params ++ handlers.flatMap (Middleware.added w) := by
  induction handlers generalizing c with
  | nil =>
    cases h
    simp
  | cons handler rest ih =>
    simp only [runHandlers, List.foldlM_cons] at h
    cases hfirst : handler.handle w c with
    | error stop =>
      rw [hfirst] at h
      cases h
    | ok c₁ =>
      rw [hfirst] at h
      obtain ⟨hpasses, hmethod, hparams⟩ := handle_ok hfirst
      obtain ⟨hrest, hadded⟩ := ih h
      rw [hmethod] at hrest
      refine ⟨List.forall_mem_cons.mpr ⟨hpasses, hrest⟩, ?_⟩
      rw [hadded, hparams, List.append_assoc, List.flatMap_cons]

/-- If every handler passes the method, the chain reaches the action. -/
theorem runHandlers_of_passes {w : World} {handlers : List Middleware} {c : Context}
    (h : ∀ handler ∈ handlers, handler.passes w c.request.method = true) :
    ∃ c', runHandlers w handlers c = .ok c' := by
  induction handlers generalizing c with
  | nil => exact ⟨c, rfl⟩
  | cons handler rest ih =>
    obtain ⟨hfirst, hrest⟩ := List.forall_mem_cons.mp h
    obtain ⟨c₁, hc₁⟩ := handle_of_passes hfirst
    have hmethod := (handle_ok hc₁).2.1
    obtain ⟨c', hc'⟩ := ih (c := c₁) (by rwa [hmethod])
    refine ⟨c', ?_⟩
    simp only [runHandlers, List.foldlM_cons, hc₁]
    exact hc'

end Gonitor.Web
