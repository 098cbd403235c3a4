import Gonitor.Web.Routes

/-!
# Authentication

What `CheckToken` lets through to the action of a route.  It aborts when the query says that
there is no such token, and when the row found has expired; any other error of the query falls
through to the action, under the user id of an empty `userToken`.

## Main Results

- `checkToken_guards_iff`: when the action is run only for a live, unexpired token, and under
  the user id of its row.
- `two_tokens_reach_action`: a request with two `Token` headers reaches every action.
-/

namespace Gonitor.Web

open Gonitor.Model Gonitor.Server SoftDelete

variable {w : World} {handlers : List Middleware} {c c' : Context}

/-! ## The user id handed to the action -/

/-- The URL parameter that hides the one `CheckToken` adds, if there is one. -/
def urlUserId (c : Context) : Option String :=
  (c.params.find? fun p => p.1 == "current_user_id").map Prod.snd

theorem find_added (h : Middleware.checkToken ∈ handlers) :
    (handlers.flatMap (Middleware.added w)).find? (fun p => p.1 == "current_user_id") =
      some ("current_user_id", toString w.query.userToken.userID) := by
  induction handlers with
  | nil => cases h
  | cons handler rest ih =>
    rw [List.flatMap_cons, List.find?_append]
    cases handler with
    | checkToken => rfl
    | exception => exact ih (by simpa using h)
    | cors => exact ih (by simpa using h)

/-- A guarded action reads its user id from the URL, or else from the row of the query. -/
theorem param_of_runHandlers (hguard : Middleware.checkToken ∈ handlers)
    (h : runHandlers w handlers c = .ok c') :
    c'.param "current_user_id" = (urlUserId c).getD (toString w.query.userToken.userID) := by
  have hparams := (runHandlers_ok h).2
  unfold Context.param urlUserId
  rw [hparams, List.find?_append, find_added hguard]
  cases c.params.find? fun p => p.1 == "current_user_id" with
  | none => rfl
  | some p => rfl

/-! ## The guarantee -/

/-- The row is in the table, live and unexpired, and its token is the one the request presents. -/
def Authorizes (w : World) (c : Context) (row : UserToken) : Prop :=
  row ∈ c.userToken.rows ∧ live row = true ∧ c.request.token = [row.token] ∧
    expired w.now row = false

/-- The action is run only for a presented token that authorizes, and under its user id; in
    every other case the chain is aborted. -/
def FailsClosed (w : World) (handlers : List Middleware) (c : Context) : Prop :=
  ∀ c', runHandlers w handlers c = .ok c' →
    ∃ row, Authorizes w c row ∧ c'.param "current_user_id" = toString row.userID

/-- `Cors` aborts the request; or the query finds nothing, or an expired row; or it has read a
    row, whose user id no URL parameter hides.  Otherwise the user id is that of the URL or 0,
    and by coincidence a token of this user is presented. -/
def Guarded (w : World) (handlers : List Middleware) (c : Context) : Prop :=
  (c.request.method = "OPTIONS" ∧ Middleware.cors ∈ handlers) ∨
  w.query.error = some .recordNotFound ∨
  expired w.now w.query.userToken = true ∨
  (w.query.userToken ∈ presented c.userToken c.request.token ∧ urlUserId c = none) ∨
  ∃ row, Authorizes w c row ∧ toString row.userID = (urlUserId c).getD "0"

theorem mem_presented {tokens : Table UserToken} {values : List String} {row : UserToken} :
    row ∈ presented tokens values ↔ row ∈ tokens.rows ∧ live row = true ∧ values = [row.token] := by
  unfold presented
  split
  · rename_i token
    simp only [Table.find, List.mem_filter, Bool.and_eq_true, beq_iff_eq, List.cons.injEq, and_true]
    rw [eq_comm (a := token)]
  · rename_i hnot
    refine iff_of_false (by simp) ?_
    rintro ⟨-, -, hvalues⟩
    exact hnot _ hvalues

/-- The query has read a presented row, or left `userToken` as it was. -/
theorem Finds.read {tokens : Table UserToken} {values : List String} {q : TokenQuery}
    (h : Finds tokens values q) : q.userToken ∈ presented tokens values ∨
      q.userToken = UserToken.zero := by
  cases h with
  | row hrow => exact .inl hrow
  | notFound => exact .inr rfl
  | failure => exact .inr rfl
  | interrupted _ hrow => exact .inl hrow

/-- Unless one of the first three cases of `Guarded` applies, every handler passes. -/
theorem passes_of_not_aborted (hcors : ¬ (c.request.method = "OPTIONS" ∧ Middleware.cors ∈ handlers))
    (hfound : w.query.error ≠ some .recordNotFound)
    (hlive : expired w.now w.query.userToken = false) :
    ∀ handler ∈ handlers, handler.passes w c.request.method = true := by
  intro handler hmem
  cases handler with
  | exception => rfl
  | cors => simpa [Middleware.passes] using fun hmethod => hcors ⟨hmethod, hmem⟩
  | checkToken => simp [Middleware.passes, hfound, hlive]

/-- **When the token check fails closed.**  Every route that is registered under a group with
    `CheckToken`, at any depth, runs its action only for a live, unexpired token of the request
    and under its user id, if and only if `Guarded` holds of the request. -/
theorem checkToken_guards_iff {A : Type} {g : Group} {callback : List (Call A)} {route : Route A}
    (hroute : route ∈ g.calls callback) (hguard : Middleware.checkToken ∈ g.middlewares)
    (hquery : Finds c.userToken c.request.token w.query) :
    FailsClosed w route.middlewares c ↔ Guarded w route.middlewares c := by
  have hcheck : Middleware.checkToken ∈ route.middlewares :=
    (Group.calls_middlewares g callback hroute).subset hguard
  constructor
  · intro hclosed
    by_contra hnot
    simp only [Guarded, not_or] at hnot
    obtain ⟨hcors, hfound, hexpired, hread, hcoincidence⟩ := hnot
    -- nothing aborts, so the action is run
    obtain ⟨c', hc'⟩ := runHandlers_of_passes
      (passes_of_not_aborted hcors hfound (by simpa using hexpired))
    obtain ⟨row, hauth, huser⟩ := hclosed c' hc'
    rw [param_of_runHandlers hcheck hc'] at huser
    apply hcoincidence
    refine ⟨row, hauth, ?_⟩
    cases hurl : urlUserId c with
    | some user => simpa [hurl] using huser.symm
    | none =>
      -- the query has not read a row
      have hzero : w.query.userToken = UserToken.zero :=
        hquery.read.resolve_left fun hrow => hread ⟨hrow, hurl⟩
      rw [hurl, hzero] at huser
      exact huser.symm
  · intro hguarded c' hc'
    have hpasses := (runHandlers_ok hc').1
    have hcheckPasses := hpasses _ hcheck
    simp only [Middleware.passes, Bool.and_eq_true, bne_iff_ne, ne_eq, Bool.not_eq_true']
      at hcheckPasses
    obtain ⟨hfound, hlive⟩ := hcheckPasses
    have hparam := param_of_runHandlers hcheck hc'
    -- the row that was read authorizes
    have hauthorizes : w.query.userToken ∈ presented c.userToken c.request.token →
        Authorizes w c w.query.userToken := by
      intro hrow
      obtain ⟨hmem, hl, hvalues⟩ := mem_presented.mp hrow
      exact ⟨hmem, hl, hvalues, hlive⟩
    rcases hguarded with ⟨hmethod, hcors⟩ | hnotFound | hexpired | ⟨hrow, hurl⟩ |
      ⟨row, hauth, huser⟩
    -- in the first three cases a handler aborts
    · have hstop := hpasses _ hcors
      simp [Middleware.passes, hmethod] at hstop
    · exact absurd hnotFound hfound
    · rw [hlive] at hexpired
      cases hexpired
    · -- the action reads the user id of the row
      refine ⟨w.query.userToken, hauthorizes hrow, ?_⟩
      rw [hparam, hurl]
      rfl
    · cases hurl : urlUserId c with
      | some user =>
        refine ⟨row, hauth, ?_⟩
        rw [hparam, huser, hurl]
        rfl
      | none =>
        rcases hquery.read with hrow | hzero
        · refine ⟨w.query.userToken, hauthorizes hrow, ?_⟩
          rw [hparam, hurl]
          rfl
        · refine ⟨row, hauth, ?_⟩
          rw [hparam, huser, hurl, hzero]
          rfl

/-! ## Two requests -/

/-- The route of `GetSelfInfo`. -/
def selfInfoRoute : Route Action :=
  ⟨.GET, [.static "user", .static "selfInfo"], [.exception, .cors, .checkToken], .getSelfInfo⟩

/-- The group that it is registered in. -/
def adminGroup : Group := ⟨[.static "user"], [.exception, .cors, .checkToken]⟩

/-- A request to it that presents these tokens. -/
def selfInfoRequest (tokens : List String) (userToken : Table UserToken) : Context where
  request := { method := "GET", origin := "", token := tokens }
  params := []
  userToken := userToken

/-- A token of user 7, created at instant 0. -/
def oneToken : Table UserToken := Table.empty.create ⟨Base.zero, 7, "t", 100⟩ 0

/-- A valid token reaches the action, and the check fails closed. -/
theorem checkToken_guards_iff_oneToken : ∃ w c,
    (∃ c', runHandlers w selfInfoRoute.middlewares c = .ok c' ∧ c'.param "current_user_id" = "7") ∧
      FailsClosed w selfInfoRoute.middlewares c := by
  have hrow : (⟨⟨1, 0, 0, none⟩, 7, "t", 100⟩ : UserToken) ∈ presented oneToken ["t"] :=
    List.mem_singleton_self _
  have hroute : selfInfoRoute ∈
      adminGroup.calls [.registered .GET [.static "selfInfo"] .getSelfInfo] :=
    List.mem_singleton_self _
  refine ⟨⟨⟨⟨⟨1, 0, 0, none⟩, 7, "t", 100⟩, none⟩, 50, true⟩, selfInfoRequest ["t"] oneToken,
    ⟨_, rfl, by decide⟩, ?_⟩
  apply (checkToken_guards_iff hroute (by decide) (.row hrow)).mpr
  exact .inr (.inr (.inr (.inl ⟨hrow, rfl⟩)))

/-- Two `Token` headers make the query fail, and with no token in the table the action is run. -/
theorem two_tokens_reach_action :
    ¬ ∀ (g : Group) (callback : List (Call Action)), ∀ route ∈ g.calls callback, route ∈ routes →
      Middleware.checkToken ∈ g.middlewares → ∀ w c, Finds c.userToken c.request.token w.query →
        FailsClosed w route.middlewares c := by
  intro hall
  have hclosed := hall adminGroup [.registered .GET [.static "selfInfo"] Action.getSelfInfo]
    selfInfoRoute (List.mem_singleton_self _) (by decide) (by decide)
    ⟨⟨UserToken.zero, some (.failure "near \",\": syntax error")⟩, 50, true⟩
    (selfInfoRequest ["a", "b"] Table.empty) (.failure _)
  obtain ⟨row, ⟨hmem, -⟩, -⟩ := hclosed _ rfl
  cases hmem

end Gonitor.Web
