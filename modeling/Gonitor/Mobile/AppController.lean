import Gonitor.Framework.LabelledTraces
import Mathlib.Logic.Function.Basic

/-!
# The Controller of the Mobile Client

`GonitorAppController`: a session, what the client shows, and the requests that are in progress.  The
client runs on one thread; between two `await`s nothing else happens, so a step is what one call or one
completion does up to its next `await`.  A refresh sends all its requests at once, with the session of
that moment, and goes on when all have been answered.

What nothing here looks into is of any type.  `Source` is not part of the client: it says with which
session something has been fetched.
-/

namespace Gonitor.Mobile

variable {β : Type}

/-! ## Data -/

structure AppSession where
  baseUrl : String
  token : String
  account : String
  deriving DecidableEq

structure TaskSummary (β : Type) where
  id : Int
  rest : β
  deriving DecidableEq

structure TaskDetailBundle (β : Type) where
  task : TaskSummary β
  rest : β
  deriving DecidableEq

/-- The results of `Future.wait` in `refreshAll`. -/
structure Results (β : Type) where
  dashboard : β
  tasks : List (TaskSummary β)
  nodes : List β
  users : List β
  operations : List β
  deriving DecidableEq

/-- `DemoSeed` -/
structure DemoSeed (β : Type) extends Results β where
  taskDetail : TaskDetailBundle β
  deriving DecidableEq

/-- Where something that is shown comes from. -/
inductive Source
  | demo
  | session (s : AppSession)
  deriving DecidableEq

structure Sourced (α : Type) where
  source : Source
  data : α
  deriving DecidableEq

/-- A call of `login` that waits for the server. -/
structure Login where
  baseUrl : String
  account : String
  password : String
  deriving DecidableEq

/-- A call of `refreshAll`, with the session its requests were sent with: it waits for them, or for the
    detail of a task, which it asks for with a session again.  `ofLogin` if `login` waits for it. -/
structure Refresh where
  session : AppSession
  ofLogin : Bool
  waitsForDetail : Option (AppSession × Int) := none
  deriving DecidableEq

/-- `GonitorAppController`, and the calls that are in progress. -/
structure AppController (β : Type) where
  session : Option AppSession := none
  isBusy : Bool := false
  isRefreshing : Bool := false
  isDemoMode : Bool := false
  errorMessage : Option String := none
  currentIndex : Nat := 0
  dashboard : Sourced β
  tasks : Sourced (List (TaskSummary β))
  nodes : Sourced (List β)
  users : Sourced (List β)
  operations : Sourced (List β)
  selectedTaskDetail : Option (TaskDetailBundle β)
  logins : Nat → Option Login := fun _ => none
  refreshes : Nat → Option Refresh := fun _ => none

/-! ## Texts -/

/-- The characters that `trim` removes. -/
def isSpace (c : Char) : Bool :=
  c ∈ ['\t', '\n', '\x0b', '\x0c', '\r', ' ', '\u0085', '\u00a0', '\u1680', '\u2028', '\u2029',
    '\u202f', '\u205f', '\u3000', '\ufeff'] || ('\u2000' ≤ c && c ≤ '\u200a')

def trim (s : List Char) : List Char :=
  ((s.dropWhile isSpace).reverse.dropWhile isSpace).reverse

/-- `replaceAll(RegExp(r'/+$'), '')` -/
def dropSlashes (s : List Char) : List Char := (s.reverse.dropWhile (· == '/')).reverse

/-- `_normalizeBaseUrl` -/
def normalizeBaseUrl (raw : String) : Except String String :=
  let trimmed := trim raw.toList
  if trimmed.isEmpty then .error "Exception: 请输入 Gonitor 服务地址"
  else if "http://".toList.isPrefixOf trimmed || "https://".toList.isPrefixOf trimmed then
    .ok (String.ofList (dropSlashes trimmed))
  else .ok (String.ofList ("http://".toList ++ dropSlashes trimmed))

/-- `replaceFirst(pattern, '')` -/
def removeFirst (pattern : List Char) : List Char → List Char
  | [] => []
  | c :: rest =>
    if pattern.isPrefixOf (c :: rest) then (c :: rest).drop pattern.length
    else c :: removeFirst pattern rest

/-- The message that an error is shown as. -/
def messageOf (error : String) : String :=
  String.ofList (removeFirst "Exception: ".toList error.toList)

/-- What `session!` throws. -/
def nullCheckError : String := "Null check operator used on a null value"

/-! ## Calls and completions -/

/-- What happens in a step: a call, or the end of an `await`. -/
inductive Label (β : Type)
  | useDemoMode
  | login (n : Nat) (baseUrl account password : String)
  | loggedIn (n r : Nat) (token : String)
  | loginFails (n : Nat) (error : String)
  | refreshAll (r : Nat)
  | answers (r : Nat) (results : Results β)
  | detail (r : Nat) (bundle : TaskDetailBundle β)
  | refreshFails (r : Nat) (error : String)
  | selectTab (index : Nat)
  | logout

namespace AppController

/-- The five fields are assigned. -/
def assign (app : AppController β) (source : Source) (results : Results β) : AppController β :=
  { app with
    dashboard := ⟨source, results.dashboard⟩
    tasks := ⟨source, results.tasks⟩
    nodes := ⟨source, results.nodes⟩
    users := ⟨source, results.users⟩
    operations := ⟨source, results.operations⟩ }

/-- The controller when the client starts. -/
def start (seed : DemoSeed β) : AppController β where
  dashboard := ⟨.demo, seed.dashboard⟩
  tasks := ⟨.demo, seed.tasks⟩
  nodes := ⟨.demo, seed.nodes⟩
  users := ⟨.demo, seed.users⟩
  operations := ⟨.demo, seed.operations⟩
  selectedTaskDetail := some seed.taskDetail

/-- The session of the demo. -/
def demoSession : AppSession := ⟨"https://demo.gonitor.local", "demo-token", "demo"⟩

def useDemoMode (seed : DemoSeed β) (app : AppController β) : AppController β :=
  { app.assign .demo seed.toResults with
    session := some demoSession
    isDemoMode := true
    errorMessage := none
    selectedTaskDetail := some seed.taskDetail }

/-- `login` up to its request. -/
def login (app : AppController β) (n : Nat) (baseUrl account password : String) : AppController β :=
  match normalizeBaseUrl baseUrl with
  | .error error => { app with errorMessage := some (messageOf error), isBusy := false }
  | .ok normalizedBaseUrl =>
    { app with
      isBusy := true
      errorMessage := none
      logins := Function.update app.logins n (some ⟨normalizedBaseUrl, account, password⟩) }

/-- `refreshAll` up to its first `await`. -/
def refreshAll (app : AppController β) (r : Nat) (ofLogin : Bool) : AppController β :=
  match app.session with
  | none => app
  | some session =>
    if app.isDemoMode then app
    else
      { app with
        isRefreshing := true
        errorMessage := none
        refreshes := Function.update app.refreshes r (some { session, ofLogin }) }

/-- `login` goes on with its token. -/
def loggedIn (app : AppController β) (n r : Nat) (login : Login) (token : String) : AppController β :=
  { app with
    session := some ⟨login.baseUrl, token, login.account⟩
    isDemoMode := false
    logins := Function.update app.logins n none }.refreshAll r true

def loginFails (app : AppController β) (n : Nat) (error : String) : AppController β :=
  { app with
    errorMessage := some (messageOf error)
    isBusy := false
    logins := Function.update app.logins n none }

/-- The `finally` of `refreshAll`, and that of `login` if it has waited. -/
def finish (app : AppController β) (r : Nat) (refresh : Refresh) : AppController β :=
  { app with
    isRefreshing := false
    isBusy := if refresh.ofLogin then false else app.isBusy
    refreshes := Function.update app.refreshes r none }

/-- `refreshAll` ends in its `catch`. -/
def refreshFails (app : AppController β) (r : Nat) (refresh : Refresh) (error : String) :
    AppController β :=
  { app with errorMessage := some (messageOf error) }.finish r refresh

/-- The task whose detail is fetched: the one that is selected, if there still is one, or the first. -/
def nextId (app : AppController β) (first : TaskSummary β) (tasks : List (TaskSummary β)) : Int :=
  match app.selectedTaskDetail with
  | none => first.id
  | some detail =>
    if (first :: tasks).any fun task => task.id == detail.task.id then detail.task.id else first.id

/-- `refreshAll` goes on when all its requests have been answered: whatever the session is now. -/
def answers (app : AppController β) (r : Nat) (refresh : Refresh) (results : Results β) :
    AppController β :=
  let shown := app.assign (.session refresh.session) results
  match results.tasks with
  | [] => { shown with selectedTaskDetail := none }.finish r refresh
  | first :: tasks =>
    match app.session with
    | none => shown.refreshFails r refresh nullCheckError
    | some session =>
      { shown with
        refreshes := Function.update app.refreshes r
          (some { refresh with waitsForDetail := some (session, app.nextId first tasks) }) }

/-- `refreshAll` ends with the detail of the task. -/
def detail (app : AppController β) (r : Nat) (refresh : Refresh) (bundle : TaskDetailBundle β) :
    AppController β :=
  { app with selectedTaskDetail := some bundle }.finish r refresh

def logout (app : AppController β) : AppController β :=
  { app with session := none, currentIndex := 0, errorMessage := none, isDemoMode := false }

/-- One step. -/
def step (seed : DemoSeed β) : Label β → AppController β → Option (AppController β)
  | .useDemoMode, app => some (app.useDemoMode seed)
  | .login n baseUrl account password, app =>
    if (app.logins n).isNone then some (app.login n baseUrl account password) else none
  | .loggedIn n r token, app =>
    match app.logins n with
    | some login =>
      if token ≠ "" ∧ (app.refreshes r).isNone then some (app.loggedIn n r login token) else none
    | none => none
  | .loginFails n error, app =>
    match app.logins n with
    | some _ => some (app.loginFails n error)
    | none => none
  | .refreshAll r, app => if (app.refreshes r).isNone then some (app.refreshAll r false) else none
  | .answers r results, app =>
    match app.refreshes r with
    | some refresh =>
      if refresh.waitsForDetail.isNone then some (app.answers r refresh results) else none
    | none => none
  | .detail r bundle, app =>
    match app.refreshes r with
    | some refresh =>
      if refresh.waitsForDetail.isSome then some (app.detail r refresh bundle) else none
    | none => none
  | .refreshFails r error, app =>
    match app.refreshes r with
    | some refresh => some (app.refreshFails r refresh error)
    | none => none
  | .selectTab index, app => some { app with currentIndex := index }
  | .logout, app => some app.logout

end AppController

end Gonitor.Mobile
