import Gonitor.Mobile.AppController

/-!
# A Refresh That Fails

`refreshAll` waits for ten requests, assigns what they have answered, and waits for the detail of a task
after that.  Where the detail fails, the data has been replaced although the refresh ends with an error.

`Outcomes` is what the server answers to the requests of one refresh, and `Refreshed` a refresh from its
call to its end during which nothing else happens to the controller.

## Main Results

- `exists_refreshed`: a refresh ends, whatever fails.
- `outcome_of_refreshed`: the four ways it ends.
- `failed_refresh_keeps_data_iff`: which refreshes either end with an error and change no data, or end
  without one and have fetched everything.
- `failed_detail_replaces_data`: a refresh that fails, and replaces the tasks.
-/

namespace Gonitor.Mobile

/-! ## Requests that are waited for -/

/-- What `Future.wait` ends with: the values, or the errors of the requests that have failed, at least
    one of them.  The first error in time is thrown, which may be any of them. -/
inductive Awaited (α : Type)
  | value (a : α)
  | failed (error : String) (others : List String)

namespace Awaited

variable {α β : Type}

def map (f : α → β) : Awaited α → Awaited β
  | value a => value (f a)
  | failed error others => failed error others

def seq : Awaited (α → β) → (Unit → Awaited α) → Awaited β
  | value f, x => (x ()).map f
  | failed error others, x =>
    match x () with
    | value _ => failed error others
    | failed error' others' => failed error (others ++ error' :: others')

instance : Applicative Awaited where
  pure := value
  map := map
  seq := seq

/-- A request that has been answered, or has failed. -/
def ofRequest : Except String α → Awaited α
  | .ok a => value a
  | .error error => failed error []

/-- The errors that may be thrown. -/
def errors : Awaited α → List String
  | value _ => []
  | failed error others => error :: others

end Awaited

variable {β : Type}

/-- The three requests of `getTaskDetail`. -/
structure DetailOutcomes (β : Type) where
  task : Except String (TaskSummary β)
  runningLogs : Except String β
  endedLogs : Except String β

/-- What the server answers to the requests of one refresh.  The information about a task that it
    answers with is about the task it has been asked for. -/
structure Outcomes (β : Type) where
  overview : Except String β
  cpu : Except String β
  memory : Except String β
  disk : Except String β
  net : Except String β
  settings : Except String β
  taskList : Except String (List (TaskSummary β))
  nodeList : Except String (List β)
  userList : Except String (List β)
  operationList : Except String (List β)
  taskDetail : Int → DetailOutcomes β
  asked : ∀ id task, (taskDetail id).task = .ok task → task.id = id

/-- The constructors `DashboardBundle` and `TaskDetailBundle`, as far as nothing looks into them. -/
structure Bundles (β : Type) where
  dashboard (overview cpu memory disk network settings : β) : β
  logs (runningLogs endedLogs : β) : β

namespace Outcomes

variable (bundles : Bundles β) (outcomes : Outcomes β)

/-- `_loadDashboard` -/
def loadDashboard : Awaited β :=
  bundles.dashboard <$> .ofRequest outcomes.overview <*> .ofRequest outcomes.cpu
    <*> .ofRequest outcomes.memory <*> .ofRequest outcomes.disk <*> .ofRequest outcomes.net
    <*> .ofRequest outcomes.settings

/-- The first stage of `refreshAll`. -/
def results : Awaited (Results β) :=
  Results.mk <$> outcomes.loadDashboard bundles <*> .ofRequest outcomes.taskList
    <*> .ofRequest outcomes.nodeList <*> .ofRequest outcomes.userList
    <*> .ofRequest outcomes.operationList

/-- `getTaskDetail` -/
def getTaskDetail (taskId : Int) : Awaited (TaskDetailBundle β) :=
  (fun task runningLogs endedLogs => ⟨task, bundles.logs runningLogs endedLogs⟩)
    <$> .ofRequest (outcomes.taskDetail taskId).task
    <*> .ofRequest (outcomes.taskDetail taskId).runningLogs
    <*> .ofRequest (outcomes.taskDetail taskId).endedLogs

/-- The end of an `await`: the refresh goes on with the values or fails with one of the errors. -/
def completes {α : Type} (r : Nat) (awaited : Awaited α) (goesOn : α → Label β) (l : Label β) :
    Prop :=
  (∃ a, awaited = .value a ∧ l = goesOn a) ∨ ∃ error ∈ awaited.errors, l = .refreshFails r error

/-- What may happen to a refresh that waits. -/
def Allows (r : Nat) (refresh : Refresh) (l : Label β) : Prop :=
  match refresh.waitsForDetail with
  | none => completes r (outcomes.results bundles) (.answers r) l
  | some (_, taskId) => completes r (outcomes.getTaskDetail bundles taskId) (.detail r) l

end Outcomes

/-- A detail is about the task it has been asked for. -/
theorem task_id_of_getTaskDetail {bundles : Bundles β} {outcomes : Outcomes β} {taskId : Int}
    {bundle : TaskDetailBundle β} (h : outcomes.getTaskDetail bundles taskId = .value bundle) :
    bundle.task.id = taskId := by
  simp only [Outcomes.getTaskDetail] at h
  cases htask : (outcomes.taskDetail taskId).task with
  | ok task =>
    have hid := outcomes.asked taskId task htask
    rw [htask] at h
    cases hrunning : (outcomes.taskDetail taskId).runningLogs <;>
      cases hended : (outcomes.taskDetail taskId).endedLogs <;> rw [hrunning, hended] at h <;> cases h
    exact hid
  | error error =>
    rw [htask] at h
    cases hrunning : (outcomes.taskDetail taskId).runningLogs <;>
      cases hended : (outcomes.taskDetail taskId).endedLogs <;> rw [hrunning, hended] at h <;> cases h

/-! ## A refresh alone -/

section Alone

variable (bundles : Bundles β) (outcomes : Outcomes β) (seed : DemoSeed β) (r : Nat)

/-- The refresh `r` goes on until it has ended, and nothing else happens. -/
inductive Ends : AppController β → AppController β → Prop
  | ended {app : AppController β} : app.refreshes r = none → Ends app app
  | goesOn {app app' app'' : AppController β} {refresh : Refresh} {l : Label β} :
      app.refreshes r = some refresh → outcomes.Allows bundles r refresh l →
      app.step seed l = some app' → Ends app' app'' → Ends app app''

/-- `refreshAll` from its call to its end. -/
def Refreshed (app app' : AppController β) : Prop :=
  ∃ started, app.step seed (.refreshAll r) = some started ∧ Ends bundles outcomes seed r started app'

end Alone

namespace AppController

/-- The five values that are shown. -/
def shown (app : AppController β) : Results β :=
  ⟨app.dashboard.data, app.tasks.data, app.nodes.data, app.users.data, app.operations.data⟩

/-- Nothing of what is shown has changed. -/
structure SameData (app app' : AppController β) : Prop where
  shown : app'.shown = app.shown
  selectedTaskDetail : app'.selectedTaskDetail = app.selectedTaskDetail

/-- Everything that is shown comes from the refresh, and the detail is about one of the tasks. -/
structure AllFetched (bundles : Bundles β) (outcomes : Outcomes β) (app' : AppController β) : Prop where
  shown : outcomes.results bundles = .value app'.shown
  detail : ∀ bundle ∈ app'.selectedTaskDetail,
    ∃ taskId, outcomes.getTaskDetail bundles taskId = .value bundle
  none_iff : app'.selectedTaskDetail = none ↔ app'.tasks.data = []
  mem : ∀ bundle ∈ app'.selectedTaskDetail, ∃ task ∈ app'.tasks.data, task.id = bundle.task.id

/-- The refresh has failed and changed nothing, or it has not failed and has fetched everything. -/
structure AllOrNothing (bundles : Bundles β) (outcomes : Outcomes β) (app app' : AppController β) :
    Prop where
  failed : app'.errorMessage ≠ none → SameData app app'
  succeeded : app'.errorMessage = none → AllFetched bundles outcomes app'

variable {bundles : Bundles β} {outcomes : Outcomes β} {seed : DemoSeed β} {r : Nat}
  {app app' app'' : AppController β} {session : AppSession} {refresh : Refresh}

/-! ## What the steps do -/

theorem nextId_mem (first : TaskSummary β) (tasks : List (TaskSummary β)) :
    ∃ task ∈ first :: tasks, task.id = app.nextId first tasks := by
  unfold nextId
  split
  · exact ⟨first, by simp, rfl⟩
  · split
    · rename_i hany
      simpa using hany
    · exact ⟨first, by simp, rfl⟩

/-- The controller while the ten requests are in progress. -/
def started (app : AppController β) (r : Nat) (session : AppSession) : AppController β :=
  { app with
    isRefreshing := true
    errorMessage := none
    refreshes := Function.update app.refreshes r (some { session, ofLogin := false }) }

theorem refreshAll_eq_started (hsession : app.session = some session) (hdemo : app.isDemoMode = false) :
    app.refreshAll r false = app.started r session := by
  simp [refreshAll, started, hsession, hdemo]

theorem step_refreshAll (hsession : app.session = some session) (hdemo : app.isDemoMode = false)
    (hstep : app.step seed (.refreshAll r) = some app') : app' = app.started r session := by
  simp only [step] at hstep
  split at hstep
  · rw [← refreshAll_eq_started hsession hdemo]
    exact (Option.some.inj hstep).symm
  · cases hstep

theorem step_refreshFails {error : String} (hr : app.refreshes r = some refresh) :
    app.step seed (.refreshFails r error) = some (app.refreshFails r refresh error) := by
  simp [step, hr]

theorem step_answers {results : Results β} (hr : app.refreshes r = some refresh)
    (hwaits : refresh.waitsForDetail = none) :
    app.step seed (.answers r results) = some (app.answers r refresh results) := by
  simp [step, hr, hwaits]

theorem step_detail {bundle : TaskDetailBundle β} (hr : app.refreshes r = some refresh)
    (hwaits : refresh.waitsForDetail.isSome = true) :
    app.step seed (.detail r bundle) = some (app.detail r refresh bundle) := by
  simp [step, hr, hwaits]

theorem refreshes_finish : (app.finish r refresh).refreshes r = none := by simp [finish]

/-- The refresh has ended. -/
theorem eq_of_ends (hr : app.refreshes r = none) (h : Ends bundles outcomes seed r app app') :
    app' = app := by
  cases h with
  | ended => rfl
  | goesOn hsome => simp [hr] at hsome

/-- The controller while the detail of a task is fetched. -/
def waiting (app : AppController β) (r : Nat) (session : AppSession) (results : Results β)
    (taskId : Int) : AppController β :=
  { (app.started r session).assign (.session session) results with
    refreshes := Function.update app.refreshes r
      (some { session, ofLogin := false, waitsForDetail := some (session, taskId) }) }

theorem answers_nil {results : Results β} (htasks : results.tasks = []) :
    app.answers r refresh results =
      { app.assign (.session refresh.session) results with
        selectedTaskDetail := none }.finish r refresh := by
  simp [answers, htasks]

theorem answers_started_cons {results : Results β} {first : TaskSummary β}
    {tasks : List (TaskSummary β)} (hsession : app.session = some session)
    (htasks : results.tasks = first :: tasks) :
    (app.started r session).answers r { session, ofLogin := false } results =
      app.waiting r session results (app.nextId first tasks) := by
  simp only [answers, htasks, started, hsession, waiting, Function.update_idem]
  rfl

/-! ## How a refresh ends -/

/-- The four ways a refresh ends. -/
inductive Outcome (bundles : Bundles β) (outcomes : Outcomes β) (app app' : AppController β) : Prop
  | firstStageFails {error : String} {others : List String}
      (hresults : outcomes.results bundles = .failed error others)
      (herror : app'.errorMessage ≠ none) (hsame : SameData app app')
  | noTasks {results : Results β} (hresults : outcomes.results bundles = .value results)
      (htasks : results.tasks = []) (herror : app'.errorMessage = none)
      (hshown : app'.shown = results) (hdetail : app'.selectedTaskDetail = none)
  | detailFails {results : Results β} {first : TaskSummary β} {tasks : List (TaskSummary β)}
      {error : String} {others : List String}
      (hresults : outcomes.results bundles = .value results) (htasks : results.tasks = first :: tasks)
      (hfails : outcomes.getTaskDetail bundles (app.nextId first tasks) = .failed error others)
      (herror : app'.errorMessage ≠ none) (hshown : app'.shown = results)
      (hdetail : app'.selectedTaskDetail = app.selectedTaskDetail)
  | detail {results : Results β} {first : TaskSummary β} {tasks : List (TaskSummary β)}
      {bundle : TaskDetailBundle β}
      (hresults : outcomes.results bundles = .value results) (htasks : results.tasks = first :: tasks)
      (hbundle : outcomes.getTaskDetail bundles (app.nextId first tasks) = .value bundle)
      (herror : app'.errorMessage = none) (hshown : app'.shown = results)
      (hdetail : app'.selectedTaskDetail = some bundle)

/-- What a refresh that waits for a detail ends with. -/
theorem outcome_of_waiting {results : Results β} {first : TaskSummary β} {tasks : List (TaskSummary β)}
    (hresults : outcomes.results bundles = .value results) (htasks : results.tasks = first :: tasks)
    (hends : Ends bundles outcomes seed r
      (app.waiting r session results (app.nextId first tasks)) app') :
    Outcome bundles outcomes app app' := by
  have hwaiting : (app.waiting r session results (app.nextId first tasks)).refreshes r =
      some { session, ofLogin := false,
             waitsForDetail := some (session, app.nextId first tasks) } := by
    simp [waiting]
  cases hends with
  | ended hnone => simp [hwaiting] at hnone
  | goesOn hr hallows hstep hends =>
    obtain rfl := Option.some.inj (hwaiting.symm.trans hr)
    obtain ⟨bundle, hbundle, rfl⟩ | ⟨error, herror, rfl⟩ := hallows
    · rw [step_detail hr rfl] at hstep
      cases hstep
      obtain rfl := eq_of_ends refreshes_finish hends
      exact .detail hresults htasks hbundle rfl rfl rfl
    · rw [step_refreshFails hr] at hstep
      cases hstep
      obtain rfl := eq_of_ends refreshes_finish hends
      cases hfails : outcomes.getTaskDetail bundles (app.nextId first tasks) with
      | value bundle =>
        rw [hfails] at herror
        cases herror
      | failed => exact .detailFails hresults htasks hfails nofun rfl rfl

/-- **How a refresh ends.** -/
theorem outcome_of_refreshed (hsession : app.session = some session) (hdemo : app.isDemoMode = false)
    (h : Refreshed bundles outcomes seed r app app') : Outcome bundles outcomes app app' := by
  obtain ⟨started, hstep, hends⟩ := h
  obtain rfl := step_refreshAll hsession hdemo hstep
  have hstarted : (app.started r session).refreshes r = some { session, ofLogin := false } := by
    simp [AppController.started]
  cases hends with
  | ended hnone => simp [hstarted] at hnone
  | goesOn hr hallows hstep hends =>
    obtain rfl := Option.some.inj (hstarted.symm.trans hr)
    obtain ⟨results, hresults, rfl⟩ | ⟨error, herror, rfl⟩ := hallows
    · rw [step_answers hr rfl] at hstep
      cases hstep
      cases htasks : results.tasks with
      | nil =>
        rw [answers_nil htasks] at hends
        obtain rfl := eq_of_ends refreshes_finish hends
        exact .noTasks hresults htasks rfl rfl rfl
      | cons first tasks =>
        rw [answers_started_cons hsession htasks] at hends
        exact outcome_of_waiting hresults htasks hends
    · rw [step_refreshFails hr] at hstep
      cases hstep
      obtain rfl := eq_of_ends refreshes_finish hends
      cases hresults : outcomes.results bundles with
      | value results =>
        rw [hresults] at herror
        cases herror
      | failed => exact .firstStageFails hresults nofun ⟨rfl, rfl⟩

/-- Whatever fails, a refresh ends. -/
theorem exists_refreshed (bundles : Bundles β) (outcomes : Outcomes β) (seed : DemoSeed β)
    (hsession : app.session = some session) (hdemo : app.isDemoMode = false)
    (hfree : app.refreshes r = none) : ∃ app', Refreshed bundles outcomes seed r app app' := by
  have hstarted : (app.started r session).refreshes r = some { session, ofLogin := false } := by
    simp [started]
  have hstep : app.step seed (.refreshAll r) = some (app.started r session) := by
    simp [step, hfree, refreshAll_eq_started hsession hdemo]
  cases hresults : outcomes.results bundles with
  | failed error others =>
    refine ⟨_, _, hstep, .goesOn hstarted (.inr ⟨error, ?_, rfl⟩) (step_refreshFails hstarted)
      (.ended refreshes_finish)⟩
    simp [hresults, Awaited.errors]
  | value results =>
    have hanswers : (app.started r session).step seed (.answers r results) = _ :=
      step_answers hstarted rfl
    cases htasks : results.tasks with
    | nil =>
      rw [answers_nil htasks] at hanswers
      exact ⟨_, _, hstep, .goesOn hstarted (.inl ⟨results, hresults, rfl⟩) hanswers
        (.ended refreshes_finish)⟩
    | cons first tasks =>
      rw [answers_started_cons hsession htasks] at hanswers
      have hwaiting : (app.waiting r session results (app.nextId first tasks)).refreshes r =
          some { session, ofLogin := false,
                 waitsForDetail := some (session, app.nextId first tasks) } := by
        simp [waiting]
      cases hdetail : outcomes.getTaskDetail bundles (app.nextId first tasks) with
      | value bundle =>
        exact ⟨_, _, hstep, .goesOn hstarted (.inl ⟨results, hresults, rfl⟩) hanswers
          (.goesOn hwaiting (.inl ⟨bundle, hdetail, rfl⟩) (step_detail hwaiting rfl)
            (.ended refreshes_finish))⟩
      | failed error others =>
        refine ⟨_, _, hstep, .goesOn hstarted (.inl ⟨results, hresults, rfl⟩) hanswers
          (.goesOn hwaiting (.inr ⟨error, ?_, rfl⟩) (step_refreshFails hwaiting)
            (.ended refreshes_finish))⟩
        simp [hdetail, Awaited.errors]

/-- The ten requests fail, there are no tasks, the detail does not fail, or what has been fetched has
    been shown before. -/
def Harmless (bundles : Bundles β) (outcomes : Outcomes β) (app : AppController β) : Prop :=
  ∀ results, outcomes.results bundles = .value results →
    ∀ first tasks, results.tasks = first :: tasks →
      ∀ error others, outcomes.getTaskDetail bundles (app.nextId first tasks) = .failed error others →
        results = app.shown

end AppController

open AppController in
/-- **A failed refresh keeps the data** and one that does not fail replaces all of it, if and only if the
    detail does not fail after the ten requests have fetched something new. -/
theorem failed_refresh_keeps_data_iff {bundles : Bundles β} {outcomes : Outcomes β} {seed : DemoSeed β}
    {r : Nat} {app app' : AppController β} (hsession : app.session ≠ none)
    (hdemo : app.isDemoMode = false) (hrefreshed : Refreshed bundles outcomes seed r app app') :
    AllOrNothing bundles outcomes app app' ↔ app.Harmless bundles outcomes := by
  obtain ⟨session, hsession⟩ := Option.ne_none_iff_exists'.mp hsession
  cases outcome_of_refreshed hsession hdemo hrefreshed with
  | firstStageFails hresults herror hsame =>
    constructor
    · intro _ results hvalue
      rw [hresults] at hvalue
      cases hvalue
    · intro _
      exact ⟨fun _ => hsame, fun hnone => absurd hnone herror⟩
  | noTasks hresults htasks herror hshown hdetail =>
    constructor
    · intro _ results hvalue first tasks hcons
      rw [hresults] at hvalue
      cases hvalue
      rw [htasks] at hcons
      cases hcons
    · intro _
      refine ⟨fun hsome => absurd herror hsome, fun _ => ?_⟩
      have hnil : app'.tasks.data = [] := by
        rw [← htasks, ← hshown]
        rfl
      constructor
      case shown => rw [hresults, hshown]
      case none_iff => simp [hdetail, hnil]
      all_goals simp [hdetail]
  | detailFails hresults htasks hfails herror hshown hdetail =>
    constructor
    · intro h results hvalue _ _ _ _ _ _
      rw [hresults] at hvalue
      cases hvalue
      rw [← hshown, (h.failed herror).shown]
    · intro h
      refine ⟨fun _ => ⟨?_, hdetail⟩, fun hnone => absurd hnone herror⟩
      rw [hshown, h _ hresults _ _ htasks _ _ hfails]
  | detail hresults htasks hbundle herror hshown hdetail =>
    rename_i results first tasks bundle
    constructor
    · intro _ results' hvalue first' tasks' hcons error others hfails
      rw [hresults] at hvalue
      cases hvalue
      rw [htasks] at hcons
      cases hcons
      rw [hbundle] at hfails
      cases hfails
    · intro _
      refine ⟨fun hsome => absurd herror hsome, fun _ => ?_⟩
      have hcons : app'.tasks.data = first :: tasks := by
        rw [← htasks, ← hshown]
        rfl
      constructor
      case shown => rw [hresults, hshown]
      case none_iff => simp [hdetail, hcons]
      case detail =>
        intro bundle' hmem
        obtain rfl := Option.some.inj (hdetail.symm.trans hmem)
        exact ⟨_, hbundle⟩
      case mem =>
        intro bundle' hmem
        obtain rfl := Option.some.inj (hdetail.symm.trans hmem)
        rw [hcons, task_id_of_getTaskDetail hbundle]
        exact nextId_mem first tasks

/-! ## A failed detail -/

/-- A client that has been logged in, and shows a task. -/
def loggedInApp : AppController String where
  session := some ⟨"http://127.0.0.1:8899", "token", "admin"⟩
  dashboard := ⟨.demo, "dashboard"⟩
  tasks := ⟨.demo, [⟨1, "demo"⟩]⟩
  nodes := ⟨.demo, []⟩
  users := ⟨.demo, []⟩
  operations := ⟨.demo, []⟩
  selectedTaskDetail := none

/-- There is one task, and it is deleted before its information is asked for. -/
def deletedMeanwhile : Outcomes String where
  overview := .ok "overview"
  cpu := .ok "cpu"
  memory := .ok "memory"
  disk := .ok "disk"
  net := .ok "net"
  settings := .ok "settings"
  taskList := .ok [⟨7, "backup"⟩]
  nodeList := .ok []
  userList := .ok []
  operationList := .ok []
  taskDetail := fun _ => ⟨.error "Exception: 任务不存在", .ok "", .ok ""⟩
  asked := nofun

/-- The request for the nodes fails before that. -/
def nodesFail : Outcomes String := { deletedMeanwhile with nodeList := .error "Exception: 502" }

def textBundles : Bundles String where
  dashboard overview cpu memory disk network settings :=
    overview ++ cpu ++ memory ++ disk ++ network ++ settings
  logs runningLogs endedLogs := runningLogs ++ endedLogs

def textSeed : DemoSeed String := ⟨⟨"demo", [], [], [], []⟩, ⟨⟨1, "demo"⟩, "demo"⟩⟩

/-- A refresh that fails for want of the nodes keeps everything. -/
theorem failed_refresh_keeps_data_iff_nodesFail : ∃ app',
    Refreshed textBundles nodesFail textSeed 0 loggedInApp app' ∧ app'.errorMessage ≠ none ∧
      AppController.AllOrNothing textBundles nodesFail loggedInApp app' := by
  obtain ⟨app', hrefreshed⟩ : ∃ app', Refreshed textBundles nodesFail textSeed 0 loggedInApp app' :=
    AppController.exists_refreshed textBundles nodesFail textSeed rfl rfl rfl
  have herror : app'.errorMessage ≠ none := by
    cases AppController.outcome_of_refreshed rfl rfl hrefreshed with
    | firstStageFails _ herror => exact herror
    | noTasks hresults | detailFails hresults | detail hresults => cases hresults
  refine ⟨app', hrefreshed, herror, (failed_refresh_keeps_data_iff (by decide) rfl hrefreshed).mpr ?_⟩
  intro results hresults
  cases hresults

/-- Where the task has been deleted meanwhile, the refresh fails and shows other tasks. -/
theorem failed_detail_replaces_data : ∃ app',
    Refreshed textBundles deletedMeanwhile textSeed 0 loggedInApp app' ∧
      ¬ AppController.AllOrNothing textBundles deletedMeanwhile loggedInApp app' := by
  obtain ⟨app', hrefreshed⟩ :
      ∃ app', Refreshed textBundles deletedMeanwhile textSeed 0 loggedInApp app' :=
    AppController.exists_refreshed textBundles deletedMeanwhile textSeed rfl rfl rfl
  refine ⟨app', hrefreshed, fun h => ?_⟩
  cases AppController.outcome_of_refreshed rfl rfl hrefreshed with
  | detailFails hresults _ _ herror hshown =>
    have hkept := congrArg Results.tasks (h.failed herror).shown
    rw [hshown] at hkept
    cases hresults
    cases hkept
  | firstStageFails hresults => cases hresults
  | noTasks hresults htasks =>
    cases hresults
    cases htasks
  | detail hresults htasks hbundle =>
    cases hresults
    cases hbundle

end Gonitor.Mobile
