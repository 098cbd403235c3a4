import Gonitor.Framework.AtomicProgram
import Gonitor.Mobile.AppController

/-!
# Whose Data Is Shown

`refreshAll` assigns what has been answered without a look at the session, which may be another one by
then.  `Monitored` follows a run of the client and remembers which answers have arrived last, and whether
the refresh of the current session has been completed; the client itself does not know.

## Main Results

- `shows_current_iff`: the client shows the data of the current session, once it has been refreshed, if
  and only if no answers to another session arrive after that, and at the end of a refresh the answers
  that have arrived last are to the session of it.
- `shows_current_of_settled`: this is so if the session only changes while no refresh is in progress.
- `sources_agree`: what is shown never comes from two sessions, but from the answers that have arrived
  last.
- `stale_answers_shown`: answers to an earlier session replace the data of the demo.
-/

namespace Gonitor.Mobile

open LabelledTraces
open AtomicProgram (update_eq_some)

variable {β : Type}

namespace AppController

/-! ## What is shown -/

/-- Where the dashboard, tasks, nodes, users and operations come from. -/
def sources (app : AppController β) : List Source :=
  [app.dashboard.source, app.tasks.source, app.nodes.source, app.users.source, app.operations.source]

/-- Where they have to come from. -/
def wanted (app : AppController β) : Option Source :=
  if app.isDemoMode then some .demo else app.session.map .session

/-- The client shows the data of the current session. -/
def Shows (app : AppController β) : Prop := ∀ source ∈ app.sources, app.wanted = some source

/-- The refresh has been started with the current session. -/
def belongs (app : AppController β) (r : Nat) : Bool :=
  match app.refreshes r with
  | some refresh => decide (app.wanted = some (.session refresh.session))
  | none => false

/-- Neither the session nor what is shown has changed. -/
structure SameView (app app' : AppController β) : Prop where
  wanted : app'.wanted = app.wanted
  sources : app'.sources = app.sources

theorem SameView.shows_iff {app app' : AppController β} (h : SameView app app') :
    app'.Shows ↔ app.Shows := by
  unfold Shows
  rw [h.wanted, h.sources]

variable {seed : DemoSeed β} {app app' : AppController β} {l : Label β} {r : Nat}
  {refresh : Refresh} {results : Results β}

theorem belongs_iff (hr : app.refreshes r = some refresh) :
    app.belongs r = true ↔ app.wanted = some (.session refresh.session) := by
  simp [belongs, hr]

/-! ## What a step does to it -/

theorem sameView_login (n : Nat) (baseUrl account password : String) :
    SameView app (app.login n baseUrl account password) := by
  unfold login
  split
  · exact ⟨rfl, rfl⟩
  · exact ⟨rfl, rfl⟩

theorem sameView_refreshAll (app : AppController β) (r : Nat) (ofLogin : Bool) :
    SameView app (app.refreshAll r ofLogin) := by
  unfold refreshAll
  split
  · exact ⟨rfl, rfl⟩
  · split
    · exact ⟨rfl, rfl⟩
    · exact ⟨rfl, rfl⟩

/-- All five come from the session that the refresh has been started with. -/
theorem sources_answers : ∀ source ∈ (app.answers r refresh results).sources,
    source = .session refresh.session := by
  have hassign : ∀ source ∈ (app.assign (.session refresh.session) results).sources,
      source = .session refresh.session := by
    simp [sources, assign]
  unfold answers
  split
  · exact hassign
  · split
    · exact hassign
    · exact hassign

theorem wanted_answers : (app.answers r refresh results).wanted = app.wanted := by
  unfold answers
  split
  · rfl
  · split
    · simp [wanted, refreshFails, finish, assign]
    · rfl

theorem shows_answers_iff (hr : app.refreshes r = some refresh) :
    (app.answers r refresh results).Shows ↔ app.belongs r = true := by
  rw [belongs_iff hr, Shows, wanted_answers]
  constructor
  · intro hshows
    have hfirst : (app.answers r refresh results).dashboard.source ∈
        (app.answers r refresh results).sources := by simp [sources]
    rw [hshows _ hfirst, sources_answers _ hfirst]
  · intro hwanted source hmem
    rw [hwanted, sources_answers source hmem]

theorem shows_useDemoMode : (app.useDemoMode seed).Shows := by
  simp [Shows, sources, wanted, useDemoMode, assign]

/-- The steps that neither change the session nor assign answers. -/
theorem sameView_of_step (hstep : step seed l app = some app') (hdemo : l ≠ .useDemoMode)
    (hlogin : ∀ n r token, l ≠ .loggedIn n r token) (hanswers : ∀ r results, l ≠ .answers r results)
    (hlogout : l ≠ .logout) : SameView app app' := by
  cases l with
  | useDemoMode => exact absurd rfl hdemo
  | loggedIn n r token => exact absurd rfl (hlogin n r token)
  | answers r results => exact absurd rfl (hanswers r results)
  | logout => exact absurd rfl hlogout
  | login n baseUrl account password =>
    simp only [step] at hstep
    split at hstep
    · cases hstep
      exact sameView_login n baseUrl account password
    · cases hstep
  | refreshAll r =>
    simp only [step] at hstep
    split at hstep
    · cases hstep
      exact sameView_refreshAll app r false
    · cases hstep
  | detail r bundle =>
    simp only [step] at hstep
    split at hstep
    · split at hstep
      · cases hstep
        exact ⟨rfl, rfl⟩
      · cases hstep
    · cases hstep
  | loginFails n error | refreshFails r error =>
    simp only [step] at hstep
    split at hstep
    · cases hstep
      exact ⟨rfl, rfl⟩
    · cases hstep
  | selectTab index =>
    cases hstep
    exact ⟨rfl, rfl⟩

theorem answers_cases (hstep : step seed (.answers r results) app = some app') :
    ∃ refresh, app.refreshes r = some refresh ∧ refresh.waitsForDetail = none ∧
      app' = app.answers r refresh results := by
  simp only [step] at hstep
  split at hstep
  · rename_i refresh hr
    split at hstep
    · rename_i hwaits
      cases hstep
      exact ⟨refresh, hr, by simpa using hwaits, rfl⟩
    · cases hstep
  · cases hstep

theorem loggedIn_cases {n : Nat} {token : String}
    (hstep : step seed (.loggedIn n r token) app = some app') :
    ∃ login, app.logins n = some login ∧ app' = app.loggedIn n r login token := by
  simp only [step] at hstep
  split at hstep
  · rename_i login hn
    split at hstep
    · cases hstep
      exact ⟨login, hn, rfl⟩
    · cases hstep
  · cases hstep

theorem detail_cases {bundle : TaskDetailBundle β}
    (hstep : step seed (.detail r bundle) app = some app') : ∃ refresh,
      app.refreshes r = some refresh ∧ refresh.waitsForDetail.isSome = true ∧
      app' = app.detail r refresh bundle := by
  simp only [step] at hstep
  split at hstep
  · rename_i refresh hr
    split at hstep
    · rename_i hwaits
      cases hstep
      exact ⟨refresh, hr, hwaits, rfl⟩
    · cases hstep
  · cases hstep

/-! ## Refreshes of one session -/

/-- Every refresh in progress has been started with the current session, and those that have been
    answered have shown its data. -/
def OwnRefreshes (app : AppController β) : Prop :=
  ∀ r refresh, app.refreshes r = some refresh → app.wanted = some (.session refresh.session) ∧
    (refresh.waitsForDetail.isSome = true → app.Shows)

theorem ownRefreshes_of_none (hnone : ∀ r, app.refreshes r = none) : app.OwnRefreshes := by
  intro r refresh hr
  rw [hnone] at hr
  cases hr

/-- What is in progress when a refresh has ended has been in progress before. -/
theorem of_refreshes_finish {r' : Nat} {other : Refresh}
    (h : Function.update app.refreshes r none r' = some other) : app.refreshes r' = some other := by
  rcases update_eq_some h with ⟨-, hnew⟩ | ⟨-, hold⟩
  · cases hnew
  · exact hold

/-- No other refresh is in progress afterwards, and the view is the same. -/
theorem OwnRefreshes.of_sameView (hown : app.OwnRefreshes) (hview : SameView app app')
    (hsub : ∀ r refresh, app'.refreshes r = some refresh → app.refreshes r = some refresh) :
    app'.OwnRefreshes := by
  intro r refresh hr
  rw [hview.wanted, hview.shows_iff]
  exact hown r refresh (hsub r refresh hr)

theorem ownRefreshes_refreshAll (ofLogin : Bool) (hown : app.OwnRefreshes) :
    (app.refreshAll r ofLogin).OwnRefreshes := by
  have hview := sameView_refreshAll app r ofLogin
  intro r' refresh hr
  rw [hview.wanted, hview.shows_iff]
  unfold refreshAll at hr
  split at hr
  · exact hown r' refresh hr
  · rename_i session hsession
    split at hr
    · exact hown r' refresh hr
    · rename_i hdemo
      rcases update_eq_some hr with ⟨rfl, hnew⟩ | ⟨-, hold⟩
      · -- the refresh that starts has the current session
        cases hnew
        exact ⟨by simp [wanted, hdemo, hsession], nofun⟩
      · exact hown r' refresh hold

theorem ownRefreshes_answers (hr : app.refreshes r = some refresh) (hown : app.OwnRefreshes) :
    (app.answers r refresh results).OwnRefreshes := by
  have hwanted := (hown r refresh hr).1
  have hshows : (app.answers r refresh results).Shows :=
    (shows_answers_iff hr).mpr ((belongs_iff hr).mpr hwanted)
  intro r' refresh' hr'
  refine ⟨?_, fun _ => hshows⟩
  rw [wanted_answers]
  unfold answers at hr'
  split at hr'
  · exact (hown r' refresh' (of_refreshes_finish hr')).1
  · split at hr'
    · exact (hown r' refresh' (of_refreshes_finish hr')).1
    · -- it waits for the detail of a task now, and still has its session
      rcases update_eq_some hr' with ⟨rfl, hnew⟩ | ⟨-, hold⟩
      · cases hnew
        exact hwanted
      · exact (hown r' refresh' hold).1

/-- The session changes only while no refresh is in progress. -/
def Settled (app : AppController β) : Label β → Prop
  | .useDemoMode | .loggedIn _ _ _ | .logout => ∀ r, app.refreshes r = none
  | _ => True

theorem ownRefreshes_step (hown : app.OwnRefreshes) (hsettled : app.Settled l)
    (hstep : step seed l app = some app') : app'.OwnRefreshes := by
  cases l with
  | useDemoMode =>
    cases hstep
    exact ownRefreshes_of_none hsettled
  | logout =>
    cases hstep
    exact ownRefreshes_of_none hsettled
  | loggedIn n r token =>
    obtain ⟨login, -, rfl⟩ := loggedIn_cases hstep
    exact ownRefreshes_refreshAll true (ownRefreshes_of_none hsettled)
  | refreshAll r =>
    simp only [step] at hstep
    split at hstep
    · cases hstep
      exact ownRefreshes_refreshAll false hown
    · cases hstep
  | answers r results =>
    obtain ⟨refresh, hr, -, rfl⟩ := answers_cases hstep
    exact ownRefreshes_answers hr hown
  | login n baseUrl account password =>
    refine hown.of_sameView (sameView_of_step hstep nofun nofun nofun nofun) ?_
    simp only [step] at hstep
    split at hstep
    · cases hstep
      unfold login
      split
      · exact fun _ _ => id
      · exact fun _ _ => id
    · cases hstep
  | detail r bundle =>
    refine hown.of_sameView (sameView_of_step hstep nofun nofun nofun nofun) ?_
    obtain ⟨refresh, -, -, rfl⟩ := detail_cases hstep
    exact fun _ _ => of_refreshes_finish
  | refreshFails r error =>
    refine hown.of_sameView (sameView_of_step hstep nofun nofun nofun nofun) ?_
    simp only [step] at hstep
    split at hstep
    · cases hstep
      exact fun _ _ => of_refreshes_finish
    · cases hstep
  | loginFails n error =>
    refine hown.of_sameView (sameView_of_step hstep nofun nofun nofun nofun) ?_
    simp only [step] at hstep
    split at hstep
    · cases hstep
      exact fun _ _ => id
    · cases hstep
  | selectTab index =>
    cases hstep
    exact hown.of_sameView ⟨rfl, rfl⟩ fun _ _ => id

end AppController

/-! ## Runs -/

/-- A run of the client: whether the refresh of the current session has been completed without an error
    since the session has begun, or the demo has been entered, and what has arrived last. -/
structure Monitored (β : Type) where
  app : AppController β
  refreshed : Bool := false
  last : Source := .demo

namespace Monitored

/-- `refreshed` after a step. -/
def refreshedAfter (m : Monitored β) : Label β → Bool
  | .useDemoMode => true
  | .loggedIn _ _ _ | .logout => false
  | .answers r results => m.refreshed || (results.tasks.isEmpty && m.app.belongs r)
  | .detail r _ => m.refreshed || m.app.belongs r
  | _ => m.refreshed

/-- `last` after a step. -/
def lastAfter (m : Monitored β) : Label β → Source
  | .useDemoMode => .demo
  | .answers r _ =>
    match m.app.refreshes r with
    | some refresh => .session refresh.session
    | none => m.last
  | _ => m.last

def step (seed : DemoSeed β) (l : Label β) (m : Monitored β) : Option (Monitored β) :=
  (AppController.step seed l m.app).map fun app => ⟨app, m.refreshedAfter l, m.lastAfter l⟩

def start (seed : DemoSeed β) : Monitored β := { app := .start seed }

/-- Once the current session has been refreshed, its data is shown. -/
def ShowsCurrent (m : Monitored β) : Prop := m.refreshed = true → m.app.Shows

/-- What a step has to respect: once the current session has been refreshed, no answers to another one
    arrive, and when a refresh of it ends, the answers that have arrived last are to this session. -/
def Good (m : Monitored β) : Label β → Prop
  | .answers r _ => m.refreshed = true → m.app.belongs r = true
  | .detail r _ => m.app.belongs r = true → m.app.wanted = some m.last
  | _ => True

/-- All that is shown has arrived last. -/
def SourcesAgree (m : Monitored β) : Prop := ∀ source ∈ m.app.sources, source = m.last

variable {seed : DemoSeed β} {m m' : Monitored β} {l : Label β}

theorem step_cases (hstep : step seed l m = some m') :
    ∃ app, AppController.step seed l m.app = some app ∧
      m' = ⟨app, m.refreshedAfter l, m.lastAfter l⟩ := by
  simp only [step, Option.map_eq_some_iff] at hstep
  obtain ⟨app, happ, rfl⟩ := hstep
  exact ⟨app, happ, rfl⟩

theorem sourcesAgree_step (hagree : m.SourcesAgree) (hstep : step seed l m = some m') :
    m'.SourcesAgree := by
  obtain ⟨app, happ, rfl⟩ := step_cases hstep
  unfold SourcesAgree
  cases l with
  | useDemoMode =>
    cases happ
    simp [AppController.sources, AppController.useDemoMode, AppController.assign, lastAfter]
  | logout =>
    cases happ
    exact hagree
  | loggedIn n r token =>
    obtain ⟨login, -, rfl⟩ := AppController.loggedIn_cases happ
    simp only [AppController.loggedIn]
    rw [(AppController.sameView_refreshAll _ r true).sources]
    exact hagree
  | answers r results =>
    obtain ⟨refresh, hr, -, rfl⟩ := AppController.answers_cases happ
    simp only [lastAfter, hr]
    exact AppController.sources_answers
  | login | loginFails | refreshAll | detail | refreshFails | selectTab =>
    simp only [(AppController.sameView_of_step happ nofun nofun nofun nofun).sources]
    exact hagree

theorem sourcesAgree_start (seed : DemoSeed β) : (start seed).SourcesAgree := by
  simp [SourcesAgree, AppController.sources, start, AppController.start]

theorem SourcesAgree.shows_iff (hagree : m.SourcesAgree) :
    m.app.Shows ↔ m.app.wanted = some m.last := by
  constructor
  · intro hshows
    have hfirst : m.app.dashboard.source ∈ m.app.sources := by simp [AppController.sources]
    rw [hshows _ hfirst, hagree _ hfirst]
  · intro hwanted source hmem
    rw [hwanted, hagree source hmem]

/-- **One step** keeps the data of the current session shown exactly if it is good. -/
theorem showsCurrent_step (hagree : m.SourcesAgree) (hshows : m.ShowsCurrent)
    (hstep : step seed l m = some m') : m'.ShowsCurrent ↔ Good m l := by
  obtain ⟨app, happ, rfl⟩ := step_cases hstep
  cases l with
  | useDemoMode =>
    cases happ
    exact iff_of_true (fun _ => AppController.shows_useDemoMode) trivial
  | loggedIn n r token => exact iff_of_true nofun trivial
  | logout => exact iff_of_true nofun trivial
  | answers r results =>
    obtain ⟨refresh, hr, -, rfl⟩ := AppController.answers_cases happ
    unfold ShowsCurrent Good
    rw [AppController.shows_answers_iff hr]
    constructor
    · intro hafter hrefreshed
      exact hafter (by simp [refreshedAfter, hrefreshed])
    · intro hgood hafter
      simp only [refreshedAfter, Bool.or_eq_true, Bool.and_eq_true] at hafter
      rcases hafter with hrefreshed | ⟨-, hbelongs⟩
      · exact hgood hrefreshed
      · exact hbelongs
  | detail r bundle =>
    have hview := AppController.sameView_of_step happ nofun nofun nofun nofun
    unfold ShowsCurrent Good
    rw [hview.shows_iff, ← hagree.shows_iff]
    constructor
    · intro hafter hbelongs
      exact hafter (by simp [refreshedAfter, hbelongs])
    · intro hgood hafter
      simp only [refreshedAfter, Bool.or_eq_true] at hafter
      rcases hafter with hrefreshed | hbelongs
      · exact hshows hrefreshed
      · exact hgood hbelongs
  | login | loginFails | refreshAll | refreshFails | selectTab =>
    have hview := AppController.sameView_of_step happ nofun nofun nofun nofun
    exact iff_of_true (fun hrefreshed => hview.shows_iff.mpr (hshows hrefreshed)) trivial

theorem good_of_ownRefreshes (hagree : m.SourcesAgree) (hown : m.app.OwnRefreshes)
    (hstep : step seed l m = some m') : Good m l := by
  obtain ⟨app, happ, -⟩ := step_cases hstep
  cases l with
  | answers r results =>
    obtain ⟨refresh, hr, -, -⟩ := AppController.answers_cases happ
    exact fun _ => (AppController.belongs_iff hr).mpr (hown r refresh hr).1
  | detail r bundle =>
    obtain ⟨refresh, hr, hwaits, -⟩ := AppController.detail_cases happ
    exact fun _ => hagree.shows_iff.mp ((hown r refresh hr).2 hwaits)
  | _ => trivial

end Monitored

variable {seed : DemoSeed β} {past : List (Monitored β × Label β)} {m : Monitored β}

/-- **The client shows only the data of the current session**, from the end of its refresh until the
    session changes, in all states of a run if and only if all its steps are good. -/
theorem shows_current_iff (htrace : Trace (Monitored.step seed) (.start seed) past m) :
    ((∀ x ∈ past, x.1.ShowsCurrent) ∧ m.ShowsCurrent) ↔ ∀ x ∈ past, Monitored.Good x.1 x.2 :=
  htrace.always_iff_of_invariant (I := Monitored.SourcesAgree)
    (fun _ _ _ hagree _ hstep => Monitored.sourcesAgree_step hagree hstep)
    (fun _ _ _ => Monitored.showsCurrent_step) (Monitored.sourcesAgree_start seed) nofun

/-- Answers without any records, and a demo without any. -/
def noRecords : Results Unit := ⟨(), [], [], [], []⟩

def bareSeed : DemoSeed Unit := { noRecords with taskDetail := ⟨⟨1, ()⟩, ()⟩ }

/-- A login, and the end of the refresh that comes with it. -/
theorem shows_current_iff_login : ∃ past m,
    Trace (Monitored.step bareSeed) (.start bareSeed) past m ∧
    past.map Prod.snd = [.answers 0 noRecords, .loggedIn 0 0 "token",
      .login 0 "127.0.0.1:8899" "admin" "123456"] ∧ m.refreshed = true ∧
    (∀ x ∈ past, x.1.ShowsCurrent) ∧ m.ShowsCurrent := by
  have htrace : ∃ past m, Trace (Monitored.step bareSeed) (.start bareSeed) past m ∧
      past.map Prod.snd = [.answers 0 noRecords, .loggedIn 0 0 "token",
        .login 0 "127.0.0.1:8899" "admin" "123456"] ∧ m.refreshed = true ∧
      ∀ x ∈ past, Monitored.Good x.1 x.2 := by
    refine ⟨_, _, .snoc (.snoc (.snoc .nil rfl) rfl) rfl, rfl, rfl, ?_⟩
    simp only [List.forall_mem_cons]
    refine ⟨?_, trivial, trivial, by simp⟩
    -- the session has not been refreshed before
    nofun
  obtain ⟨past, m, htrace, hlabels, hrefreshed, hgood⟩ := htrace
  exact ⟨past, m, htrace, hlabels, hrefreshed, (shows_current_iff htrace).mpr hgood⟩

/-- After a login the page is refreshed again, and left while that refresh is in progress; its answers
    replace what the demo shows, which has been entered meanwhile. -/
theorem stale_answers_shown : ¬ ∀ past m,
    Trace (Monitored.step bareSeed) (.start bareSeed) past m → m.ShowsCurrent := by
  intro hshows
  have htrace : ∃ past m, Trace (Monitored.step bareSeed) (.start bareSeed) past m ∧
      m.refreshed = true ∧ m.app.wanted = some .demo ∧
      m.app.dashboard.source = .session ⟨"http://127.0.0.1:8899", "token", "admin"⟩ :=
    ⟨_, _, .snoc (.snoc (.snoc (.snoc (.snoc (.snoc (.snoc .nil
      (l := .login 0 "127.0.0.1:8899" "admin" "123456") rfl) (l := .loggedIn 0 0 "token") rfl)
      (l := .answers 0 noRecords) rfl) (l := .refreshAll 1) rfl) (l := .logout) rfl)
      (l := .useDemoMode) rfl) (l := .answers 1 noRecords) rfl, rfl, rfl, rfl⟩
  obtain ⟨past, m, htrace, hrefreshed, hwanted, hsource⟩ := htrace
  have hshown := hshows past m htrace hrefreshed m.app.dashboard.source (by simp [AppController.sources])
  rw [hwanted, hsource] at hshown
  cases hshown

/-- **It does so** if the session changes only while no refresh is in progress. -/
theorem shows_current_of_settled (htrace : Trace (Monitored.step seed) (.start seed) past m)
    (hsettled : ∀ x ∈ past, x.1.app.Settled x.2) :
    (∀ x ∈ past, x.1.ShowsCurrent) ∧ m.ShowsCurrent := by
  have hrun : (∀ x ∈ past, x.1.SourcesAgree ∧ x.1.app.OwnRefreshes ∧ x.1.ShowsCurrent) ∧
      m.SourcesAgree ∧ m.app.OwnRefreshes ∧ m.ShowsCurrent := by
    refine htrace.always (P := fun m => m.SourcesAgree ∧ m.app.OwnRefreshes ∧ m.ShowsCurrent)
      (G := fun m l => m.app.Settled l) ?_ ⟨Monitored.sourcesAgree_start seed, ?_, nofun⟩ hsettled
    · rintro m l m' ⟨hagree, hown, hshows⟩ hsettled hstep
      have hgood := Monitored.good_of_ownRefreshes hagree hown hstep
      refine ⟨Monitored.sourcesAgree_step hagree hstep, ?_,
        (Monitored.showsCurrent_step hagree hshows hstep).mpr hgood⟩
      obtain ⟨app, happ, rfl⟩ := Monitored.step_cases hstep
      exact AppController.ownRefreshes_step hown hsettled happ
    · exact AppController.ownRefreshes_of_none fun _ => rfl
  exact ⟨fun x hx => (hrun.1 x hx).2.2, hrun.2.2.2⟩

/-- **What is shown** never comes from two sessions. -/
theorem sources_agree (htrace : Trace (Monitored.step seed) (.start seed) past m) :
    m.SourcesAgree :=
  htrace.invariant (fun _ _ _ => Monitored.sourcesAgree_step) (Monitored.sourcesAgree_start seed)

end Gonitor.Mobile
