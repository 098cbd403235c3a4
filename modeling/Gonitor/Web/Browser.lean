import Gonitor.Web.Connection
import Gonitor.Web.Subscriptions

/-!
# A Tab of the Browser

`Websocket.js` on top of `Socket.js`: the hooks of the page use the one `Socket`, whose timers,
attempts and sockets do the sending.  For the subscriptions this is a page with a connection that is
there or not.

Each socket that has been opened has a link to the server: the client at the other end, and what is on
its way there.  `destroy` is called nowhere.

## Main Results

- `tab_refines`: every run of a tab is a run of the page.
- `tab_agrees_iff`: so the server ends up with the pairs that have handlers exactly where that of the
  page does, also through timers and attempts, and runs that begin meanwhile.
-/

namespace Gonitor.Web.Browser

open LabelledTraces
open EventLoop (Timers)
open Ws (Client)
open Connection (ReadyState)
open Web.Socket (Message Target Hook Page)

/-! ## Tabs -/

/-- The other end of a socket.  It may have gone while the socket does not know. -/
structure Link where
  client : Client
  wire : List Message := []
  isLost : Bool := false

/-- The link of a socket that has just been opened. -/
def Link.fresh (clientId : Int) : Link := ⟨{ id := clientId, phase := .serving }, [], false⟩

/-- The variables of `Websocket.js`, with the hooks that are mounted, and the links of the sockets. -/
structure Tab where
  clientId : Int
  mounted : List Hook := []
  subscribed : AList (fun _ : Target => Finset String) := ∅
  wbSocket : Connection.Socket Message := .init 5
  links : Nat → Option Link := fun _ => none

/-- The script has been loaded. -/
def Tab.start (clientId : Int) : Tab := { clientId := clientId }

/-- What happens. -/
inductive Event
  | mount (hook : Hook)
  | unmount (hook : Hook)
  | opened (socket : Nat) (order : List Target)
  | message (socket : Nat) (ok : Bool)
  | closing (socket : Nat)
  | closed (socket : Nat)
  | timer (id : Nat)
  /-- The server processes a message. -/
  | receive (socket : Nat)
  /-- A run of the task begins, with its log. -/
  | newTaskLog (socket : Nat) (taskId logId : Int)
  /-- The server has gone. -/
  | lose (socket : Nat)

/-- What is sent is on its way, as long as there is a server. -/
def Link.put (link : Link) (data : List Message) : Link :=
  if link.isLost then link else { link with wire := link.wire ++ data }

namespace Tab

/-- `subscribed[subscribeType][targetId]`, or nothing. -/
def handlers (tab : Tab) (target : Target) : Finset String :=
  (tab.subscribed.lookup target).getD ∅

/-- The effect of `useSubscribe`. -/
def mount (tab : Tab) (hook : Hook) : Tab :=
  { tab with
    wbSocket := tab.wbSocket.send (.subscribe hook.target)
    mounted := hook :: tab.mounted
    subscribed := tab.subscribed.insert hook.target
      (insert hook.handlerKey (tab.handlers hook.target)) }

/-- What the effect of `useSubscribe` returns. -/
def unmount (tab : Tab) (hook : Hook) : Tab :=
  { tab with
    wbSocket := tab.wbSocket.send (.unsubscribe hook.target)
    mounted := tab.mounted.erase hook
    subscribed := tab.subscribed.insert hook.target
      ((tab.handlers hook.target).erase hook.handlerKey) }

/-- `openCb` -/
def openCb (tab : Tab) (order : List Target) (socket : Connection.Socket Message) :
    Connection.Socket Message :=
  order.foldl (fun socket target =>
    if Page.isUnbound (tab.handlers target) then socket else socket.send (.subscribe target)) socket

/-- What the socket has sent since `old` is put on the links. -/
def deliver (tab : Tab) (old : Connection.Socket Message) : Tab :=
  { tab with
    links := fun i => (tab.links i).map fun link =>
      link.put (((tab.wbSocket.sent.drop old.sent.length).filter (·.1 == i)).map Prod.snd) }

/-- A step of the socket, sent to the server. -/
def socketStep (tab : Tab) (e : Connection.Event Message) : Option Tab :=
  (tab.wbSocket.step .ping e).map fun socket =>
    { tab with wbSocket := socket }.deliver tab.wbSocket

/-- One step. -/
def step : Event → Tab → Option Tab
  | .mount hook, tab => some (tab.mount hook)
  | .unmount hook, tab => if hook ∈ tab.mounted then some (tab.unmount hook) else none
  | .opened i order, tab =>
    if order.Perm tab.subscribed.keys then
      (tab.wbSocket.step .ping (.opened i)).map fun socket =>
        { tab with
          wbSocket := tab.openCb order socket
          links := Function.update tab.links i (some (.fresh tab.clientId)) }
    else none
  | .message i ok, tab => tab.socketStep (.message i ok)
  | .closing i, tab => tab.socketStep (.closing i)
  | .closed i, tab => tab.socketStep (.closed i)
  | .timer id, tab => tab.socketStep (.timer id)
  | .receive i, tab =>
    match tab.links i with
    | some ⟨client, data :: wire, false⟩ =>
      some { tab with
        links := Function.update tab.links i (some ⟨Socket.receive client data, wire, false⟩) }
    | _ => none
  | .newTaskLog i taskId logId, tab =>
    match tab.links i with
    | some ⟨client, wire, false⟩ =>
      some { tab with
        links := Function.update tab.links i (some ⟨client.newTaskLog taskId logId, wire, false⟩) }
    | _ => none
  | .lose i, tab =>
    match tab.links i with
    | some ⟨client, wire, false⟩ =>
      some { tab with links := Function.update tab.links i (some ⟨client, wire, true⟩) }
    | _ => none

/-! ## The page of a tab -/

/-- The connection of the page. -/
def connection (tab : Tab) : Socket.Connection :=
  match tab.wbSocket.sockets tab.wbSocket.ws, tab.links tab.wbSocket.ws with
  | .opened, some link => if link.isLost then .lost else .opened link.client link.wire
  | .closing, some _ => .lost
  | _, _ => .closed

/-- A tab without timers and attempts. -/
def page (tab : Tab) : Page where
  clientId := tab.clientId
  mounted := tab.mounted
  subscribed := tab.subscribed
  messageQueue := tab.wbSocket.messageQueue
  ws := tab.connection

/-- The sockets are sound, and a socket has a link if it has been opened. -/
structure Linked (tab : Tab) : Prop where
  sound : tab.wbSocket.Sound
  opened : tab.wbSocket.sockets tab.wbSocket.ws = .opened → (tab.links tab.wbSocket.ws).isSome = true
  connecting : tab.wbSocket.sockets tab.wbSocket.ws = .connecting → tab.links tab.wbSocket.ws = none
  later : ∀ i, tab.wbSocket.ws < i → tab.links i = none

variable {tab tab' : Tab} {s s' : Connection.Socket Message} {i : Nat} {hook : Hook}

/-! ## Steps of the socket that send nothing -/

@[simp] theorem put_nil (link : Link) : link.put [] = link := by
  simp [Link.put]

/-- Without a new message no link changes. -/
theorem deliver_of_sent (hsent : s.sent = tab.wbSocket.sent) :
    { tab with wbSocket := s }.deliver tab.wbSocket = { tab with wbSocket := s } := by
  simp [deliver, hsent]

/-- The sockets have not moved, and nothing has been sent or pushed. -/
structure Calm (s s' : Connection.Socket Message) : Prop where
  sockets : s'.sockets = s.sockets
  ws : s'.ws = s.ws
  messageQueue : s'.messageQueue = s.messageQueue
  sent : s'.sent = s.sent

theorem onMessage_calm (s : Connection.Socket Message) (ok : Bool) : Calm s (s.onMessage ok) := by
  cases ok <;> exact ⟨rfl, rfl, rfl, rfl⟩

theorem onClose_calm (s : Connection.Socket Message) : Calm s s.onClose := by
  unfold Connection.Socket.onClose Connection.Socket.onReconnect
  split
  · exact ⟨rfl, rfl, rfl, rfl⟩
  · split <;> exact ⟨rfl, rfl, rfl, rfl⟩

theorem page_of_calm (h : Calm tab.wbSocket s) : { tab with wbSocket := s }.page = tab.page := by
  simp only [page, connection, h.sockets, h.ws, h.messageQueue]

theorem Linked.of_calm (h : tab.Linked) (hsound : s.Sound) (hcalm : Calm tab.wbSocket s) :
    { tab with wbSocket := s }.Linked where
  sound := hsound
  opened := by simpa only [hcalm.sockets, hcalm.ws] using h.opened
  connecting := by simpa only [hcalm.sockets, hcalm.ws] using h.connecting
  later := by simpa only [hcalm.ws] using h.later

/-! ## The connection of the page -/

theorem connection_opened {link : Link} (hopened : tab.wbSocket.sockets tab.wbSocket.ws = .opened)
    (hlink : tab.links tab.wbSocket.ws = some link) :
    tab.connection = if link.isLost then .lost else .opened link.client link.wire := by
  simp only [connection, hopened, hlink]

/-- What the page sees of a link to which something has been sent. -/
theorem view_put (link : Link) (data : List Message) :
    (if (link.put data).isLost then Socket.Connection.lost
      else .opened (link.put data).client (link.put data).wire) =
    if link.isLost then .lost else .opened link.client (link.wire ++ data) := by
  obtain ⟨client, wire, isLost⟩ := link
  cases isLost <;> rfl

theorem connection_closed (hclosed : tab.wbSocket.sockets tab.wbSocket.ws = .closed) :
    tab.connection = .closed := by
  simp only [connection, hclosed]

theorem connection_connecting (hconnecting : tab.wbSocket.sockets tab.wbSocket.ws = .connecting) :
    tab.connection = .closed := by
  simp only [connection, hconnecting]

theorem page_ws_opened {client : Client} {wire : List Message} :
    tab.page.ws = .opened client wire ↔ tab.wbSocket.sockets tab.wbSocket.ws = .opened ∧
      tab.links tab.wbSocket.ws = some ⟨client, wire, false⟩ := by
  constructor
  · intro hws
    simp only [page, connection] at hws
    split at hws
    · rename_i link hopened hlink
      obtain ⟨client', wire', isLost⟩ := link
      cases isLost with
      | true => simp at hws
      | false =>
        cases hws
        exact ⟨hopened, hlink⟩
    · cases hws
    · cases hws
  · rintro ⟨hopened, hlink⟩
    simp [page, connection_opened hopened hlink]

/-! ## Each step is a step of the page, or several, or none -/

/-- The steps of the page that are to be good are so if the step of the tab is. -/
def Good (tab : Tab) : Event → Prop
  | .unmount hook => tab.page.Good (.unmount hook)
  | .opened _ order => tab.page.Good (.opened order)
  | .newTaskLog i taskId logId => i = tab.wbSocket.ws → tab.page.Good (.newTaskLog taskId logId)
  | _ => True

instance (page : Page) : Decidable page.IsOpen :=
  match hws : page.ws with
  | .opened client wire => .isTrue ⟨client, wire, hws⟩
  | .closed | .lost => .isFalse fun ⟨_, _, hopen⟩ => by simp [hws] at hopen

instance (page : Page) (taskId : Int) : Decidable (page.Watches taskId) :=
  match hws : page.ws with
  | .opened client wire =>
    decidable_of_iff ((Ws.subscribeTypeTaskLogAdd, taskId) ∈ client.subscribed)
      (by simp [Page.Watches, hws])
  | .closed | .lost => .isFalse fun ⟨_, _, hopen, _⟩ => by simp [hws] at hopen

instance (page : Page) (target : Target) : Decidable (page.Ordered target) :=
  match hws : page.ws with
  | .opened client wire =>
    decidable_of_iff (∃ order ∈ (wire ++ page.messageQueue).filterMap Page.order?, order.1 = target)
      (by simp [Page.Ordered, hws])
  | .closed | .lost => .isFalse fun ⟨_, _, hopen, _⟩ => by simp [hws] at hopen

instance (page : Page) (target : Target) : Decidable (page.Bound target) :=
  decidable_of_iff (page.handlers target ≠ ∅) Finset.nonempty_iff_ne_empty.symm

instance (page : Page) : (l : Socket.Event) → Decidable (page.Good l)
  | .unmount hook => inferInstanceAs (Decidable (page.IsOpen →
      (page.handlers hook.target).erase hook.handlerKey = ∅))
  | .opened _ => decidable_of_iff (∀ target ∈ page.subscribed.keys, page.handlers target ≠ ∅)
      (by simp [Page.Good, Page.Bound, AList.mem_keys, Finset.nonempty_iff_ne_empty])
  | .newTaskLog taskId logId => inferInstanceAs (Decidable (page.Watches taskId →
      page.Bound (Ws.subscribeTypeTaskLog, logId) ∨ page.Ordered (Ws.subscribeTypeTaskLog, logId)))
  | .mount _ | .heartbeat | .fireSend | .receive | .lose | .closed => .isTrue trivial

instance (tab : Tab) : (e : Event) → Decidable (tab.Good e)
  | .unmount hook => inferInstanceAs (Decidable (tab.page.Good (.unmount hook)))
  | .opened _ order => inferInstanceAs (Decidable (tab.page.Good (.opened order)))
  | .newTaskLog i taskId logId =>
    inferInstanceAs (Decidable (i = tab.wbSocket.ws → tab.page.Good (.newTaskLog taskId logId)))
  | .mount _ | .message _ _ | .closing _ | .closed _ | .timer _ | .receive _ | .lose _ =>
    .isTrue trivial

/-- The step of the page is good if that of the tab is. -/
def Matches (tab : Tab) (e : Event) (page : Page) (l : Socket.Event) : Prop :=
  tab.Good e → page.Good l

/-- What a step of the tab is for the page. -/
def Shows (tab : Tab) (e : Event) (tab' : Tab) : Prop :=
  tab'.Linked ∧ ∃ past, Trace Page.step tab.page past tab'.page ∧
    ∀ x ∈ past, Matches tab e x.1 x.2

/-- No step of the page. -/
theorem Shows.stutter {e : Event} (h : tab'.Linked) (hpage : tab'.page = tab.page) :
    Shows tab e tab' := by
  refine ⟨h, [], ?_, by simp⟩
  rw [hpage]
  exact .nil

theorem Shows.single {e : Event} {l : Socket.Event} (h : tab'.Linked)
    (hstep : Page.step l tab.page = some tab'.page) (hgood : tab.Good e → tab.page.Good l) :
    Shows tab e tab' :=
  ⟨h, _, .single hstep, by simpa [Matches] using hgood⟩

/-- Messages have been sent or processed. -/
def Moved (tab tab' : Tab) : Prop := tab'.Linked ∧ tab.page.Drains tab'.page

/-- Sending and processing are always good. -/
theorem Moved.shows {e : Event} (h : Moved tab tab') : Shows tab e tab' := by
  obtain ⟨hlinked, past, htrace, hpast⟩ := h
  refine ⟨hlinked, past, htrace, fun x hx _ => ?_⟩
  rcases hpast x hx with heq | heq <;> rw [heq] <;> trivial

theorem shows_mount (h : tab.Linked) (hook : Hook) : Shows tab (.mount hook) (tab.mount hook) := by
  refine .single (l := .mount hook) ⟨h.sound.send _, h.opened, h.connecting, h.later⟩ rfl ?_
  exact fun _ => trivial

theorem page_unmount (hmounted : hook ∈ tab.mounted) :
    Page.step (.unmount hook) tab.page = some (tab.unmount hook).page := if_pos hmounted

theorem shows_unmount (h : tab.Linked) (hmounted : hook ∈ tab.mounted) :
    Shows tab (.unmount hook) (tab.unmount hook) :=
  .single (l := .unmount hook) ⟨h.sound.send _, h.opened, h.connecting, h.later⟩
    (page_unmount hmounted) id

/-- A step of the socket that the page does not see. -/
theorem moved_calm (h : tab.Linked) (hsound : s.Sound) (hcalm : Calm tab.wbSocket s) :
    Moved tab ({ tab with wbSocket := s }.deliver tab.wbSocket) := by
  rw [deliver_of_sent hcalm.sent]
  refine ⟨h.of_calm hsound hcalm, ?_⟩
  rw [page_of_calm hcalm]
  exact .refl tab.page

theorem openCb_eq (order : List Target) (s : Connection.Socket Message) :
    tab.openCb order s = { s with
      messageQueue := s.messageQueue ++ order.map .subscribe
      pushed := s.pushed ++ order.map .subscribe } := by
  induction order generalizing s with
  | nil => simp [openCb]
  | cons target order ih =>
    have hsend : tab.openCb (target :: order) s = tab.openCb order (s.send (.subscribe target)) := rfl
    rw [hsend, ih]
    simp [Connection.Socket.send]

theorem openCb_sound (hs : s.Sound) (order : List Target) : (tab.openCb order s).Sound := by
  induction order generalizing s with
  | nil => exact hs
  | cons target order ih => exact ih (hs.send _)

/-- A socket has been opened. -/
def openedBy (tab : Tab) (i : Nat) (order : List Target) : Tab :=
  { tab with
    wbSocket := tab.openCb order (tab.wbSocket.setReady i .opened).onOpen
    links := Function.update tab.links i (some (.fresh tab.clientId)) }

theorem openedBy_sockets (order : List Target) :
    (tab.openedBy tab.wbSocket.ws order).wbSocket.sockets tab.wbSocket.ws = .opened := by
  rw [openedBy, openCb_eq]
  exact Function.update_self ..

theorem openedBy_linked {order : List Target} (h : tab.Linked)
    (hconnecting : tab.wbSocket.sockets tab.wbSocket.ws = .connecting) :
    (tab.openedBy tab.wbSocket.ws order).Linked := by
  have hsockets := tab.openedBy_sockets order
  have hws : (tab.openedBy tab.wbSocket.ws order).wbSocket.ws = tab.wbSocket.ws := by
    rw [openedBy, openCb_eq]
    rfl
  refine ⟨openCb_sound (h.sound.opened hconnecting) order, ?_, ?_, ?_⟩
  · rw [hws]
    simp [openedBy]
  · simp [hws, hsockets]
  · rw [hws]
    intro j hj
    simpa [openedBy, Function.update_of_ne (Nat.ne_of_gt hj)] using h.later j hj

theorem page_openedBy {order : List Target}
    (hconnecting : tab.wbSocket.sockets tab.wbSocket.ws = .connecting)
    (horder : order.Perm tab.subscribed.keys) : Page.step (.opened order) tab.page =
      some (tab.openedBy tab.wbSocket.ws order).page := by
  have hclosed : tab.page.ws = .closed := connection_connecting hconnecting
  have hopened := tab.openedBy_sockets order
  simp only [Page.step, hclosed]
  rw [if_pos (show order.Perm tab.page.subscribed.keys from horder), Page.openCb_eq]
  simp only [openedBy, openCb_eq] at hopened ⊢
  have hws : (tab.wbSocket.setReady tab.wbSocket.ws .opened).onOpen.ws = tab.wbSocket.ws := rfl
  simp only [page, connection, hws, hopened, Function.update_self]
  rfl

theorem shows_opened {order : List Target} (h : tab.Linked)
    (hconnecting : tab.wbSocket.sockets i = .connecting) (horder : order.Perm tab.subscribed.keys) :
    Shows tab (.opened i order) (tab.openedBy i order) := by
  obtain rfl : i = tab.wbSocket.ws := h.sound.current i (by simp [hconnecting])
  exact .single (openedBy_linked h hconnecting) (page_openedBy hconnecting horder) id

theorem shows_closing (h : tab.Linked)
    (hi : tab.wbSocket.sockets i = .connecting ∨ tab.wbSocket.sockets i = .opened) :
    Shows tab (.closing i)
      ({ tab with wbSocket := tab.wbSocket.setReady i .closing }.deliver tab.wbSocket) := by
  obtain rfl : i = tab.wbSocket.ws := h.sound.current i (by rcases hi with hi | hi <;> simp [hi])
  rw [deliver_of_sent (s := tab.wbSocket.setReady tab.wbSocket.ws .closing) rfl]
  have hclosing : Function.update tab.wbSocket.sockets tab.wbSocket.ws .closing tab.wbSocket.ws =
      ReadyState.closing := Function.update_self ..
  have hlinked : { tab with
      wbSocket := tab.wbSocket.setReady tab.wbSocket.ws .closing }.Linked := by
    refine ⟨h.sound.closing hi, ?_, ?_, h.later⟩
    · exact fun hopened => absurd (hclosing.symm.trans hopened) nofun
    · exact fun hconnecting => absurd (hclosing.symm.trans hconnecting) nofun
  rcases hi with hi | hi
  · -- an attempt that fails
    refine .stutter hlinked ?_
    simp only [page, connection_connecting hi]
    simp only [connection, Connection.Socket.setReady, hclosing, h.connecting hi]
  · obtain ⟨link, hlink⟩ := Option.isSome_iff_exists.mp (h.opened hi)
    have hbefore := connection_opened hi hlink
    have hafter : { tab with wbSocket := tab.wbSocket.setReady tab.wbSocket.ws .closing }.connection =
        .lost := by
      simp only [connection, Connection.Socket.setReady, hclosing, hlink]
    cases hlost : link.isLost with
    | true =>
      refine .stutter hlinked ?_
      simp only [page, hafter, hbefore, hlost, if_true]
      rfl
    | false =>
      refine .single (l := .lose) hlinked ?_ fun _ => trivial
      have hws : tab.page.ws = .opened link.client link.wire := by
        simp only [page, hbefore, hlost, Bool.false_eq_true, if_false]
      simp only [Page.step, hws, Option.some.injEq]
      simp only [page, hafter]
      rfl

theorem shows_closed (h : tab.Linked) (hi : tab.wbSocket.sockets i ≠ .closed) :
    Shows tab (.closed i)
      ({ tab with wbSocket := (tab.wbSocket.setReady i .closed).onClose }.deliver tab.wbSocket) := by
  obtain rfl := h.sound.current i hi
  have hcalm := onClose_calm (tab.wbSocket.setReady tab.wbSocket.ws .closed)
  rw [deliver_of_sent hcalm.sent]
  have hws : (tab.wbSocket.setReady tab.wbSocket.ws .closed).onClose.ws = tab.wbSocket.ws := hcalm.ws
  have hclosed : (tab.wbSocket.setReady tab.wbSocket.ws .closed).onClose.sockets tab.wbSocket.ws =
      .closed := by
    rw [hcalm.sockets]
    exact Function.update_self ..
  have hlinked : { tab with
      wbSocket := (tab.wbSocket.setReady tab.wbSocket.ws .closed).onClose }.Linked := by
    refine ⟨h.sound.closed hi, ?_, ?_, ?_⟩
    · simp [hws, hclosed]
    · simp [hws, hclosed]
    · simpa only [hws] using h.later
  have hpage : { tab with
      wbSocket := (tab.wbSocket.setReady tab.wbSocket.ws .closed).onClose }.page =
        { tab.page with ws := .closed } := by
    simp only [page, connection, hws, hclosed, hcalm.messageQueue]
    rfl
  by_cases hgone : tab.page.ws = .closed
  · refine .stutter hlinked (hpage.trans ?_)
    rw [← hgone]
  · refine .single (l := .closed) hlinked ?_ fun _ => trivial
    rw [hpage]
    exact if_neg hgone

/-! ### Timers -/

/-- An attempt is not seen before it succeeds. -/
theorem shows_reconnect (h : tab.Linked) {id : Nat}
    (hmem : (id, .reconnect) ∈ tab.wbSocket.timers.pending)
    (hs : s = { tab.wbSocket with timers := tab.wbSocket.timers.without id }.call .ping .reconnect) :
    Shows tab (.timer id) ({ tab with wbSocket := s }.deliver tab.wbSocket) := by
  have hclosed := h.sound.closed_of_reconnect hmem
  have hsound : s.Sound := hs ▸ h.sound.reconnect hmem
  have hnone : tab.links (tab.wbSocket.ws + 1) = none := h.later _ (Nat.lt_succ_self _)
  obtain ⟨hws, hconnecting, hqueue, hsent⟩ : s.ws = tab.wbSocket.ws + 1 ∧
      s.sockets (tab.wbSocket.ws + 1) = .connecting ∧
      s.messageQueue = tab.wbSocket.messageQueue ∧ s.sent = tab.wbSocket.sent := by
    rw [hs]
    by_cases hcount : tab.wbSocket.reconnectCount = -1 <;>
      simp [Connection.Socket.call, Connection.Socket.create, hcount]
  rw [deliver_of_sent hsent]
  refine .stutter ⟨hsound, ?_, ?_, ?_⟩ ?_
  · simp [hws, hconnecting]
  · simp [hws, hnone]
  · rw [hws]
    exact fun j hj => h.later j (Nat.lt_of_succ_lt hj)
  · simp only [page, hqueue, connection_closed hclosed]
    simp only [connection, hws, hconnecting]

/-- A heartbeat pushes a message. -/
theorem shows_beat (h : tab.Linked) {id : Nat} (hsound : s.Sound)
    (hcalm : Calm (tab.wbSocket.send .ping) s) :
    Shows tab (.timer id) ({ tab with wbSocket := s }.deliver tab.wbSocket) := by
  have hpinged : ({ tab with wbSocket := tab.wbSocket.send .ping } : Tab).Linked :=
    ⟨h.sound.send _, h.opened, h.connecting, h.later⟩
  rw [deliver_of_sent hcalm.sent]
  refine .single (l := .heartbeat) (hpinged.of_calm hsound hcalm) ?_ fun _ => trivial
  have hcalm' : Calm (wbSocket { tab with wbSocket := tab.wbSocket.send .ping }) s := hcalm
  exact congrArg some (page_of_calm hcalm').symm

/-- The page sends all that is waiting, one message after the other. -/
theorem drains_sent (page : Page) (client : Client) (wire : List Message)
    (hws : page.ws = .opened client wire) :
    page.Drains { page with ws := .opened client (wire ++ page.messageQueue), messageQueue := [] } := by
  generalize hqueue : page.messageQueue = queue
  induction queue generalizing page wire with
  | nil =>
    rw [List.append_nil, ← hws, ← hqueue]
    exact .refl page
  | cons data rest ih =>
    have hstep : Page.step .fireSend page = some { page with
        ws := .opened client (wire ++ [data]), messageQueue := rest } := by
      simp only [Page.step, hws, hqueue]
    have hrest := ih { page with ws := .opened client (wire ++ [data]), messageQueue := rest }
      (wire ++ [data]) rfl rfl
    rw [List.append_assoc, List.singleton_append] at hrest
    exact .head (.inl rfl) hstep hrest

/-- Without a server all of it is lost. -/
theorem drains_lost (page : Page) (hws : page.ws = .lost) :
    page.Drains { page with messageQueue := [] } := by
  generalize hqueue : page.messageQueue = queue
  induction queue generalizing page with
  | nil =>
    rw [← hqueue]
    exact .refl page
  | cons data rest ih =>
    have hstep : Page.step .fireSend page = some { page with messageQueue := rest } := by
      simp only [Page.step, hws, hqueue]
    exact .head (.inl rfl) hstep (ih { page with messageQueue := rest } hws rfl)

/-- A link gets what its socket has sent. -/
theorem links_deliver (queue : List Message) (j : Nat) :
    ({ tab with wbSocket := { s with sent := tab.wbSocket.sent ++ queue.map (Prod.mk i) } }.deliver
      tab.wbSocket).links j = (tab.links j).map fun link => if j = i then link.put queue else link := by
  simp only [deliver, List.drop_left]
  congr 1
  funext link
  split
  · rename_i heq
    subst heq
    congr 1
    induction queue with
    | nil => rfl
    | cons data queue ih => simp [ih]
  · rename_i hne
    have hfilter : (queue.map (Prod.mk i)).filter (·.1 == j) = [] := by
      simp [List.filter_eq_nil_iff, Ne.symm hne]
    rw [hfilter]
    simp

/-- The queue goes over the socket. -/
theorem moved_sent (h : tab.Linked) (hsound : s.Sound)
    (hopened : tab.wbSocket.sockets tab.wbSocket.ws = .opened)
    (hsockets : s.sockets = tab.wbSocket.sockets) (hws : s.ws = tab.wbSocket.ws)
    (hqueue : s.messageQueue = [])
    (hsent : s.sent = tab.wbSocket.sent ++
      tab.wbSocket.messageQueue.map (Prod.mk tab.wbSocket.ws)) :
    Moved tab ({ tab with wbSocket := s }.deliver tab.wbSocket) := by
  obtain ⟨link, hlink⟩ := Option.isSome_iff_exists.mp (h.opened hopened)
  have hlinks : ∀ j, ({ tab with wbSocket := s }.deliver tab.wbSocket).links j =
      (tab.links j).map fun link =>
        if j = tab.wbSocket.ws then link.put tab.wbSocket.messageQueue else link := by
    intro j
    rw [← links_deliver (s := s), ← hsent]
  have hafter : ({ tab with wbSocket := s }.deliver tab.wbSocket).links tab.wbSocket.ws =
      some (link.put tab.wbSocket.messageQueue) := by
    rw [hlinks, hlink, Option.map_some, if_pos rfl]
  have hlinked : ({ tab with wbSocket := s }.deliver tab.wbSocket).Linked := by
    refine ⟨hsound, fun _ => ?_, ?_, fun j hj => ?_⟩
    · exact congrArg Option.isSome ((congrArg _ hws).trans hafter)
    · intro hconnecting
      have hconnecting' : s.sockets s.ws = .connecting := hconnecting
      rw [hsockets, hws, hopened] at hconnecting'
      cases hconnecting'
    · have hlt : s.ws < j := hj
      rw [hlinks, h.later j (hws ▸ hlt), Option.map_none]
  have hbefore := connection_opened hopened hlink
  have hpage : ({ tab with wbSocket := s }.deliver tab.wbSocket).page = { tab.page with
      ws := if link.isLost then .lost else .opened link.client (link.wire ++ tab.page.messageQueue)
      messageQueue := [] } := by
    have hconnection : ({ tab with wbSocket := s }.deliver tab.wbSocket).connection = _ :=
      connection_opened (by rw [← hopened, ← hsockets, ← hws]; rfl)
        ((congrArg _ hws).trans hafter)
    simp only [page, hconnection, view_put]
    simp only [deliver, hqueue]
  refine ⟨hlinked, ?_⟩
  rw [hpage]
  cases hlost : link.isLost with
  | true =>
    have hpagews : tab.page.ws = .lost := by simp only [page, hbefore, hlost, if_true]
    simpa [← hpagews] using drains_lost tab.page hpagews
  | false =>
    have hpagews : tab.page.ws = .opened link.client link.wire := by
      simp only [page, hbefore, hlost, Bool.false_eq_true, if_false]
    exact drains_sent tab.page link.client link.wire hpagews

theorem moved_fireSend (h : tab.Linked) (id : Nat)
    (hs : s = { tab.wbSocket with timers := tab.wbSocket.timers.without id }.call .ping .fireSend) :
    Moved tab ({ tab with wbSocket := s }.deliver tab.wbSocket) := by
  have hsound : s.Sound := hs ▸ h.sound.fireSend id
  simp only [Connection.Socket.call, Connection.Socket.fireSend,
    Connection.Socket.fireSendFrom_eq] at hs
  by_cases hopened : tab.wbSocket.sockets tab.wbSocket.ws = .opened
  · rw [if_pos (.inr hopened)] at hs
    apply moved_sent h hsound hopened <;> rw [hs]
  · -- a queue that waits for the next connection, or none
    apply moved_calm h hsound
    by_cases hqueue : tab.wbSocket.messageQueue = []
    · rw [if_pos (.inl hqueue)] at hs
      constructor <;> simp [hs, hqueue]
    · rw [if_neg (by simp [hqueue, hopened])] at hs
      constructor <;> simp [hs]

/-! ### The other end -/

/-- A link is replaced by another one. -/
theorem Linked.setLink (h : tab.Linked) {link : Link} (hlink : tab.links i = some link) (link' : Link) :
    { tab with links := Function.update tab.links i (some link') }.Linked := by
  refine ⟨h.sound, fun hopened => ?_, fun hconnecting => ?_, fun j hj => ?_⟩
  · rcases eq_or_ne tab.wbSocket.ws i with rfl | hne
    · simp
    · simpa [Function.update_of_ne hne] using h.opened hopened
  · have hne : tab.wbSocket.ws ≠ i := by
      rintro rfl
      rw [h.connecting hconnecting] at hlink
      cases hlink
    exact (Function.update_of_ne hne _ _).trans (h.connecting hconnecting)
  · have hne : j ≠ i := by
      rintro rfl
      rw [h.later j hj] at hlink
      cases hlink
    exact (Function.update_of_ne hne _ _).trans (h.later j hj)

/-- The page sees the link of an open socket only. -/
theorem connection_setLink {link link' : Link} (hlink : tab.links i = some link)
    (hnot : ¬ (i = tab.wbSocket.ws ∧ tab.wbSocket.sockets tab.wbSocket.ws = .opened)) :
    { tab with links := Function.update tab.links i (some link') }.connection = tab.connection := by
  rcases eq_or_ne tab.wbSocket.ws i with rfl | hne
  · simp only [connection, Function.update_self, hlink]
    cases hsocket : tab.wbSocket.sockets tab.wbSocket.ws <;> simp_all
  · simp only [connection, Function.update_of_ne hne]

/-- What comes from the server's end. -/
theorem page_setLink {l : Socket.Event} {link : Link} (link' : Link) (hlink : tab.links i = some link)
    (halive : link.isLost = false)
    (hstep : ∀ page : Page, page.ws = .opened link.client link.wire → Page.step l page = some
      { page with ws := if link'.isLost then .lost else .opened link'.client link'.wire }) :
    let tab' : Tab := { tab with links := Function.update tab.links i (some link') }
    tab'.page = tab.page ∧ (i = tab.wbSocket.ws → ¬ tab.page.IsOpen) ∨
      i = tab.wbSocket.ws ∧ Page.step l tab.page = some tab'.page := by
  intro tab'
  by_cases hcurrent : i = tab.wbSocket.ws ∧ tab.wbSocket.sockets tab.wbSocket.ws = .opened
  · obtain ⟨rfl, hopened⟩ := hcurrent
    refine .inr ⟨rfl, ?_⟩
    have hws : tab.page.ws = .opened link.client link.wire := by
      simp only [page, connection_opened hopened hlink, halive, Bool.false_eq_true, if_false]
    have hconnection : tab'.connection = _ := connection_opened hopened (Function.update_self ..)
    rw [hstep _ hws]
    simp only [page, hconnection]
    rfl
  · refine .inl ⟨by simp only [page, tab', connection_setLink hlink hcurrent], ?_⟩
    rintro rfl ⟨client, wire, hws⟩
    exact hcurrent ⟨rfl, (page_ws_opened.mp hws).1⟩

theorem moved_receive (h : tab.Linked) {client : Client} {data : Message} {wire : List Message}
    (hlink : tab.links i = some ⟨client, data :: wire, false⟩) :
    Moved tab { tab with
      links := Function.update tab.links i (some ⟨Socket.receive client data, wire, false⟩) } := by
  refine ⟨h.setLink hlink _, ?_⟩
  rcases page_setLink (l := .receive) ⟨Socket.receive client data, wire, false⟩ hlink rfl
    (fun page hws => by simp [Page.step, hws]) with ⟨heq, -⟩ | ⟨-, hstep⟩
  · rw [heq]
    exact .refl tab.page
  · exact .head (.inr rfl) hstep (.refl _)

theorem shows_lose (h : tab.Linked) {client : Client} {wire : List Message}
    (hlink : tab.links i = some ⟨client, wire, false⟩) :
    Shows tab (.lose i) { tab with
      links := Function.update tab.links i (some ⟨client, wire, true⟩) } := by
  rcases page_setLink (l := .lose) ⟨client, wire, true⟩ hlink rfl
    (fun page hws => by simp [Page.step, hws]) with ⟨heq, -⟩ | ⟨-, hstep⟩
  · exact .stutter (h.setLink hlink _) heq
  · exact .single (h.setLink hlink _) hstep fun _ => trivial

/-- The page sees that a run begins where its own connection does. -/
theorem page_newTaskLog {client : Client} {wire : List Message} (taskId logId : Int)
    (hlink : tab.links i = some ⟨client, wire, false⟩) :
    let tab' : Tab := { tab with
      links := Function.update tab.links i (some ⟨client.newTaskLog taskId logId, wire, false⟩) }
    tab'.page = tab.page ∧ (i = tab.wbSocket.ws → ¬ tab.page.IsOpen) ∨
      i = tab.wbSocket.ws ∧ Page.step (.newTaskLog taskId logId) tab.page = some tab'.page :=
  page_setLink ⟨client.newTaskLog taskId logId, wire, false⟩ hlink rfl
    fun page hws => by simp [Page.step, hws]

theorem shows_newTaskLog (h : tab.Linked) {client : Client} {wire : List Message} {taskId logId : Int}
    (hlink : tab.links i = some ⟨client, wire, false⟩) :
    Shows tab (.newTaskLog i taskId logId) { tab with
      links := Function.update tab.links i (some ⟨client.newTaskLog taskId logId, wire, false⟩) } := by
  rcases page_newTaskLog taskId logId hlink with ⟨heq, -⟩ | ⟨hi, hstep⟩
  · exact .stutter (h.setLink hlink _) heq
  · exact .single (h.setLink hlink _) hstep fun hgood => hgood hi

/-- **Each step of a tab** is some steps of the page. -/
theorem shows_step {e : Event} (h : tab.Linked) (hstep : step e tab = some tab') :
    Shows tab e tab' := by
  cases e with
  | mount hook =>
    cases hstep
    exact shows_mount h hook
  | unmount hook =>
    obtain ⟨hmounted, heq⟩ := Option.ite_none_right_eq_some.mp hstep
    cases heq
    exact shows_unmount h hmounted
  | opened i order =>
    obtain ⟨horder, hstep⟩ := Option.ite_none_right_eq_some.mp hstep
    obtain ⟨s, hs, rfl⟩ := Option.map_eq_some_iff.mp hstep
    obtain ⟨hconnecting, heq⟩ := Option.ite_none_right_eq_some.mp hs
    cases heq
    exact shows_opened h hconnecting horder
  | message i ok =>
    obtain ⟨s, hs, rfl⟩ := Option.map_eq_some_iff.mp hstep
    obtain ⟨hi, heq⟩ := Option.ite_none_right_eq_some.mp hs
    cases heq
    exact (moved_calm h (h.sound.message hi ok) (onMessage_calm _ ok)).shows
  | closing i =>
    obtain ⟨s, hs, rfl⟩ := Option.map_eq_some_iff.mp hstep
    obtain ⟨hi, heq⟩ := Option.ite_none_right_eq_some.mp hs
    cases heq
    exact shows_closing h hi
  | closed i =>
    obtain ⟨s, hs, rfl⟩ := Option.map_eq_some_iff.mp hstep
    obtain ⟨hi, heq⟩ := Option.ite_none_left_eq_some.mp hs
    cases heq
    exact shows_closed h hi
  | timer id =>
    obtain ⟨s, hs, rfl⟩ := Option.map_eq_some_iff.mp hstep
    obtain ⟨k, hk, rfl⟩ := Option.map_eq_some_iff.mp hs
    have hmem := Timers.callback_eq_some.mp hk
    cases k with
    | reconnect => exact shows_reconnect h hmem rfl
    | heart => exact shows_beat h (h.sound.heart hmem) ⟨rfl, rfl, rfl, rfl⟩
    | serverHeart => exact shows_beat h (h.sound.serverHeart hmem) ⟨rfl, rfl, rfl, rfl⟩
    | fireSend => exact (moved_fireSend h id rfl).shows
  | receive i =>
    simp only [step] at hstep
    split at hstep
    · rename_i hlink
      cases hstep
      exact (moved_receive h hlink).shows
    · cases hstep
  | newTaskLog i taskId logId =>
    simp only [step] at hstep
    split at hstep
    · rename_i hlink
      cases hstep
      exact shows_newTaskLog h hlink
    · cases hstep
  | lose i =>
    simp only [step] at hstep
    split at hstep
    · rename_i hlink
      cases hstep
      exact shows_lose h hlink
    · cases hstep

theorem start_linked (clientId : Int) : (start clientId).Linked where
  sound := Connection.Socket.init_sound 5
  opened h := by simp [start, Connection.Socket.init] at h
  connecting _ := rfl
  later _ _ := rfl

/-! ## What the page knows of the tab -/

/-- Some mounted hook is registered for the pair. -/
def Registered (tab : Tab) (target : Target) : Prop :=
  ∃ hook ∈ tab.mounted, hook.target = target ∧ hook.handlerKey ∈ tab.handlers target

/-- If the socket is open at both ends, and nothing is on its way, the server holds the pairs that some
    mounted hook is registered for. -/
def Agrees (tab : Tab) : Prop :=
  ∀ client, tab.wbSocket.sockets tab.wbSocket.ws = .opened →
    tab.links tab.wbSocket.ws = some ⟨client, [], false⟩ → tab.wbSocket.messageQueue = [] →
    ∀ target, target ∈ client.subscribed ↔ tab.Registered target

/-- The queue is looked at, or the server processes a message. -/
def Moves (tab : Tab) : Event → Prop
  | .timer id => tab.wbSocket.timers.callback id = some .fireSend
  | .receive _ => True
  | _ => False

/-- Messages are sent and processed. -/
def Drains (tab tab' : Tab) : Prop :=
  ∃ past, Trace step tab past tab' ∧ ∀ x ∈ past, Moves x.1 x.2

/-- The tab and the server agree as soon as the queue has been drained and processed. -/
def Settles (tab : Tab) : Prop := ∀ tab', tab.Drains tab' → tab'.Agrees

theorem agrees_iff_page : tab.Agrees ↔ tab.page.Agrees := by
  constructor
  · intro h client hws
    obtain ⟨hopened, hlink⟩ := page_ws_opened.mp hws
    exact h client hopened hlink
  · intro h client hopened hlink
    exact h client (page_ws_opened.mpr ⟨hopened, hlink⟩)

theorem Moved.trans {tab'' : Tab} (h : Moved tab tab') (h' : Moved tab' tab'') : Moved tab tab'' := by
  obtain ⟨-, past, htrace, hpast⟩ := h
  obtain ⟨hlinked, past', htrace', hpast'⟩ := h'
  exact ⟨hlinked, past' ++ past, htrace.append htrace',
    List.forall_mem_append.mpr ⟨hpast', hpast⟩⟩

theorem moved_step {e : Event} (h : tab.Linked) (hmoves : tab.Moves e)
    (hstep : step e tab = some tab') : Moved tab tab' := by
  cases e with
  | timer id =>
    obtain ⟨s, hs, rfl⟩ := Option.map_eq_some_iff.mp hstep
    obtain ⟨k, hk, rfl⟩ := Option.map_eq_some_iff.mp hs
    have hfire : tab.wbSocket.timers.callback id = some .fireSend := hmoves
    obtain rfl : k = .fireSend := Option.some_inj.mp (hk.symm.trans hfire)
    exact moved_fireSend h id rfl
  | receive i =>
    simp only [step] at hstep
    split at hstep
    · rename_i hlink
      cases hstep
      exact moved_receive h hlink
    · cases hstep
  | _ => exact hmoves.elim

theorem Drains.moved (h : tab.Linked) (hdrains : tab.Drains tab') : Moved tab tab' := by
  obtain ⟨past, htrace, hmoves⟩ := hdrains
  refine (htrace.always (P := Moved tab) (G := Moves) ?_ ⟨h, .refl tab.page⟩ hmoves).2
  intro tab₁ e tab₂ h₁ hmoves₁ hstep
  exact h₁.trans (moved_step h₁.1 hmoves₁ hstep)

theorem Drains.head {e : Event} {tab'' : Tab} (hmoves : tab.Moves e) (hstep : step e tab = some tab')
    (hdrains : tab'.Drains tab'') : tab.Drains tab'' := by
  obtain ⟨past, htrace, hpast⟩ := hdrains
  refine ⟨_, (Trace.single hstep).append htrace, List.forall_mem_append.mpr ⟨hpast, ?_⟩⟩
  simpa using hmoves

/-- What is on the wire can be processed. -/
theorem exists_processed {client : Client} {wire : List Message}
    (hws : tab.page.ws = .opened client wire) : ∃ tab' client', tab.Drains tab' ∧
      tab'.page.ws = .opened client' [] ∧ tab'.page.messageQueue = tab.page.messageQueue := by
  induction wire generalizing tab client with
  | nil => exact ⟨tab, client, ⟨[], .nil, by simp⟩, hws, rfl⟩
  | cons data wire ih =>
    obtain ⟨hopened, hlink⟩ := page_ws_opened.mp hws
    have hstep : step (.receive tab.wbSocket.ws) tab = some { tab with
        links := Function.update tab.links tab.wbSocket.ws
          (some ⟨Socket.receive client data, wire, false⟩) } := by
      simp only [step, hlink]
    have hnext : Page.ws (page { tab with
        links := Function.update tab.links tab.wbSocket.ws
          (some ⟨Socket.receive client data, wire, false⟩) }) =
        .opened (Socket.receive client data) wire :=
      page_ws_opened.mpr ⟨hopened, Function.update_self ..⟩
    obtain ⟨tab', client', hdrains, hdone⟩ := ih hnext
    exact ⟨tab', client', .head (e := .receive _) trivial hstep hdrains, hdone⟩

/-- **The queue can be drained**: there is always a timer that looks at it. -/
theorem exists_drained (h : tab.Linked) (hopen : tab.page.IsOpen) : ∃ tab' client,
    tab.Drains tab' ∧ tab'.page.ws = .opened client [] ∧ tab'.page.messageQueue = [] := by
  obtain ⟨client, wire, hws⟩ := hopen
  obtain ⟨hopened, -⟩ := page_ws_opened.mp hws
  obtain ⟨id, hid⟩ := h.sound.ticking hopened
  have hcallback := Timers.callback_eq_some.mpr hid
  obtain ⟨fired, hstep, hqueue⟩ : ∃ fired, step (.timer id) tab = some fired ∧
      fired.page.messageQueue = [] := by
    simp only [step, socketStep, Connection.Socket.step, hcallback, Option.map_some, Option.some.injEq,
      exists_eq_left']
    simp [page, deliver, Connection.Socket.call, Connection.Socket.fireSend,
      Connection.Socket.fireSendFrom_eq, hopened]
  have hmoved := moved_step h (e := .timer id) hcallback hstep
  obtain ⟨client', wire', hws'⟩ := hmoved.2.sameView.isOpen.mpr ⟨client, wire, hws⟩
  obtain ⟨tab', client'', hdrains, hdone, hqueue'⟩ := exists_processed hws'
  exact ⟨tab', client'', .head (e := .timer id) hcallback hstep hdrains, hdone,
    hqueue'.trans hqueue⟩

/-- A tab settles as its page does. -/
theorem settles_iff_page (h : tab.Linked) (hmounted : tab.page.HandlersMounted) :
    tab.Settles ↔ tab.page.Settles := by
  constructor
  · intro hsettles
    by_cases hopen : tab.page.IsOpen
    · obtain ⟨tab', client, hdrains, hws, hqueue⟩ := exists_drained h hopen
      have hview := (hdrains.moved h).2.sameView
      rw [Page.settles_iff hmounted hopen]
      intro target
      have hagrees := agrees_iff_page.mp (hsettles tab' hdrains) client hws hqueue target
      rw [Page.registered_iff (hmounted.congr hview.mounted hview.subscribed)] at hagrees
      have hpending : tab'.page.pending = client.subscribed := by simp [Page.pending, hws, hqueue]
      rw [← hview.pending hopen, hpending, hagrees]
      unfold Page.Bound Page.handlers
      rw [hview.subscribed]
    · exact Page.settles_of_not_open hopen
  · intro hsettles tab' hdrains
    exact agrees_iff_page.mpr (hsettles tab'.page (hdrains.moved h).2)

/-- The page keeps in step with the server exactly if the step of the tab is good; and only a step that
    leaves it open can be bad. -/
theorem synced_step_iff {e : Event} (h : tab.Linked) (hsynced : tab.page.Synced)
    (hstep : step e tab = some tab') :
    (tab'.page.Synced ↔ tab.Good e) ∧ (¬ tab'.page.IsOpen → tab.Good e) := by
  have hshows := shows_step h hstep
  have hpage : ∀ l, Page.step l tab.page = some tab'.page →
      (tab'.page.Synced ↔ tab.page.Good l) ∧ (¬ tab'.page.IsOpen → tab.page.Good l) :=
    fun l hl => ⟨Page.synced_step hsynced hl, Page.good_of_not_open hl⟩
  have hgood : tab.Good e → tab'.page.Synced := by
    intro hgood
    obtain ⟨-, past, htrace, hpast⟩ := hshows
    refine (htrace.always (fun page l page' hs hl hnext => ?_) hsynced fun x hx => hpast x hx hgood).2
    exact (Page.synced_step hs hnext).mpr hl
  cases e with
  | unmount hook =>
    obtain ⟨hmounted, heq⟩ := Option.ite_none_right_eq_some.mp hstep
    cases heq
    exact hpage _ (page_unmount hmounted)
  | opened i order =>
    obtain ⟨horder, hstep⟩ := Option.ite_none_right_eq_some.mp hstep
    obtain ⟨s, hs, rfl⟩ := Option.map_eq_some_iff.mp hstep
    obtain ⟨hconnecting, heq⟩ := Option.ite_none_right_eq_some.mp hs
    obtain rfl : i = tab.wbSocket.ws := h.sound.current i (by simp [hconnecting])
    cases heq
    exact hpage _ (page_openedBy hconnecting horder)
  | newTaskLog i taskId logId =>
    simp only [step] at hstep
    split at hstep
    · rename_i hlink
      cases hstep
      rcases page_newTaskLog taskId logId hlink with ⟨heq, hnot⟩ | ⟨hi, hnext⟩
      · have hgood' : tab.Good (.newTaskLog i taskId logId) := by
          rintro hi ⟨client, wire, hws, -⟩
          exact absurd ⟨client, wire, hws⟩ (hnot hi)
        rw [heq]
        exact ⟨iff_of_true hsynced hgood', fun _ => hgood'⟩
      · obtain ⟨hiff, hclosed⟩ := hpage _ hnext
        exact ⟨hiff.trans ⟨fun hg _ => hg, fun hg => hg hi⟩, fun hnot _ => hclosed hnot⟩
    · cases hstep
  | _ => exact ⟨iff_of_true (hgood trivial) trivial, fun _ => trivial⟩

theorem handlersMounted_step {e : Event} (h : tab.Linked) (hmounted : tab.page.HandlersMounted)
    (hstep : step e tab = some tab') : tab'.page.HandlersMounted := by
  obtain ⟨-, past, htrace, -⟩ := shows_step h hstep
  exact htrace.invariant (fun _ _ _ => Page.handlersMounted_step) hmounted

end Tab

/-! ## Runs -/

/-- **A tab refines a page**: every run is one of the page, from its start to the page of the tab, and
    it is good if the run of the tab is. -/
theorem tab_refines {clientId : Int} {past : List (Tab × Event)} {tab : Tab}
    (htrace : Trace Tab.step (.start clientId) past tab) :
    ∃ past', Trace Page.step (.start clientId) past' tab.page ∧
      ((∀ x ∈ past, x.1.Good x.2) → ∀ x ∈ past', Page.Good x.1 x.2) := by
  have hsim : Simulates Tab.step Page.step Tab.page Tab.Linked Tab.Matches :=
    fun _ _ _ => Tab.shows_step
  obtain ⟨-, past', htrace', hmatches⟩ := hsim.trace (Tab.start_linked clientId) htrace
  refine ⟨past', htrace', fun hgood x hx => ?_⟩
  obtain ⟨y, hy, hxy⟩ := hmatches x hx
  exact hxy (hgood y hy)

/-- A hook mounts, its pair is subscribed, a run begins that nobody watches, the server is lost, and the
    page connects again.  Then it watches the task, and has a hook for the log of the next run. -/
def connectsAgain : List Event :=
  [.mount ⟨("TASK", 1), "a"⟩, .opened 0 [("TASK", 1)], .timer 1, .receive 0, .newTaskLog 0 1 8, .lose 0,
    .closed 0, .timer 3, .opened 1 [("TASK", 1)], .timer 5, .receive 1,
    .mount ⟨("TASK_LOG_ADD", 1), "b"⟩, .timer 6, .receive 1, .mount ⟨("TASK_LOG", 9), "c"⟩,
    .newTaskLog 1 1 9]

/-- The page has been through both connections. -/
theorem tab_refines_connectsAgain : ∃ tab client past',
    Trace Page.step (.start 7) past' (Tab.page tab) ∧ (∀ x ∈ past', Page.Good x.1 x.2) ∧
    tab.page.ws = .opened client [] ∧ ("TASK_LOG", 9) ∈ client.subscribed := by
  obtain ⟨past, tab, client, htake, hgood, hws, hmem⟩ : ∃ past tab client,
      take Tab.step connectsAgain [] (.start 7) = some (past, tab) ∧
      (∀ x ∈ past, x.1.Good x.2) ∧ tab.page.ws = .opened client [] ∧
      ("TASK_LOG", 9) ∈ client.subscribed :=
    ⟨_, _, _, rfl, by decide, rfl, by decide⟩
  obtain ⟨past', htrace, hpast⟩ := tab_refines (Trace.nil.of_take htake)
  exact ⟨tab, client, past', htrace, hpast hgood, hws, hmem⟩

/-- **The tab and the server agree on subscriptions** through all timers, attempts and sockets, whenever
    the queue has been drained and processed, in a run and after all that drain a state of it, if and
    only if all steps of the run are good. -/
theorem tab_agrees_iff {clientId : Int} {past : List (Tab × Event)} {tab : Tab}
    (htrace : Trace Tab.step (.start clientId) past tab) :
    ((∀ x ∈ past, x.1.Settles) ∧ tab.Settles) ↔ ∀ x ∈ past, x.1.Good x.2 := by
  have hsettled : ∀ tab : Tab, tab.Linked ∧ tab.page.HandlersMounted ∧
      (¬ tab.page.IsOpen → tab.page.Synced) → (tab.Settles ↔ tab.page.Synced) := by
    rintro tab ⟨hlinked, hmounted, hclosed⟩
    rw [Tab.settles_iff_page hlinked hmounted]
    exact Page.Synced.settles_iff_synced hmounted hclosed
  have hkeep : ∀ (tab : Tab) (e : Event) (tab' : Tab), (tab.Linked ∧ tab.page.HandlersMounted ∧
      (¬ tab.page.IsOpen → tab.page.Synced)) → tab.Settles → Tab.step e tab = some tab' →
      (tab'.Linked ∧ tab'.page.HandlersMounted ∧ (¬ tab'.page.IsOpen → tab'.page.Synced)) ∧
      (tab'.page.Synced ↔ tab.Good e) := by
    intro tab e tab' hI hsettles hstep
    obtain ⟨hiff, hopen⟩ := Tab.synced_step_iff hI.1 ((hsettled tab hI).mp hsettles) hstep
    exact ⟨⟨(Tab.shows_step hI.1 hstep).1, Tab.handlersMounted_step hI.1 hI.2.1 hstep,
      fun hnot => hiff.mpr (hopen hnot)⟩, hiff⟩
  have hstart : (Tab.start clientId).Linked ∧ (Tab.start clientId).page.HandlersMounted ∧
      (¬ (Tab.start clientId).page.IsOpen → (Tab.start clientId).page.Synced) :=
    ⟨Tab.start_linked clientId, Page.handlersMounted_start clientId,
      fun _ => Page.synced_start clientId⟩
  refine htrace.always_iff_of_invariant (fun tab e tab' hI hP hstep => (hkeep tab e tab' hI hP hstep).1)
    (fun tab e tab' hI hP hstep => ?_) hstart ((hsettled _ hstart).mpr (Page.synced_start clientId))
  obtain ⟨hI', hiff⟩ := hkeep tab e tab' hI hP hstep
  rw [hsettled tab' hI', hiff]

/-- All along, the server settles on the pairs that have hooks. -/
theorem tab_agrees_iff_connectsAgain : ∃ past tab,
    take Tab.step connectsAgain [] (.start 7) = some (past, tab) ∧ tab.wbSocket.ws = 1 ∧
    (∀ x ∈ past, x.1.Settles) ∧ tab.Settles := by
  obtain ⟨past, tab, htake, hgood, hws⟩ : ∃ past tab,
      take Tab.step connectsAgain [] (.start 7) = some (past, tab) ∧
      (∀ x ∈ past, x.1.Good x.2) ∧ tab.wbSocket.ws = 1 := ⟨_, _, rfl, by decide, rfl⟩
  exact ⟨past, tab, htake, hws, (tab_agrees_iff (Trace.nil.of_take htake)).mpr hgood⟩

end Gonitor.Web.Browser
