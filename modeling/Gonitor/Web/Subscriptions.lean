import Gonitor.Framework.Toggles
import Gonitor.Web.Delivery

/-!
# Subscriptions of a Page

`Websocket.js` and `Socket.js`: the hooks of a page subscribe to tasks and logs over the one
connection of the page, which may be lost at any time and is opened again.  The page keeps the handlers
of each pair of a type and an id, the server a plain set of pairs, and between them lies a queue that
survives the connection.

A pair is a type and an integer; as a property of a JavaScript object it is the decimal number, and
`parseInt` gives it back.  The server is ready when a connection opens, with no subscriptions.  It
subscribes by itself to the log of a new run where the page has subscribed to the new logs of its task
(`SendNewTaskLogFormOrm`).

## Main Results

- `subscriptions_agree_iff`: the server ends up with the pairs that have a handler if and only if, while
  the connection is open, only the last handler of a pair goes, when one opens, every pair has one, and
  the server does not subscribe by itself to a pair that nobody has asked for.
- `shared_pair_unsubscribed`, `unbound_pair_subscribed`: it does not if another handler is left, and if
  none is.
-/

namespace Gonitor.Web.Socket

open LabelledTraces Toggles
open Ws (Client subscribeTypeTaskLog subscribeTypeTaskLogAdd)

/-! ## The page -/

/-- A type and an id that can be subscribed to. -/
abbrev Target := String × Int

/-- What the page sends.  The data of a `PING` is an object. -/
inductive Message
  | subscribe (target : Target)
  | unsubscribe (target : Target)
  | ping
  deriving DecidableEq

/-- An effect of `useSubscribe`, with the random key that it has got. -/
structure Hook where
  target : Target
  handlerKey : String
  deriving DecidableEq

/-- `ws`: not open, open with the other side and what is on its way there, or lost while its
    `readyState` is still `OPEN`. -/
inductive Connection
  | closed
  | opened (client : Client) (wire : List Message)
  | lost
  deriving DecidableEq

/-- The page.  `subscribed` has an entry for each pair that has ever had a handler. -/
structure Page where
  clientId : Int
  mounted : List Hook := []
  subscribed : AList (fun _ : Target => Finset String) := ∅
  messageQueue : List Message := []
  ws : Connection := .closed

/-- The page has been loaded. -/
def Page.start (clientId : Int) : Page := { clientId := clientId }

/-- One case of the switch in `readService`; a `PING` of the page cannot be parsed. -/
def receive (client : Client) : Message → Client
  | .subscribe target => client.toggleSubscribe target.1 target.2 true
  | .unsubscribe target => client.toggleSubscribe target.1 target.2 false
  | .ping => client

/-- What happens in a step. -/
inductive Event
  | mount (hook : Hook)
  | unmount (hook : Hook)
  | heartbeat
  | opened (order : List Target)
  | fireSend
  | receive
  /-- A run of the task begins, with its log. -/
  | newTaskLog (taskId logId : Int)
  | lose
  | closed

namespace Page

/-- `subscribed[subscribeType][targetId]`, or nothing. -/
def handlers (page : Page) (target : Target) : Finset String :=
  (page.subscribed.lookup target).getD ∅

/-- `send` of `Socket.js` -/
def send (page : Page) (data : Message) : Page :=
  { page with messageQueue := page.messageQueue ++ [data] }

/-- The effect of `useSubscribe`. -/
def mount (page : Page) (hook : Hook) : Page :=
  { page.send (.subscribe hook.target) with
    mounted := hook :: page.mounted
    subscribed := page.subscribed.insert hook.target
      (insert hook.handlerKey (page.handlers hook.target)) }

/-- What the effect of `useSubscribe` returns. -/
def unmount (page : Page) (hook : Hook) : Page :=
  { page.send (.unsubscribe hook.target) with
    mounted := page.mounted.erase hook
    subscribed := page.subscribed.insert hook.target
      ((page.handlers hook.target).erase hook.handlerKey) }

/-- `Object.keys(subscribeTypeItem[targetId]) === 0`: an array is compared with a number, so it is
    never so. -/
def isUnbound (_ : Finset String) : Bool := false

/-- `openCb`; the properties of an object are enumerated in some order. -/
def openCb (page : Page) (order : List Target) : Page :=
  order.foldl (fun page target =>
    if isUnbound (page.handlers target) then page else page.send (.subscribe target)) page

/-- One step. -/
def step : Event → Page → Option Page
  | .mount hook, page => some (page.mount hook)
  | .unmount hook, page => if hook ∈ page.mounted then some (page.unmount hook) else none
  | .heartbeat, page => some (page.send .ping)
  | .opened order, page =>
    match page.ws with
    | .closed =>
      if order.Perm page.subscribed.keys then
        let client : Client := { id := page.clientId, phase := .serving }
        some ({ page with ws := .opened client [] }.openCb order)
      else none
    | _ => none
  | .fireSend, page =>
    match page.ws, page.messageQueue with
    | .opened client wire, data :: rest =>
      some { page with ws := .opened client (wire ++ [data]), messageQueue := rest }
    | .lost, _ :: rest => some { page with messageQueue := rest }
    | _, _ => none
  | .receive, page =>
    match page.ws with
    | .opened client (data :: wire) =>
      some { page with ws := .opened (Socket.receive client data) wire }
    | _ => none
  | .newTaskLog taskId logId, page =>
    match page.ws with
    | .opened client wire =>
      some { page with ws := .opened (client.newTaskLog taskId logId) wire }
    | _ => none
  | .lose, page =>
    match page.ws with
    | .opened _ _ => some { page with ws := .lost }
    | _ => none
  | .closed, page => if page.ws = .closed then none else some { page with ws := .closed }

/-! ## What is subscribed, and what is on its way -/

/-- Some mounted hook is registered for the pair. -/
def Registered (page : Page) (target : Target) : Prop :=
  ∃ hook ∈ page.mounted, hook.target = target ∧ hook.handlerKey ∈ page.handlers target

/-- If the connection is open and nothing is on its way, the server holds the pairs that some mounted
    hook is registered for. -/
def Agrees (page : Page) : Prop :=
  ∀ client, page.ws = .opened client [] → page.messageQueue = [] →
    ∀ target, target ∈ client.subscribed ↔ page.Registered target

/-- Messages of the queue are sent, and messages on the wire are processed. -/
def Drains (page page' : Page) : Prop :=
  ∃ past, Trace step page past page' ∧ ∀ x ∈ past, x.2 = .fireSend ∨ x.2 = .receive

/-- The page and the server agree as soon as the queue has been drained and processed. -/
def Settles (page : Page) : Prop := ∀ page', page.Drains page' → page'.Agrees

/-- The order to the server that is in a message. -/
def order? : Message → Option (Target × Bool)
  | .subscribe target => some (target, true)
  | .unsubscribe target => some (target, false)
  | .ping => none

/-- What the server will have subscribed when all that is on its way has been processed. -/
def pending (page : Page) : Finset Target :=
  match page.ws with
  | .opened client wire => follow client.subscribed ((wire ++ page.messageQueue).filterMap order?)
  | _ => follow ∅ (page.messageQueue.filterMap order?)

/-- A handler is registered for the pair. -/
def Bound (page : Page) (target : Target) : Prop := (page.handlers target).Nonempty

/-- The server has subscribed the page to the new logs of the task. -/
def Watches (page : Page) (taskId : Int) : Prop :=
  ∃ client wire, page.ws = .opened client wire ∧ (subscribeTypeTaskLogAdd, taskId) ∈ client.subscribed

/-- A message about the pair is on its way. -/
def Ordered (page : Page) (target : Target) : Prop :=
  ∃ client wire, page.ws = .opened client wire ∧
    ∃ order ∈ (wire ++ page.messageQueue).filterMap order?, order.1 = target

/-- The connection is open, at both ends. -/
def IsOpen (page : Page) : Prop := ∃ client wire, page.ws = .opened client wire

variable {page page' : Page} {l : Event} {target : Target} {hook : Hook}

/-! ## Sending and opening -/

theorem pending_send (page : Page) (data : Message) :
    (page.send data).pending = follow page.pending (order? data).toList := by
  cases hws : page.ws <;> cases data <;> simp [pending, send, hws, order?, List.filterMap_cons]

@[simp] theorem pending_mount : (page.mount hook).pending = insert hook.target page.pending :=
  pending_send page (.subscribe hook.target)

@[simp] theorem pending_unmount : (page.unmount hook).pending = page.pending.erase hook.target :=
  pending_send page (.unsubscribe hook.target)

@[simp] theorem pending_ping : (page.send .ping).pending = page.pending :=
  pending_send page .ping

/-- No pair is left out when the connection opens. -/
theorem openCb_eq (order : List Target) : page.openCb order =
    { page with messageQueue := page.messageQueue ++ order.map .subscribe } := by
  induction order generalizing page with
  | nil => simp [openCb]
  | cons target order ih =>
    have hsend : page.openCb (target :: order) = (page.send (.subscribe target)).openCb order := rfl
    rw [hsend, ih]
    simp [send]

theorem order?_subscribe (order : List Target) :
    (order.map Message.subscribe).filterMap order? = order.map fun target => (target, true) := by
  simp [List.filterMap_map, Function.comp_def, order?]

theorem mem_pending_opened {order : List Target} {client : Client} (hclosed : page.ws = .closed)
    (hnew : client.subscribed = ∅) :
    target ∈ ({ page with ws := .opened client [] }.openCb order).pending ↔
      target ∈ page.pending ∨ target ∈ order := by
  rw [openCb_eq]
  simp only [pending, hclosed, List.nil_append, List.filterMap_append, order?_subscribe,
    follow_append, mem_follow_inserts, hnew]

/-! ## Handlers -/

/-- The handlers of one pair are replaced. -/
theorem handlers_of_insert {other : Target} {keys : Finset String}
    (hs : page'.subscribed = page.subscribed.insert other keys) :
    page'.handlers target = if target = other then keys else page.handlers target := by
  unfold handlers
  rw [hs]
  split
  · rename_i heq
    subst heq
    simp
  · rename_i hne
    simp [AList.lookup_insert_ne hne]

theorem handlers_mount : (page.mount hook).handlers target =
    if target = hook.target then insert hook.handlerKey (page.handlers hook.target)
    else page.handlers target :=
  handlers_of_insert rfl

theorem handlers_unmount : (page.unmount hook).handlers target =
    if target = hook.target then (page.handlers hook.target).erase hook.handlerKey
    else page.handlers target :=
  handlers_of_insert rfl

theorem bound_mount : (page.mount hook).Bound target ↔ target = hook.target ∨ page.Bound target := by
  unfold Bound
  rw [handlers_mount]
  split
  · simp [*]
  · simp [*]

theorem bound_unmount : (page.unmount hook).Bound target ↔
    if target = hook.target then ((page.handlers target).erase hook.handlerKey).Nonempty
    else page.Bound target := by
  unfold Bound
  rw [handlers_unmount]
  split
  · simp [*]
  · simp [*]

/-- A pair with a handler has an entry. -/
theorem Bound.mem_subscribed (hbound : page.Bound target) : target ∈ page.subscribed := by
  by_contra hnot
  obtain ⟨key, hkey⟩ := hbound
  rw [handlers, AList.lookup_eq_none.mpr hnot] at hkey
  simp at hkey

/-- Handlers belong to mounted hooks. -/
def HandlersMounted (page : Page) : Prop :=
  ∀ target key, key ∈ page.handlers target → ⟨target, key⟩ ∈ page.mounted

theorem registered_iff (hmounted : page.HandlersMounted) :
    page.Registered target ↔ page.Bound target := by
  constructor
  · rintro ⟨hook, -, rfl, hkey⟩
    exact ⟨hook.handlerKey, hkey⟩
  · rintro ⟨key, hkey⟩
    exact ⟨⟨target, key⟩, hmounted target key hkey, rfl, hkey⟩

theorem HandlersMounted.congr (hmounted : page.HandlersMounted) (hm : page'.mounted = page.mounted)
    (hs : page'.subscribed = page.subscribed) : page'.HandlersMounted := by
  intro target key hkey
  rw [hm]
  unfold handlers at hkey
  rw [hs] at hkey
  exact hmounted target key hkey

theorem handlersMounted_mount (hmounted : page.HandlersMounted) :
    (page.mount hook).HandlersMounted := by
  intro target key hkey
  rw [handlers_mount] at hkey
  by_cases hself : (⟨target, key⟩ : Hook) = hook
  · simp [mount, hself]
  · refine List.mem_cons_of_mem _ (hmounted target key ?_)
    split at hkey
    · -- another key of the same pair
      rename_i heq
      subst heq
      refine Finset.mem_of_mem_insert_of_ne hkey ?_
      rintro rfl
      exact hself rfl
    · exact hkey

theorem handlersMounted_unmount (hmounted : page.HandlersMounted) :
    (page.unmount hook).HandlersMounted := by
  intro target key hkey
  rw [handlers_unmount] at hkey
  have hother : (⟨target, key⟩ : Hook) ≠ hook := by
    rintro rfl
    simp at hkey
  refine (List.mem_erase_of_ne hother).mpr (hmounted target key ?_)
  split at hkey
  · rename_i heq
    subst heq
    exact Finset.mem_of_mem_erase hkey
  · exact hkey

theorem handlersMounted_step (hmounted : page.HandlersMounted) (hstep : step l page = some page') :
    page'.HandlersMounted := by
  cases l with
  | mount hook =>
    cases hstep
    exact handlersMounted_mount hmounted
  | unmount hook =>
    simp only [step] at hstep
    split at hstep
    · cases hstep
      exact handlersMounted_unmount hmounted
    · cases hstep
  | heartbeat =>
    cases hstep
    exact hmounted.congr rfl rfl
  | opened order =>
    simp only [step] at hstep
    split at hstep
    · split at hstep
      · cases hstep
        rw [openCb_eq]
        exact hmounted.congr rfl rfl
      · cases hstep
    · cases hstep
  | fireSend | receive | newTaskLog | lose | closed =>
    simp only [step] at hstep
    split at hstep <;> cases hstep <;> exact hmounted.congr rfl rfl

/-! ## Draining -/

/-- Nothing has changed but how far the messages have come; they can be lost where the connection is. -/
structure SameView (page page' : Page) : Prop where
  mounted : page'.mounted = page.mounted
  subscribed : page'.subscribed = page.subscribed
  isOpen : page'.IsOpen ↔ page.IsOpen
  pending_subset : page'.pending ⊆ page.pending
  pending : page.IsOpen → page'.pending = page.pending

theorem SameView.refl (page : Page) : SameView page page :=
  ⟨rfl, rfl, Iff.rfl, Finset.Subset.refl _, fun _ => rfl⟩

theorem SameView.trans {page'' : Page} (h : SameView page page') (h' : SameView page' page'') :
    SameView page page'' where
  mounted := h'.mounted.trans h.mounted
  subscribed := h'.subscribed.trans h.subscribed
  isOpen := h'.isOpen.trans h.isOpen
  pending_subset := h'.pending_subset.trans h.pending_subset
  pending hopen := (h'.pending (h.isOpen.mpr hopen)).trans (h.pending hopen)

/-- A message goes from the queue to the wire. -/
theorem sameView_fireSend (hstep : step .fireSend page = some page') : SameView page page' := by
  simp only [step] at hstep
  split at hstep
  · rename_i client wire data rest hws hqueue
    cases hstep
    have hpending : Page.pending { page with
        ws := .opened client (wire ++ [data]), messageQueue := rest } = page.pending := by
      simp [Page.pending, hws, hqueue]
    refine ⟨rfl, rfl, ?_, hpending.subset, fun _ => hpending⟩
    exact iff_of_true ⟨_, _, rfl⟩ ⟨_, _, hws⟩
  · rename_i data rest hws hqueue
    cases hstep
    have hnot : ¬ page.IsOpen := by
      rintro ⟨client, wire, hopen⟩
      rw [hws] at hopen
      cases hopen
    refine ⟨rfl, rfl, Iff.rfl, ?_, fun hopen => absurd hopen hnot⟩
    -- the message is lost
    simp only [Page.pending, hws, hqueue]
    cases hdata : order? data with
    | none => simp [hdata]
    | some order =>
      rw [List.filterMap_cons, hdata, follow_cons]
      exact follow_mono (Finset.empty_subset _)
  · cases hstep

/-- A message is processed. -/
theorem sameView_receive (hstep : step .receive page = some page') : SameView page page' := by
  simp only [step] at hstep
  split at hstep
  · rename_i client data wire hws
    cases hstep
    have hpending : Page.pending { page with ws := .opened (Socket.receive client data) wire } =
        page.pending := by
      simp only [Page.pending, hws, List.cons_append, List.filterMap_cons]
      cases data <;> simp [Socket.receive, order?, Client.toggleSubscribe]
    refine ⟨rfl, rfl, ?_, hpending.subset, fun _ => hpending⟩
    exact iff_of_true ⟨_, _, rfl⟩ ⟨_, _, hws⟩
  · cases hstep

theorem Drains.sameView (hdrains : page.Drains page') : SameView page page' := by
  obtain ⟨past, htrace, hlabels⟩ := hdrains
  refine (htrace.always (P := SameView page) (G := fun _ l => l = .fireSend ∨ l = .receive) ?_
    (SameView.refl page) hlabels).2
  rintro page₁ l page₂ hview (rfl | rfl) hstep
  · exact hview.trans (sameView_fireSend hstep)
  · exact hview.trans (sameView_receive hstep)

theorem Drains.refl (page : Page) : page.Drains page := ⟨[], .nil, by simp⟩

theorem Drains.head {page'' : Page} (hl : l = .fireSend ∨ l = .receive)
    (hstep : step l page = some page') (hdrains : page'.Drains page'') : page.Drains page'' := by
  obtain ⟨past, htrace, hlabels⟩ := hdrains
  refine ⟨_, (Trace.single hstep).append htrace, List.forall_mem_append.mpr ⟨hlabels, ?_⟩⟩
  simpa using hl

/-- What is on the wire can be processed. -/
theorem exists_processed {client : Client} {wire : List Message} (hws : page.ws = .opened client wire) :
    ∃ page' client', page.Drains page' ∧ page'.ws = .opened client' [] ∧
      page'.messageQueue = page.messageQueue := by
  induction wire generalizing page client with
  | nil => exact ⟨page, client, .refl page, hws, rfl⟩
  | cons data wire ih =>
    have hstep : step .receive page =
        some { page with ws := .opened (Socket.receive client data) wire } := by
      simp [step, hws]
    have hnext : Page.ws { page with ws := .opened (Socket.receive client data) wire } =
      .opened (Socket.receive client data) wire := rfl
    obtain ⟨page', client', hdrains, hdone⟩ := ih hnext
    exact ⟨page', client', .head (.inr rfl) hstep hdrains, hdone⟩

/-- What is in the queue can be sent, and processed. -/
theorem exists_drained {client : Client} {wire : List Message} (hws : page.ws = .opened client wire) :
    ∃ page' client', page.Drains page' ∧ page'.ws = .opened client' [] ∧ page'.messageQueue = [] := by
  generalize hqueue : page.messageQueue = queue
  induction queue generalizing page wire with
  | nil =>
    obtain ⟨page', client', hdrains, hws', hqueue'⟩ := exists_processed hws
    exact ⟨page', client', hdrains, hws', hqueue'.trans hqueue⟩
  | cons data rest ih =>
    have hstep : step .fireSend page = some
        { page with ws := .opened client (wire ++ [data]), messageQueue := rest } := by
      simp [step, hws, hqueue]
    have hnext : Page.ws
        { page with ws := .opened client (wire ++ [data]), messageQueue := rest } =
      .opened client (wire ++ [data]) := rfl
    obtain ⟨page', client', hdrains, hdone⟩ := ih hnext rfl
    exact ⟨page', client', .head (.inl rfl) hstep hdrains, hdone⟩

/-- An open connection settles if what is pending is what has a handler. -/
theorem settles_iff (hmounted : page.HandlersMounted) (hopen : page.IsOpen) :
    page.Settles ↔ ∀ target, target ∈ page.pending ↔ page.Bound target := by
  have hagrees : ∀ page' client, page.Drains page' → page'.ws = .opened client [] →
      page'.messageQueue = [] → ∀ target, (target ∈ client.subscribed ↔ target ∈ page.pending) ∧
        (page'.Registered target ↔ page.Bound target) := by
    intro page' client hdrains hws hqueue target
    have hview := hdrains.sameView
    constructor
    · rw [← hview.pending hopen]
      simp [Page.pending, hws, hqueue]
    · rw [registered_iff (hmounted.congr hview.mounted hview.subscribed)]
      unfold Bound handlers
      rw [hview.subscribed]
  constructor
  · intro hsettles target
    obtain ⟨client, wire, hws⟩ := hopen
    obtain ⟨page', client', hdrains, hws', hqueue⟩ := exists_drained hws
    obtain ⟨hserver, hpage⟩ := hagrees page' client' hdrains hws' hqueue target
    rw [← hserver, ← hpage]
    exact hsettles page' hdrains client' hws' hqueue target
  · intro hall page' hdrains client hws hqueue target
    obtain ⟨hserver, hpage⟩ := hagrees page' client hdrains hws hqueue target
    rw [hserver, hpage]
    exact hall target

theorem settles_of_not_open (hnot : ¬ page.IsOpen) : page.Settles := by
  intro page' hdrains client hws
  exact absurd (hdrains.sameView.isOpen.mp ⟨client, [], hws⟩) hnot

/-! ## What is on its way, and the handlers -/

/-- Whatever the server will have subscribed has a handler, and what has one will be subscribed if the
    connection is open.  If it is not, opening it makes up for that. -/
structure Synced (page : Page) : Prop where
  bound : ∀ target ∈ page.pending, page.Bound target
  subscribed : page.IsOpen → ∀ target, page.Bound target → target ∈ page.pending

theorem Synced.mem_pending_iff (hsynced : page.Synced) (hopen : page.IsOpen) :
    target ∈ page.pending ↔ page.Bound target :=
  ⟨hsynced.bound target, hsynced.subscribed hopen target⟩

/-- Messages move on, or are lost with the connection. -/
theorem Synced.of_pending (hsynced : page.Synced) (hs : page'.subscribed = page.subscribed)
    (hpending : page'.pending ⊆ page.pending)
    (hopen : page'.IsOpen → page.IsOpen ∧ page'.pending = page.pending) : page'.Synced := by
  have hbound : ∀ target, page'.Bound target ↔ page.Bound target := by
    intro target
    unfold Bound handlers
    rw [hs]
  constructor
  · intro target hmem
    exact (hbound target).mpr (hsynced.bound target (hpending hmem))
  · intro hopen' target hbound'
    obtain ⟨hopen, heq⟩ := hopen hopen'
    rw [heq]
    exact hsynced.subscribed hopen target ((hbound target).mp hbound')

theorem Synced.of_sameView (hsynced : page.Synced) (hview : SameView page page') : page'.Synced := by
  refine hsynced.of_pending hview.subscribed hview.pending_subset fun hopen => ?_
  have hopen' := hview.isOpen.mp hopen
  exact ⟨hopen', hview.pending hopen'⟩

theorem synced_mount (hsynced : page.Synced) : (page.mount hook).Synced := by
  constructor
  · intro target hmem
    rw [pending_mount, Finset.mem_insert] at hmem
    exact bound_mount.mpr (hmem.imp_right (hsynced.bound target))
  · intro hopen target hbound
    rw [pending_mount, Finset.mem_insert]
    exact (bound_mount.mp hbound).imp_right (hsynced.subscribed hopen target)

/-- An `UNSUBSCRIBE` is right if no other handler of the pair is left, and does no harm if the
    connection is not open. -/
theorem synced_unmount_iff (hsynced : page.Synced) : (page.unmount hook).Synced ↔
    (page.IsOpen → (page.handlers hook.target).erase hook.handlerKey = ∅) := by
  constructor
  · intro hafter hopen
    by_contra hleft
    -- the pair has a handler, but has just been unsubscribed
    have hbound : (page.unmount hook).Bound hook.target := by
      rw [bound_unmount, if_pos rfl]
      exact Finset.nonempty_iff_ne_empty.mpr hleft
    have hmem := hafter.subscribed hopen hook.target hbound
    simp at hmem
  · intro hlast
    constructor
    · intro target hmem
      rw [pending_unmount, Finset.mem_erase] at hmem
      rw [bound_unmount, if_neg hmem.1]
      exact hsynced.bound target hmem.2
    · intro hopen target hbound
      rw [bound_unmount] at hbound
      rw [pending_unmount, Finset.mem_erase]
      split at hbound
      · rename_i heq
        subst heq
        rw [hlast hopen] at hbound
        simp at hbound
      · rename_i hne
        exact ⟨hne, hsynced.subscribed hopen target hbound⟩

/-- What `openCb` subscribes is right if each entry has a handler. -/
theorem synced_opened_iff {order : List Target} {client : Client} (hsynced : page.Synced)
    (hclosed : page.ws = .closed) (hnew : client.subscribed = ∅)
    (horder : order.Perm page.subscribed.keys) :
    ({ page with ws := .opened client [] }.openCb order).Synced ↔
      ∀ target ∈ page.subscribed, page.Bound target := by
  have hbound : ∀ target, ({ page with ws := .opened client [] }.openCb order).Bound target ↔
      page.Bound target := by
    intro target
    rw [openCb_eq]
    rfl
  have hmem : ∀ target, target ∈ order ↔ target ∈ page.subscribed := by
    intro target
    rw [horder.mem_iff, AList.mem_keys]
  constructor
  · intro hafter target htarget
    rw [← hbound]
    exact hafter.bound target ((mem_pending_opened hclosed hnew).mpr (.inr ((hmem target).mpr htarget)))
  · intro hall
    constructor
    · intro target hpending
      rw [hbound]
      rcases (mem_pending_opened hclosed hnew).mp hpending with hold | hreplayed
      · exact hsynced.bound target hold
      · exact hall target ((hmem target).mp hreplayed)
    · intro _ target hbound'
      rw [hbound] at hbound'
      exact (mem_pending_opened hclosed hnew).mpr (.inr ((hmem target).mpr hbound'.mem_subscribed))

theorem not_ordered_iff {client : Client} {wire : List Message} (hws : page.ws = .opened client wire) :
    ¬ page.Ordered target ↔
      ∀ order ∈ (wire ++ page.messageQueue).filterMap order?, order.1 ≠ target := by
  constructor
  · intro hnot order hmem heq
    exact hnot ⟨client, wire, hws, order, hmem, heq⟩
  · rintro hall ⟨client', wire', hws', order, hmem, heq⟩
    rw [hws] at hws'
    cases hws'
    exact hall order hmem heq

/-- What the server will have subscribed after a run has begun. -/
theorem mem_pending_newTaskLog {client : Client} {wire : List Message} {taskId logId : Int}
    (hws : page.ws = .opened client wire)
    (hadd : (subscribeTypeTaskLogAdd, taskId) ∈ client.subscribed) :
    target ∈ pending { page with ws := .opened (client.newTaskLog taskId logId) wire } ↔
      target ∈ page.pending ∨
        (target = (subscribeTypeTaskLog, logId) ∧ ¬ page.Ordered (subscribeTypeTaskLog, logId)) := by
  have hnew : (client.newTaskLog taskId logId).subscribed =
      insert (subscribeTypeTaskLog, logId) client.subscribed := by
    simp [Client.newTaskLog, Client.toggleSubscribe, hadd]
  rw [not_ordered_iff hws]
  simp only [pending, hws, hnew, mem_follow_insert]

/-- A subscription that the server makes by itself is right if the pair has a handler; and it makes no
    difference if a message about the pair is on its way. -/
theorem synced_newTaskLog_iff {client : Client} {wire : List Message} {taskId logId : Int}
    (hsynced : page.Synced) (hws : page.ws = .opened client wire) :
    Synced { page with ws := .opened (client.newTaskLog taskId logId) wire } ↔
      (page.Watches taskId → page.Bound (subscribeTypeTaskLog, logId) ∨
        page.Ordered (subscribeTypeTaskLog, logId)) := by
  by_cases hadd : (subscribeTypeTaskLogAdd, taskId) ∈ client.subscribed
  · constructor
    · intro hafter _
      by_cases hordered : page.Ordered (subscribeTypeTaskLog, logId)
      · exact .inr hordered
      · exact .inl (hafter.bound _ ((mem_pending_newTaskLog hws hadd).mpr (.inr ⟨rfl, hordered⟩)))
    · intro hgood
      constructor
      · intro target hmem
        rcases (mem_pending_newTaskLog hws hadd).mp hmem with hold | ⟨rfl, hnot⟩
        · exact hsynced.bound target hold
        · exact (hgood ⟨client, wire, hws, hadd⟩).resolve_right hnot
      · intro _ target hbound
        have hmem := hsynced.subscribed ⟨client, wire, hws⟩ target hbound
        exact (mem_pending_newTaskLog hws hadd).mpr (.inl hmem)
  · have hsame : client.newTaskLog taskId logId = client := if_neg hadd
    have hnot : ¬ page.Watches taskId := by
      rintro ⟨client', wire', hws', hadd'⟩
      rw [hws] at hws'
      cases hws'
      exact hadd hadd'
    rw [hsame, ← hws]
    exact iff_of_true hsynced fun hwatches => absurd hwatches hnot

/-- What a step has to respect: while the connection is open only the last handler of a pair goes, when
    it opens every pair has one, and the server subscribes by itself only to a pair that has a handler
    or that a message is on its way about. -/
def Good (page : Page) : Event → Prop
  | .unmount hook => page.IsOpen → (page.handlers hook.target).erase hook.handlerKey = ∅
  | .opened _ => ∀ target ∈ page.subscribed, page.Bound target
  | .newTaskLog taskId logId => page.Watches taskId →
      page.Bound (subscribeTypeTaskLog, logId) ∨ page.Ordered (subscribeTypeTaskLog, logId)
  | _ => True

/-- **One step** keeps both sides in step exactly if it is good. -/
theorem synced_step (hsynced : page.Synced) (hstep : step l page = some page') :
    page'.Synced ↔ Good page l := by
  cases l with
  | mount hook =>
    cases hstep
    exact iff_of_true (synced_mount hsynced) trivial
  | unmount hook =>
    simp only [step] at hstep
    split at hstep
    · cases hstep
      exact synced_unmount_iff hsynced
    · cases hstep
  | heartbeat =>
    cases hstep
    refine iff_of_true (hsynced.of_pending rfl ?_ ?_) trivial
    · simp
    · intro hopen
      exact ⟨hopen, pending_ping⟩
  | opened order =>
    simp only [step] at hstep
    split at hstep
    · rename_i hclosed
      split at hstep
      · rename_i horder
        cases hstep
        exact synced_opened_iff hsynced hclosed rfl horder
      · cases hstep
    · cases hstep
  | fireSend => exact iff_of_true (hsynced.of_sameView (sameView_fireSend hstep)) trivial
  | receive => exact iff_of_true (hsynced.of_sameView (sameView_receive hstep)) trivial
  | newTaskLog taskId logId =>
    simp only [step] at hstep
    split at hstep
    · rename_i hws
      cases hstep
      exact synced_newTaskLog_iff hsynced hws
    · cases hstep
  | lose | closed =>
    simp only [step] at hstep
    split at hstep <;> cases hstep
    all_goals
      refine iff_of_true (hsynced.of_pending rfl ?_ ?_) trivial
      · cases hws : page.ws with
        | opened client wire =>
          simp only [pending, hws, List.filterMap_append, follow_append]
          exact follow_mono (Finset.empty_subset _)
        | closed | lost => simp [pending, hws]
      · rintro ⟨client, wire, hopen⟩
        cases hopen

theorem synced_start (clientId : Int) : (start clientId).Synced where
  bound target hmem := by simp [pending, start] at hmem
  subscribed hopen := by
    obtain ⟨client, wire, hws⟩ := hopen
    cases hws

theorem handlersMounted_start (clientId : Int) : (start clientId).HandlersMounted := by
  intro target key hkey
  simp [handlers, start] at hkey

/-- What keeps a page in step keeps it settled, where the connection is open. -/
theorem Synced.settles_iff_synced (hmounted : page.HandlersMounted)
    (hclosed : ¬ page.IsOpen → page.Synced) : page.Settles ↔ page.Synced := by
  by_cases hopen : page.IsOpen
  · rw [settles_iff hmounted hopen]
    constructor
    · intro hall
      exact ⟨fun target => (hall target).mp, fun _ target => (hall target).mpr⟩
    · intro hsynced target
      exact hsynced.mem_pending_iff hopen
  · exact iff_of_true (settles_of_not_open hopen) (hclosed hopen)

/-- What a page has to respect only matters where the connection is open afterwards. -/
theorem good_of_not_open (hstep : step l page = some page') (hnot : ¬ page'.IsOpen) :
    Good page l := by
  cases l with
  | unmount hook =>
    simp only [step] at hstep
    split at hstep
    · cases hstep
      intro hopen
      exact absurd hopen hnot
    · cases hstep
  | opened order =>
    simp only [step] at hstep
    split at hstep
    · split at hstep
      · cases hstep
        rw [openCb_eq] at hnot
        exact absurd ⟨_, _, rfl⟩ hnot
      · cases hstep
    · cases hstep
  | newTaskLog taskId logId =>
    simp only [step] at hstep
    split at hstep
    · cases hstep
      exact absurd ⟨_, _, rfl⟩ hnot
    · cases hstep
  | _ => trivial

end Page

/-- **The browser and the server agree on subscriptions**, whenever the connection is open and the
    queue has been drained and processed, on a trace and on all that drain a state of it, if and only
    if all steps of the trace are good. -/
theorem subscriptions_agree_iff {clientId : Int} {past : List (Page × Event)} {page : Page}
    (htrace : Trace Page.step (.start clientId) past page) :
    ((∀ x ∈ past, x.1.Settles) ∧ page.Settles) ↔ ∀ x ∈ past, Page.Good x.1 x.2 := by
  refine htrace.always_iff_of_invariant
    (I := fun page => page.HandlersMounted ∧ (¬ page.IsOpen → page.Synced)) ?_ ?_ ?_ ?_
  · rintro page l page' ⟨hmounted, hclosed⟩ hsettles hstep
    have hsynced := (Page.Synced.settles_iff_synced hmounted hclosed).mp hsettles
    refine ⟨Page.handlersMounted_step hmounted hstep, fun hnot => ?_⟩
    exact (Page.synced_step hsynced hstep).mpr (Page.good_of_not_open hstep hnot)
  · rintro page l page' ⟨hmounted, hclosed⟩ hsettles hstep
    have hsynced := (Page.Synced.settles_iff_synced hmounted hclosed).mp hsettles
    have hgood := Page.synced_step hsynced hstep
    have hclosed' : ¬ page'.IsOpen → page'.Synced := fun hnot =>
      hgood.mpr (Page.good_of_not_open hstep hnot)
    rw [Page.Synced.settles_iff_synced (Page.handlersMounted_step hmounted hstep) hclosed', hgood]
  · exact ⟨Page.handlersMounted_start clientId, fun _ => Page.synced_start clientId⟩
  · refine Page.settles_of_not_open ?_
    rintro ⟨client, wire, hws⟩
    cases hws

/-- A hook mounts before the connection is open, another one of the same pair afterwards, and the first
    one goes when the connection has been lost. -/
theorem subscriptions_agree_iff_reconnect : ∃ past page, Trace Page.step (.start 5) past page ∧
    past.map Prod.snd = [.opened [("TASK", 1)], .closed, .unmount ⟨("TASK", 1), "a"⟩, .lose,
      .mount ⟨("TASK", 1), "b"⟩, .opened [("TASK", 1)], .mount ⟨("TASK", 1), "a"⟩] ∧
    (∀ x ∈ past, x.1.Settles) ∧ page.Settles := by
  let first : Hook := ⟨("TASK", 1), "a"⟩
  let second : Hook := ⟨("TASK", 1), "b"⟩
  let client : Client := { id := 5, phase := .serving }
  let waiting : Page := (Page.start 5).mount first
  let opened : Page := { waiting with ws := .opened client [] }.openCb [("TASK", 1)]
  let lost : Page := { opened.mount second with ws := .lost }
  let closed : Page := { lost.unmount first with ws := .closed }
  let again : Page := { closed with ws := .opened client [] }.openCb [("TASK", 1)]
  have hmount : Page.step (.mount first) (.start 5) = some waiting := rfl
  have hopened : Page.step (.opened [("TASK", 1)]) waiting = some opened := rfl
  have hunmount : Page.step (.unmount first) lost = some (lost.unmount first) := rfl
  have hagain : Page.step (.opened [("TASK", 1)]) closed = some again := rfl
  have htrace : Trace Page.step (.start 5) _ again :=
    .snoc (.snoc (.snoc (.snoc (.snoc (.snoc (.single hmount) hopened) (l := .mount second) rfl)
      (l := .lose) rfl) hunmount) (l := .closed) rfl) hagain
  refine ⟨_, again, htrace, rfl, (subscriptions_agree_iff htrace).mpr ?_⟩
  simp only [List.forall_mem_cons]
  refine ⟨?again, trivial, ?unmount, trivial, trivial, ?first, trivial, by simp⟩
  case again =>
    change ∀ target ∈ AList.keys _, Finset.Nonempty _
    decide
  case unmount =>
    -- the connection is not open
    rintro ⟨client, wire, hws⟩
    cases hws
  case first =>
    change ∀ target ∈ AList.keys _, Finset.Nonempty _
    decide

/-- If the claim held on all traces, all states would settle. -/
theorem settles_of_agrees {past : List (Page × Event)} {page : Page} {clientId : Int}
    (hagrees : ∀ past page, Trace Page.step (.start clientId) past page → page.Agrees)
    (htrace : Trace Page.step (.start clientId) past page) : page.Settles := by
  rintro page' ⟨past', htrace', -⟩
  exact hagrees _ _ (htrace.append htrace')

theorem handlersMounted_of_trace {past : List (Page × Event)} {page : Page} {clientId : Int}
    (htrace : Trace Page.step (.start clientId) past page) : page.HandlersMounted :=
  htrace.invariant (fun _ _ _ => Page.handlersMounted_step) (Page.handlersMounted_start clientId)

/-- Two hooks of one pair, and the first one goes: the server takes the pair away from both. -/
theorem shared_pair_unsubscribed :
    ¬ ∀ past page, Trace Page.step (.start 5) past page → page.Agrees := by
  intro hagrees
  let opened : Page := { clientId := 5, ws := .opened { id := 5, phase := .serving } [] }
  let first : Hook := ⟨("TASK", 1), "a"⟩
  let second : Hook := ⟨("TASK", 1), "b"⟩
  have htrace : ∃ past, Trace Page.step (.start 5) past
      (((opened.mount first).mount second).unmount first) :=
    ⟨_, .snoc (.snoc (.snoc (.single (l := .opened []) rfl) (l := .mount first) rfl)
      (l := .mount second) rfl) (l := .unmount first) rfl⟩
  obtain ⟨past, htrace⟩ := htrace
  have hsettles := (Page.settles_iff (handlersMounted_of_trace htrace) ⟨_, _, rfl⟩).mp
    (settles_of_agrees hagrees htrace) ("TASK", 1)
  have hbound : (((opened.mount first).mount second).unmount first).Bound ("TASK", 1) := by
    simp [Page.bound_unmount, Page.handlers_mount, first, second, Finset.erase_insert_of_ne]
  have hpending := hsettles.mpr hbound
  simp [first] at hpending

/-- The only hook of a pair goes before the connection opens: the server holds the pair for nobody. -/
theorem unbound_pair_subscribed : ∃ past page client, Trace Page.step (.start 5) past page ∧
    page.ws = .opened client [] ∧ page.messageQueue = [] ∧ page.mounted = [] ∧
    ("TASK", 1) ∈ client.subscribed := by
  let hook : Hook := ⟨("TASK", 1), "a"⟩
  let closed : Page := ((Page.start 5).mount hook).unmount hook
  let client : Client := { id := 5, phase := .serving }
  let opened : Page := { closed with ws := .opened client [] }.openCb [("TASK", 1)]
  have htrace : ∃ past, Trace Page.step (.start 5) past opened :=
    ⟨_, .snoc (.snoc (.single (l := .mount hook) rfl) (l := .unmount hook) rfl)
      (l := .opened [("TASK", 1)]) rfl⟩
  obtain ⟨past, htrace⟩ := htrace
  obtain ⟨page, client', hdrains, hws, hqueue⟩ :=
    Page.exists_drained (show opened.ws = .opened client [] from rfl)
  have hview := hdrains.sameView
  have hpending : ("TASK", 1) ∈ page.pending := by
    rw [hview.pending ⟨client, [], rfl⟩]
    exact (Page.mem_pending_opened rfl rfl).mpr (.inr (by simp))
  obtain ⟨past', htrace', -⟩ := hdrains
  refine ⟨_, page, client', htrace.append htrace', hws, hqueue, ?_, ?_⟩
  · rw [hview.mounted]
    rfl
  · simpa [Page.pending, hws, hqueue] using hpending

end Gonitor.Web.Socket
