import Gonitor.Framework.LabelledTraces
import Gonitor.Framework.Timers

/-!
# The Connection of a Page

`Socket.js`: a page keeps one connection to the server, opens it again when it has been lost, and sends
its messages through a queue that is looked at ten times a second while the connection is open.
Everything is done in callbacks of timers and of the sockets, in any order.

What a callback of the options sends or destroys is an event of its own here: it comes after the rest of
the handler, which does not look at the queue.  `onError` only calls a callback.

## Main Results

- `one_connection`: there are never two sockets, or two attempts, or two heartbeats.
- `messages_in_order`: what has been sent and what is waiting is what has been pushed, in order; and
  while the connection is open, nothing that is waiting is forgotten.
- `gives_up_iff`: how often the page tries to connect again.
-/

namespace Gonitor.Web.Connection

open EventLoop LabelledTraces

variable {α : Type}

/-! ## State -/

/-- `readyState` -/
inductive ReadyState
  | connecting
  | opened
  | closing
  | closed
  deriving DecidableEq

/-- What a timer calls. -/
inductive Callback
  /-- `reconnectTimer` -/
  | reconnect
  /-- `heartTimeOut` -/
  | heart
  /-- `ServerHeartTimeOut` -/
  | serverHeart
  | fireSend
  deriving DecidableEq

/-- `Socket`, with all the sockets that it has made; `ws` is the last one.  The messages that have been
    pushed and sent (on which socket) are recorded. -/
structure Socket (α : Type) where
  sockets : Nat → ReadyState
  ws : Nat
  timers : Timers Callback := .empty
  reconnectTimer : Option Nat := none
  heartTimeOut : Option Nat := none
  serverHeartTimeOut : Option Nat := none
  /-- `options.reconnectCount` -/
  reconnectCount : Int := 5
  isRestory : Bool := false
  messageQueue : List α := []
  pushed : List α := []
  sent : List (Nat × α) := []

/-- What happens. -/
inductive Event (α : Type)
  | send (data : α)
  | destroy
  | opened (socket : Nat)
  /-- A message, and whether its code is 200. -/
  | message (socket : Nat) (ok : Bool)
  | closing (socket : Nat)
  | closed (socket : Nat)
  | timer (id : Nat)

namespace Socket

/-! ## Methods -/

def setReady (s : Socket α) (i : Nat) (state : ReadyState) : Socket α :=
  { s with sockets := Function.update s.sockets i state }

/-- `Heart.reset` -/
def reset (s : Socket α) : Socket α :=
  { s with timers := (s.timers.clear s.heartTimeOut).clear s.serverHeartTimeOut }

/-- `Heart.start` -/
def start (s : Socket α) : Socket α :=
  { s with timers := s.timers.set .heart, heartTimeOut := some s.timers.next }

def send (s : Socket α) (data : α) : Socket α :=
  { s with messageQueue := s.messageQueue ++ [data], pushed := s.pushed ++ [data] }

/-- `create`, but for the handlers. -/
def create (s : Socket α) : Socket α :=
  { s with sockets := Function.update s.sockets (s.ws + 1) .connecting, ws := s.ws + 1 }

/-- The loop of `fireSend` over the queue. -/
def fireSendFrom (s : Socket α) : List α → Socket α
  | [] => { s with messageQueue := [], timers := s.timers.set .fireSend }
  | data :: rest =>
    -- after the connection is lost the loop ends; `onOpen` starts it again
    if s.sockets s.ws ≠ .opened then { s with messageQueue := data :: rest }
    else { s with sent := s.sent ++ [(s.ws, data)] }.fireSendFrom rest

def fireSend (s : Socket α) : Socket α := s.fireSendFrom s.messageQueue

def onReconnect (s : Socket α) : Socket α :=
  if s.reconnectCount > 0 ∨ s.reconnectCount = -1 then
    { s with timers := s.timers.set .reconnect, reconnectTimer := some s.timers.next }
  else { s with timers := s.timers.clear s.reconnectTimer, reconnectCount := 10 }

def onOpen (s : Socket α) : Socket α :=
  let s := { s with timers := s.timers.clear s.reconnectTimer, reconnectCount := 10 }
  let s := s.reset.start
  { s with timers := s.timers.set .fireSend }

def onClose (s : Socket α) : Socket α :=
  if s.isRestory then s.reset else s.reset.onReconnect

def onMessage (s : Socket α) (ok : Bool) : Socket α :=
  if ok then s.reset.start else s

/-- `ws.close` -/
def close (s : Socket α) : Socket α :=
  if s.sockets s.ws = .connecting ∨ s.sockets s.ws = .opened then s.setReady s.ws .closing else s

def destroy (s : Socket α) : Socket α :=
  let s := s.reset
  { s with timers := s.timers.clear s.reconnectTimer, isRestory := true }.close

/-- A timer calls. -/
def call (heartMsg : α) (s : Socket α) : Callback → Socket α
  | .reconnect =>
    let s := s.create
    if s.reconnectCount = -1 then s else { s with reconnectCount := s.reconnectCount - 1 }
  | .heart =>
    let s := s.send heartMsg
    { s with timers := s.timers.set .serverHeart, serverHeartTimeOut := some s.timers.next }
  | .serverHeart => (s.send heartMsg).reset.start
  | .fireSend => s.fireSend

/-- The constructor; the options may say how often to connect again. -/
def init (reconnectCount : Int) : Socket α where
  sockets := Function.update (fun _ => .closed) 0 .connecting
  ws := 0
  reconnectCount := reconnectCount

/-- One step. -/
def step (heartMsg : α) : Event α → Socket α → Option (Socket α)
  | .send data, s => some (s.send data)
  | .destroy, s => some s.destroy
  | .opened i, s => if s.sockets i = .connecting then some (s.setReady i .opened).onOpen else none
  | .message i ok, s => if s.sockets i = .opened then some (s.onMessage ok) else none
  | .closing i, s =>
    if s.sockets i = .connecting ∨ s.sockets i = .opened then some (s.setReady i .closing) else none
  | .closed i, s => if s.sockets i = .closed then none else some (s.setReady i .closed).onClose
  | .timer id, s =>
    (s.timers.callback id).map fun k => { s with timers := s.timers.without id }.call heartMsg k

end Socket

/-! ## Timers -/

/-- No heartbeat is pending. -/
structure Beatless (t : Timers Callback) : Prop where
  heart : Idle (· = .heart) t
  serverHeart : Idle (· = .serverHeart) t

/-- The three variables hold what they are named after, and only one heartbeat is pending. -/
structure TimersSound (t : Timers Callback) (reconnectTimer heartTimeOut serverHeartTimeOut : Option Nat) :
    Prop where
  reconnects : Holds (· = .reconnect) reconnectTimer t
  hearts : Holds (· = .heart) heartTimeOut t
  serverHearts : Holds (· = .serverHeart) serverHeartTimeOut t
  oneBeat : Idle (· = .heart) t ∨ Idle (· = .serverHeart) t

section TimerRules

variable {t : Timers Callback} {r h sh slot : Option Nat} {id : Nat}

theorem TimersSound.empty : TimersSound .empty none none none :=
  ⟨.empty, .empty, .empty, .inl fun _ hx => nomatch hx⟩

theorem TimersSound.clear (ht : TimersSound t r h sh) : TimersSound (t.clear slot) r h sh :=
  ⟨ht.reconnects.clear_other, ht.hearts.clear_other, ht.serverHearts.clear_other,
    ht.oneBeat.imp Idle.clear Idle.clear⟩

theorem TimersSound.fire (ht : TimersSound t r h sh) : TimersSound (t.without id) r h sh :=
  (ht.clear : TimersSound (t.clear (some id)) r h sh)

/-- `fireSend` timers are not held. -/
theorem TimersSound.setFireSend (ht : TimersSound t r h sh) : TimersSound (t.set .fireSend) r h sh :=
  ⟨ht.reconnects.set_other nofun, ht.hearts.set_other nofun, ht.serverHearts.set_other nofun,
    ht.oneBeat.imp (·.set_other nofun) (·.set_other nofun)⟩

theorem TimersSound.setReconnect (ht : TimersSound t r h sh) (hidle : Idle (· = .reconnect) t) :
    TimersSound (t.set .reconnect) (some t.next) h sh :=
  ⟨hidle.set rfl, ht.hearts.set_other nofun, ht.serverHearts.set_other nofun,
    ht.oneBeat.imp (·.set_other nofun) (·.set_other nofun)⟩

theorem TimersSound.setHeart (ht : TimersSound t r h sh) (hbeat : Beatless t) :
    TimersSound (t.set .heart) r (some t.next) sh :=
  ⟨ht.reconnects.set_other nofun, hbeat.heart.set rfl, ht.serverHearts.set_other nofun,
    .inr (hbeat.serverHeart.set_other nofun)⟩

theorem TimersSound.setServerHeart (ht : TimersSound t r h sh) (hbeat : Beatless t) :
    TimersSound (t.set .serverHeart) r h (some t.next) :=
  ⟨ht.reconnects.set_other nofun, ht.hearts.set_other nofun, hbeat.serverHeart.set rfl,
    .inl (hbeat.heart.set_other nofun)⟩

theorem Beatless.clear (hbeat : Beatless t) : Beatless (t.clear slot) :=
  ⟨hbeat.heart.clear, hbeat.serverHeart.clear⟩

theorem Beatless.fire (hbeat : Beatless t) : Beatless (t.without id) :=
  (hbeat.clear : Beatless (t.clear (some id)))

/-- A heartbeat that fires was the only one. -/
theorem TimersSound.fire_heart (ht : TimersSound t r h sh) (hmem : (id, .heart) ∈ t.pending) :
    Beatless (t.without id) := by
  refine ⟨ht.hearts.fire hmem rfl, Idle.fire (ht.oneBeat.resolve_left fun hidle => ?_)⟩
  exact hidle _ hmem rfl

/-- After `reset` no heartbeat is pending. -/
theorem TimersSound.beatless (ht : TimersSound t r h sh) : Beatless ((t.clear h).clear sh) :=
  ⟨ht.hearts.clear.clear, ht.serverHearts.clear_other.clear⟩

/-- `reset` leaves the loops of `fireSend`. -/
theorem TimersSound.fireSend_mem (ht : TimersSound t r h sh) (hmem : (id, .fireSend) ∈ t.pending) :
    (id, .fireSend) ∈ ((t.clear h).clear sh).pending := by
  have hheart := ht.hearts.mem_clear hmem nofun
  exact ht.serverHearts.clear_other.mem_clear hheart nofun

end TimerRules

/-! ## The invariant -/

namespace Socket

variable {s s' : Socket α} {i : Nat} {heartMsg : α}

/-- The current socket has been opened, and its end has not been noticed. -/
def IsUp (s : Socket α) : Prop := s.sockets s.ws = .opened ∨ s.sockets s.ws = .closing

/-- What holds between the events. -/
structure Sound (s : Socket α) : Prop where
  timers : TimersSound s.timers s.reconnectTimer s.heartTimeOut s.serverHeartTimeOut
  /-- Other sockets than the last one are closed. -/
  current : ∀ i, s.sockets i ≠ .closed → i = s.ws
  /-- While there is a socket, no other one is to come. -/
  connected : s.sockets s.ws ≠ .closed → Idle (· = .reconnect) s.timers
  beating : s.IsUp ∨ Beatless s.timers
  ticking : s.sockets s.ws = .opened → ∃ id, (id, .fireSend) ∈ s.timers.pending
  queue : s.pushed = s.sent.map Prod.snd ++ s.messageQueue
  restory : s.isRestory = true → Idle (· = .reconnect) s.timers ∧
    (s.sockets s.ws = .closing ∨ s.sockets s.ws = .closed)
  counting : Idle (· = .reconnect) s.timers ∨ s.reconnectCount > 0 ∨ s.reconnectCount = -1

theorem init_sound (n : Int) : (init n : Socket α).Sound where
  timers := .empty
  current i hi := by
    by_contra hne
    have hne' : i ≠ 0 := hne
    simp [init, Function.update_of_ne hne'] at hi
  connected _ := fun _ hx => nomatch hx
  beating := .inr ⟨fun _ hx => (nomatch hx), fun _ hx => nomatch hx⟩
  ticking h := by simp [init] at h
  queue := rfl
  restory h := by simp [init] at h
  counting := .inl fun _ hx => nomatch hx

theorem closing_or_closed {state : ReadyState} (hconnecting : state ≠ .connecting)
    (hopened : state ≠ .opened) : state = .closing ∨ state = .closed := by
  cases state <;> simp_all

theorem Sound.send (h : s.Sound) (data : α) : (s.send data).Sound :=
  { h with queue := by simp [Socket.send, h.queue] }

/-- `reset` and then `start`, on a socket that is up. -/
theorem Sound.restart (h : s.Sound) (hup : s.IsUp) : s.reset.start.Sound :=
  { h with
    timers := h.timers.clear.clear.setHeart h.timers.beatless
    connected := fun hne => (h.connected hne).clear.clear.set_other nofun
    beating := .inl hup
    ticking := fun hopened => by
      obtain ⟨id, hid⟩ := h.ticking hopened
      exact ⟨id, Timers.mem_set.mpr (.inr (h.timers.fireSend_mem hid))⟩
    restory := fun hrestory => (h.restory hrestory).imp_left fun hidle =>
      hidle.clear.clear.set_other nofun
    counting := h.counting.imp_left fun hidle => hidle.clear.clear.set_other nofun }

/-- Only the state of the current socket changes. -/
theorem Sound.current_update (h : s.Sound) (state : ReadyState) (j : Nat)
    (hj : Function.update s.sockets s.ws state j ≠ .closed) : j = s.ws := by
  by_contra hne
  rw [Function.update_of_ne hne] at hj
  exact hne (h.current j hj)

theorem Sound.opened (h : s.Sound) (hi : s.sockets i = .connecting) :
    (s.setReady i .opened).onOpen.Sound := by
  obtain rfl := h.current i (by simp [hi])
  have hidle : Idle (· = .reconnect) (((s.timers.clear s.reconnectTimer).clear s.heartTimeOut).clear
      s.serverHeartTimeOut) := (h.connected (by simp [hi])).clear.clear.clear
  exact { h with
    timers := (h.timers.clear.clear.clear.setHeart h.timers.clear.beatless).setFireSend
    current := h.current_update .opened
    connected := fun _ => (hidle.set_other (k := .heart) nofun).set_other (k := .fireSend) nofun
    beating := .inl (.inl (Function.update_self ..))
    ticking := fun _ => ⟨_, Timers.mem_set.mpr (.inl rfl)⟩
    restory := fun hrestory => absurd (h.restory hrestory).2 (by simp [hi])
    counting := .inr (.inl (show (10 : Int) > 0 by decide)) }

theorem Sound.message (h : s.Sound) (hi : s.sockets i = .opened) (ok : Bool) :
    (s.onMessage ok).Sound := by
  obtain rfl := h.current i (by simp [hi])
  cases ok with
  | false => exact h
  | true => exact h.restart (.inl hi)

theorem Sound.closing (h : s.Sound) (hi : s.sockets i = .connecting ∨ s.sockets i = .opened) :
    (s.setReady i .closing).Sound := by
  have hne : s.sockets i ≠ .closed := by rcases hi with hi | hi <;> simp [hi]
  obtain rfl := h.current i hne
  have hclosing : (s.setReady s.ws .closing).sockets s.ws = .closing := Function.update_self ..
  exact { h with
    current := h.current_update .closing
    connected := fun _ => h.connected hne
    beating := .inl (.inr hclosing)
    ticking := fun hopened => absurd (hclosing.symm.trans hopened) nofun
    restory := fun hrestory => ⟨(h.restory hrestory).1, .inl hclosing⟩ }

/-- The socket has been closed, and `reset` has cleared the heartbeats. -/
theorem Sound.closed_reset (h : s.Sound) (hi : s.sockets i ≠ .closed) :
    (s.setReady i .closed).reset.Sound ∧ (s.setReady i .closed).reset.sockets s.ws = .closed ∧
      Idle (· = .reconnect) (s.setReady i .closed).reset.timers := by
  obtain rfl := h.current i hi
  have hclosed : (s.setReady s.ws .closed).reset.sockets s.ws = .closed := Function.update_self ..
  have hidle : Idle (· = .reconnect) ((s.timers.clear s.heartTimeOut).clear s.serverHeartTimeOut) :=
    (h.connected hi).clear.clear
  refine ⟨{ h with
    timers := h.timers.clear.clear
    current := h.current_update .closed
    connected := fun _ => hidle
    beating := .inr h.timers.beatless
    ticking := fun hopened => absurd (hclosed.symm.trans hopened) nofun
    restory := fun _ => ⟨hidle, .inr hclosed⟩
    counting := .inl hidle }, hclosed, hidle⟩

theorem Sound.closed (h : s.Sound) (hi : s.sockets i ≠ .closed) :
    (s.setReady i .closed).onClose.Sound := by
  obtain ⟨hreset, hclosed, hidle⟩ := h.closed_reset hi
  unfold onClose
  split
  · exact hreset
  · rename_i hrestory
    have hup : ¬ (s.setReady i .closed).reset.IsUp := by
      rintro (hup | hup) <;> exact absurd (hclosed.symm.trans hup) nofun
    have hbeat := hreset.beating.resolve_left hup
    unfold onReconnect
    split
    · rename_i hcount
      exact { hreset with
        timers := hreset.timers.setReconnect hidle
        connected := fun hne => absurd hclosed hne
        beating := .inr ⟨hbeat.heart.set_other nofun, hbeat.serverHeart.set_other nofun⟩
        ticking := fun hopened => absurd (hclosed.symm.trans hopened) nofun
        restory := fun h => absurd h hrestory
        counting := .inr hcount }
    · exact { hreset with
        timers := hreset.timers.clear
        connected := fun _ => hidle.clear
        beating := .inr hbeat.clear
        ticking := fun hopened => absurd (hclosed.symm.trans hopened) nofun
        restory := fun h => absurd h hrestory
        counting := .inl hidle.clear }

theorem Sound.destroy (h : s.Sound) : s.destroy.Sound := by
  have hidle : Idle (· = .reconnect) (((s.timers.clear s.heartTimeOut).clear s.serverHeartTimeOut).clear
      s.reconnectTimer) := h.timers.clear.clear.reconnects.clear
  have hbeat : Beatless (((s.timers.clear s.heartTimeOut).clear s.serverHeartTimeOut).clear
      s.reconnectTimer) := h.timers.beatless.clear
  have htimers : TimersSound ((s.timers.clear s.heartTimeOut).clear s.serverHeartTimeOut)
      s.reconnectTimer s.heartTimeOut s.serverHeartTimeOut := h.timers.clear.clear
  unfold Socket.destroy close
  dsimp only
  split
  · have hclosing : Function.update s.sockets s.ws .closing s.ws = .closing := Function.update_self ..
    exact { h with
      timers := htimers.clear
      current := h.current_update .closing
      connected := fun _ => hidle
      beating := .inr hbeat
      ticking := fun hopened => absurd (hclosing.symm.trans hopened) nofun
      restory := fun _ => ⟨hidle, .inl hclosing⟩
      counting := .inl hidle }
  · rename_i hne
    obtain ⟨hconnecting, hopened⟩ := not_or.mp hne
    exact { h with
      timers := htimers.clear
      connected := fun _ => hidle
      beating := .inr hbeat
      ticking := fun h => absurd h hopened
      restory := fun _ => ⟨hidle, closing_or_closed hconnecting hopened⟩
      counting := .inl hidle }

/-! ### Timers that fire -/

/-- A timer that fires is gone; a loop of `fireSend` goes on in its callback. -/
theorem Sound.fired (h : s.Sound) {id : Nat} {k : Callback} (hmem : (id, k) ∈ s.timers.pending)
    (hk : k ≠ .fireSend) : Sound { s with timers := s.timers.without id } :=
  { h with
    timers := h.timers.fire
    connected := fun hne => (h.connected hne).fire
    beating := h.beating.imp_right Beatless.fire
    ticking := fun hopened => by
      obtain ⟨id', hid'⟩ := h.ticking hopened
      refine ⟨id', Timers.mem_without.mpr ⟨hid', ?_⟩⟩
      rintro rfl
      exact hk (congrArg Prod.snd (Timers.eq_of_mem hmem hid' rfl))
    restory := fun hrestory => (h.restory hrestory).imp_left Idle.fire
    counting := h.counting.imp_left Idle.fire }

/-- A heartbeat is pending on a socket that is up only. -/
theorem Sound.isUp_of_beat (h : s.Sound) {id : Nat} {k : Callback} (hmem : (id, k) ∈ s.timers.pending)
    (hk : k = .heart ∨ k = .serverHeart) : s.IsUp := by
  refine h.beating.resolve_right fun hbeat => ?_
  rcases hk with rfl | rfl
  · exact hbeat.heart _ hmem rfl
  · exact hbeat.serverHeart _ hmem rfl

theorem Sound.heart (h : s.Sound) {id : Nat} (hmem : (id, .heart) ∈ s.timers.pending) :
    ({ s with timers := s.timers.without id }.call heartMsg .heart).Sound := by
  have hfired := (h.fired hmem nofun).send heartMsg
  exact { hfired with
    timers := hfired.timers.setServerHeart (h.timers.fire_heart hmem)
    connected := fun hne => (hfired.connected hne).set_other nofun
    beating := .inl (h.isUp_of_beat hmem (.inl rfl))
    ticking := fun hopened => by
      obtain ⟨id', hid'⟩ := hfired.ticking hopened
      exact ⟨id', Timers.mem_set.mpr (.inr hid')⟩
    restory := fun hrestory => (hfired.restory hrestory).imp_left fun hidle => hidle.set_other nofun
    counting := hfired.counting.imp_left fun hidle => hidle.set_other nofun }

theorem Sound.serverHeart (h : s.Sound) {id : Nat} (hmem : (id, .serverHeart) ∈ s.timers.pending) :
    ({ s with timers := s.timers.without id }.call heartMsg .serverHeart).Sound :=
  ((h.fired hmem nofun).send heartMsg).restart (h.isUp_of_beat hmem (.inr rfl))

/-- An attempt is pending while all sockets are closed. -/
theorem Sound.closed_of_reconnect (h : s.Sound) {id : Nat}
    (hmem : (id, .reconnect) ∈ s.timers.pending) : s.sockets s.ws = .closed := by
  by_contra hne
  exact h.connected hne _ hmem rfl

theorem Sound.reconnect (h : s.Sound) {id : Nat} (hmem : (id, .reconnect) ∈ s.timers.pending) :
    ({ s with timers := s.timers.without id }.call heartMsg .reconnect).Sound := by
  have hclosed := h.closed_of_reconnect hmem
  have hidle := h.timers.reconnects.fire hmem rfl
  have hup : ¬ s.IsUp := by
    rintro (hup | hup) <;> exact absurd (hclosed.symm.trans hup) nofun
  have hcreated : Sound { s with timers := s.timers.without id }.create := { h with
    timers := h.timers.fire
    current := fun i hi => by
      by_contra hne
      have hold : Function.update s.sockets (s.ws + 1) .connecting i ≠ .closed := hi
      have hne' : i ≠ s.ws + 1 := hne
      rw [Function.update_of_ne hne'] at hold
      exact hold (h.current i hold ▸ hclosed)
    connected := fun _ => hidle
    beating := .inr (h.beating.resolve_left hup).fire
    ticking := fun hopened => by simp [create] at hopened
    restory := fun hrestory => absurd rfl ((h.restory hrestory).1 _ hmem)
    counting := .inl hidle }
  simp only [call]
  split
  · exact hcreated
  · exact { hcreated with counting := .inl hidle }

/-- What `fireSend` does: nothing, or it sends all that is waiting. -/
theorem fireSendFrom_eq (s : Socket α) (queue : List α) : s.fireSendFrom queue =
    if queue = [] ∨ s.sockets s.ws = .opened then
      { s with
        sent := s.sent ++ queue.map (Prod.mk s.ws)
        messageQueue := []
        timers := s.timers.set .fireSend }
    else { s with messageQueue := queue } := by
  induction queue generalizing s with
  | nil => simp [fireSendFrom]
  | cons data rest ih =>
    by_cases hopened : s.sockets s.ws = .opened
    · simp [fireSendFrom, hopened, ih]
    · simp [fireSendFrom, hopened]

theorem Sound.fireSend (h : s.Sound) (id : Nat) :
    ({ s with timers := s.timers.without id }.call heartMsg .fireSend).Sound := by
  simp only [call, Socket.fireSend, fireSendFrom_eq]
  split
  · exact { h with
      timers := h.timers.fire.setFireSend
      connected := fun hne => (h.connected hne).fire.set_other nofun
      beating := h.beating.imp_right fun hbeat =>
        ⟨hbeat.fire.heart.set_other nofun, hbeat.fire.serverHeart.set_other nofun⟩
      ticking := fun _ => ⟨_, Timers.mem_set.mpr (.inl rfl)⟩
      queue := by simp [h.queue, Function.comp_def]
      restory := fun hrestory => (h.restory hrestory).imp_left fun hidle => hidle.fire.set_other nofun
      counting := h.counting.imp_left fun hidle => hidle.fire.set_other nofun }
  · rename_i hne
    exact { h with
      timers := h.timers.fire
      connected := fun hne => (h.connected hne).fire
      beating := h.beating.imp_right Beatless.fire
      ticking := fun hopened => absurd (.inr hopened) hne
      restory := fun hrestory => (h.restory hrestory).imp_left Idle.fire
      counting := h.counting.imp_left Idle.fire }

/-- **Every step keeps it.** -/
theorem Sound.step {e : Event α} (h : s.Sound) (hstep : step heartMsg e s = some s') : s'.Sound := by
  cases e with
  | send data =>
    cases hstep
    exact h.send data
  | destroy =>
    cases hstep
    exact h.destroy
  | opened i =>
    obtain ⟨hi, heq⟩ := Option.ite_none_right_eq_some.mp hstep
    cases heq
    exact h.opened hi
  | message i ok =>
    obtain ⟨hi, heq⟩ := Option.ite_none_right_eq_some.mp hstep
    cases heq
    exact h.message hi ok
  | closing i =>
    obtain ⟨hi, heq⟩ := Option.ite_none_right_eq_some.mp hstep
    cases heq
    exact h.closing hi
  | closed i =>
    obtain ⟨hi, heq⟩ := Option.ite_none_left_eq_some.mp hstep
    cases heq
    exact h.closed hi
  | timer id =>
    obtain ⟨k, hk, rfl⟩ := Option.map_eq_some_iff.mp hstep
    have hmem := Timers.callback_eq_some.mp hk
    cases k with
    | reconnect => exact h.reconnect hmem
    | heart => exact h.heart hmem
    | serverHeart => exact h.serverHeart hmem
    | fireSend => exact h.fireSend id

theorem sound_of_trace {n : Int} {past : List (Socket α × Event α)}
    (h : Trace (step heartMsg) (init n) past s) : s.Sound :=
  h.invariant (fun _ _ _ hs hstep => hs.step hstep) (init_sound n)

/-- A timer of the heartbeat. -/
def IsBeat (k : Callback) : Prop := k = .heart ∨ k = .serverHeart

/-- Only one heartbeat is pending. -/
theorem Sound.beat_unique (h : s.Sound) {x y : Nat × Callback} (hx : x ∈ s.timers.pending)
    (hy : y ∈ s.timers.pending) (hkx : IsBeat x.2) (hky : IsBeat y.2) : x = y := by
  rcases hkx with hkx | hkx <;> rcases hky with hky | hky
  · exact h.timers.hearts.eq_of_mem hx hy hkx hky
  · exact (h.timers.oneBeat.elim (fun hidle => hidle x hx hkx) fun hidle => hidle y hy hky).elim
  · exact (h.timers.oneBeat.elim (fun hidle => hidle y hy hky) fun hidle => hidle x hx hkx).elim
  · exact h.timers.serverHearts.eq_of_mem hx hy hkx hky

/-- **One connection**: at any time the page has one socket that is not closed, or one attempt to connect
    is pending, or neither; and one heartbeat is pending at most, for a socket that has been opened. -/
theorem one_connection {n : Int} {past : List (Socket α × Event α)}
    (h : Trace (step heartMsg) (init n) past s) :
    (∀ i j, s.sockets i ≠ .closed → s.sockets j ≠ .closed → i = j) ∧
    (∀ x ∈ s.timers.pending, x.2 = .reconnect → (∀ i, s.sockets i = .closed) ∧
      ∀ y ∈ s.timers.pending, y.2 = .reconnect → x = y) ∧
    (∀ x ∈ s.timers.pending, IsBeat x.2 → s.IsUp ∧ ∀ y ∈ s.timers.pending, IsBeat y.2 → x = y) := by
  have hs := sound_of_trace h
  refine ⟨fun i j hi hj => (hs.current i hi).trans (hs.current j hj).symm, ?_, ?_⟩
  · intro x hx hkx
    refine ⟨fun i => ?_, fun y hy hky => hs.timers.reconnects.eq_of_mem hx hy hkx hky⟩
    by_contra hi
    have hcurrent := hs.current i hi
    exact hs.connected (hcurrent ▸ hi) x hx hkx
  · intro x hx hkx
    exact ⟨hs.isUp_of_beat hx hkx, fun y hy hky => hs.beat_unique hx hy hkx hky⟩

/-- A connection is opened, a message sent, and the connection lost. -/
def sentAndLost : List (Event Nat) := [.opened 0, .send 7, .timer 1, .closed 0]

/-- Then the page tries again, with one socket. -/
theorem one_connection_again : ∃ past s, Trace (step 0) (init 5) past s ∧ s.sockets 1 = .connecting ∧
    ∀ i j, s.sockets i ≠ .closed → s.sockets j ≠ .closed → i = j := by
  have hrun : ∃ past s, take (step 0) (sentAndLost ++ [.timer 3]) [] (init 5) = some (past, s) ∧
      s.sockets 1 = .connecting := ⟨_, _, rfl, rfl⟩
  obtain ⟨past, s, htake, hws⟩ := hrun
  have htrace := Trace.nil.of_take htake
  exact ⟨past, s, htrace, hws, (one_connection htrace).1⟩

/-- **Messages in order**: what has been sent, over all connections, and what is waiting are what has been
    pushed, in order and each once; and while the connection is open, a timer is pending that sends
    all that is waiting over it. -/
theorem messages_in_order {n : Int} {past : List (Socket α × Event α)}
    (h : Trace (step heartMsg) (init n) past s) :
    s.pushed = s.sent.map Prod.snd ++ s.messageQueue ∧
    (s.sockets s.ws = .opened → ∃ id s', step heartMsg (.timer id) s = some s' ∧
      s'.messageQueue = [] ∧ s'.sent = s.sent ++ s.messageQueue.map (Prod.mk s.ws) ∧
      s'.sockets s'.ws = .opened) := by
  have hs := sound_of_trace h
  refine ⟨hs.queue, fun hopened => ?_⟩
  obtain ⟨id, hid⟩ := hs.ticking hopened
  refine ⟨id, _, Option.map_eq_some_iff.mpr ⟨_, Timers.callback_eq_some.mpr hid, rfl⟩, ?_⟩
  simp [call, fireSend, fireSendFrom_eq, hopened]

/-- One message has been sent, another one has waited for the next connection, and goes over it. -/
theorem messages_in_order_waiting : ∃ past s, Trace (step 0) (init 5) past s ∧ s.sent = [(0, 7)] ∧
    s.messageQueue = [8] ∧ s.pushed = s.sent.map Prod.snd ++ s.messageQueue ∧
    ∃ id s', step 0 (.timer id) s = some s' ∧ s'.messageQueue = [] ∧ s'.sent = [(0, 7), (1, 8)] := by
  have hrun : ∃ past s, take (step 0) (sentAndLost ++ [.send 8, .timer 3, .opened 1]) [] (init 5) =
      some (past, s) ∧ s.sent = [(0, 7)] ∧ s.messageQueue = [8] ∧ s.ws = 1 ∧ s.sockets 1 = .opened :=
    ⟨_, _, rfl, rfl, rfl, rfl, rfl⟩
  obtain ⟨past, s, htake, hsent, hqueue, hws, hopened⟩ := hrun
  have htrace := Trace.nil.of_take htake
  obtain ⟨hpushed, hsends⟩ := messages_in_order htrace
  obtain ⟨id, s', hstep, hempty, hsent', -⟩ := hsends (hws.symm ▸ hopened)
  refine ⟨past, s, htrace, hsent, hqueue, hpushed, id, s', hstep, hempty, ?_⟩
  simp [hsent', hsent, hqueue, hws]

/-! ## How often the page tries -/

/-- No socket is left, and no attempt is pending. -/
def GivenUp (s : Socket α) : Prop :=
  s.sockets s.ws = .closed ∧ Idle (· = .reconnect) s.timers

/-- Nothing has changed about the attempts to connect. -/
structure Same (s s' : Socket α) : Prop where
  ws : s'.ws = s.ws
  reconnectCount : s'.reconnectCount = s.reconnectCount
  isRestory : s'.isRestory = s.isRestory
  closed : s'.sockets s'.ws = .closed ↔ s.sockets s.ws = .closed
  idle : Idle (· = .reconnect) s'.timers ↔ Idle (· = .reconnect) s.timers

/-- Another timer that is set or has fired makes no difference. -/
theorem idle_set_iff {t : Timers Callback} {k : Callback} (hk : k ≠ .reconnect) :
    Idle (· = .reconnect) (t.set k) ↔ Idle (· = .reconnect) t :=
  ⟨fun h x hx => h x (Timers.mem_set.mpr (.inr hx)), fun h => h.set_other hk⟩

theorem idle_without_iff {t : Timers Callback} {id : Nat} {k : Callback} (hmem : (id, k) ∈ t.pending)
    (hk : k ≠ .reconnect) : Idle (· = .reconnect) (t.without id) ↔ Idle (· = .reconnect) t := by
  refine ⟨fun h x hx hkx => h x (Timers.mem_without.mpr ⟨hx, ?_⟩) hkx, Idle.fire⟩
  intro heq
  have hsame := Timers.eq_of_mem (y := (id, k)) hx hmem heq
  rw [hsame] at hkx
  exact hk hkx

/-- On a socket that is not closed, no attempt is pending before or after. -/
theorem Same.of_live (h : s.Sound) (h' : s'.Sound) (hws : s'.ws = s.ws)
    (hcount : s'.reconnectCount = s.reconnectCount) (hrestory : s'.isRestory = s.isRestory)
    (hlive : s.sockets s.ws ≠ .closed) (hlive' : s'.sockets s'.ws ≠ .closed) : Same s s' where
  ws := hws
  reconnectCount := hcount
  isRestory := hrestory
  closed := iff_of_false hlive' hlive
  idle := iff_of_true (h'.connected hlive') (h.connected hlive)

theorem not_closed_of_isUp (h : s.IsUp) : s.sockets s.ws ≠ .closed := by
  rcases h with h | h <;> simp [h]

/-- A socket is closed. -/
def closesSocket : Event α → Bool
  | .closed _ => true
  | _ => false

/-- **What a step can change** about the attempts to connect. -/
theorem same_of_step {e : Event α} (h : s.Sound) (hstep : step heartMsg e s = some s') :
    (Same s s' ∧ closesSocket e = false) ∨ (∃ i, e = .opened i) ∨ e = .destroy ∨
    (∃ i, e = .closed i ∧ s.sockets i ≠ .closed ∧ s' = (s.setReady i .closed).onClose) ∨
    (∃ id, e = .timer id ∧ (id, .reconnect) ∈ s.timers.pending ∧
      s' = { s with timers := s.timers.without id }.call heartMsg .reconnect) := by
  have h' := h.step hstep
  cases e with
  | send data =>
    cases hstep
    exact .inl ⟨⟨rfl, rfl, rfl, .rfl, .rfl⟩, rfl⟩
  | destroy => exact .inr (.inr (.inl rfl))
  | opened i => exact .inr (.inl ⟨i, rfl⟩)
  | message i ok =>
    obtain ⟨hi, heq⟩ := Option.ite_none_right_eq_some.mp hstep
    obtain rfl := h.current i (by simp [hi])
    cases heq
    have hlive : s.sockets s.ws ≠ .closed := by simp [hi]
    cases ok with
    | false => exact .inl ⟨.of_live h h' rfl rfl rfl hlive hlive, rfl⟩
    | true => exact .inl ⟨.of_live h h' rfl rfl rfl hlive hlive, rfl⟩
  | closing i =>
    obtain ⟨hi, heq⟩ := Option.ite_none_right_eq_some.mp hstep
    have hlive : s.sockets i ≠ .closed := by rcases hi with hi | hi <;> simp [hi]
    obtain rfl := h.current i hlive
    cases heq
    exact .inl ⟨.of_live h h' rfl rfl rfl hlive (by simp [setReady]), rfl⟩
  | closed i =>
    obtain ⟨hi, heq⟩ := Option.ite_none_left_eq_some.mp hstep
    cases heq
    exact .inr (.inr (.inr (.inl ⟨i, rfl, hi, rfl⟩)))
  | timer id =>
    obtain ⟨k, hk, rfl⟩ := Option.map_eq_some_iff.mp hstep
    have hmem := Timers.callback_eq_some.mp hk
    cases k with
    | reconnect => exact .inr (.inr (.inr (.inr ⟨id, rfl, hmem, rfl⟩)))
    | heart =>
      have hlive := not_closed_of_isUp (h.isUp_of_beat hmem (.inl rfl))
      exact .inl ⟨.of_live h h' rfl rfl rfl hlive hlive, rfl⟩
    | serverHeart =>
      have hlive := not_closed_of_isUp (h.isUp_of_beat hmem (.inr rfl))
      exact .inl ⟨.of_live h h' rfl rfl rfl hlive hlive, rfl⟩
    | fireSend =>
      have hidle := idle_without_iff hmem (k := .fireSend) nofun
      simp only [call, fireSend, fireSendFrom_eq]
      split
      · exact .inl ⟨⟨rfl, rfl, rfl, .rfl, (idle_set_iff (k := .fireSend) nofun).trans hidle⟩, rfl⟩
      · exact .inl ⟨⟨rfl, rfl, rfl, .rfl, hidle⟩, rfl⟩

/-- A socket has been closed, and attempts are left: the next one is pending. -/
theorem onClose_of_left (hrestory : s.isRestory = false)
    (hleft : s.reconnectCount > 0 ∨ s.reconnectCount = -1) :
    (s.setReady i .closed).onClose.ws = s.ws ∧
      (s.setReady i .closed).onClose.reconnectCount = s.reconnectCount ∧
      ¬ Idle (· = .reconnect) (s.setReady i .closed).onClose.timers := by
  have hleft' : (s.setReady i .closed).reset.reconnectCount > 0 ∨
      (s.setReady i .closed).reset.reconnectCount = -1 := hleft
  have hrestory' : (s.setReady i .closed).isRestory = false := hrestory
  simp only [onClose, hrestory', Bool.false_eq_true, if_false, onReconnect, if_pos hleft']
  exact ⟨rfl, rfl, fun hidle => hidle _ (Timers.mem_set.mpr (.inl rfl)) rfl⟩

/-- None is left: the page has given up. -/
theorem onClose_of_none_left (hs : s.Sound) (hi : s.sockets i ≠ .closed) (hrestory : s.isRestory = false)
    (hleft : ¬ (s.reconnectCount > 0 ∨ s.reconnectCount = -1)) :
    (s.setReady i .closed).onClose.ws = s.ws ∧ (s.setReady i .closed).onClose.GivenUp := by
  obtain ⟨-, hclosed, hidle⟩ := hs.closed_reset hi
  have hleft' : ¬ ((s.setReady i .closed).reset.reconnectCount > 0 ∨
      (s.setReady i .closed).reset.reconnectCount = -1) := hleft
  have hrestory' : (s.setReady i .closed).isRestory = false := hrestory
  simp only [onClose, hrestory', Bool.false_eq_true, if_false, onReconnect, if_neg hleft']
  exact ⟨rfl, hclosed, hidle.clear⟩

/-- After a closed socket it is the current one that is closed. -/
theorem onClose_closed (hs : s.Sound) (hi : s.sockets i ≠ .closed) :
    (s.setReady i .closed).onClose.sockets (s.setReady i .closed).onClose.ws = .closed := by
  obtain ⟨-, hclosed, -⟩ := hs.closed_reset hi
  unfold onClose onReconnect
  split
  · exact hclosed
  · split <;> exact hclosed

theorem onClose_isRestory (hrestory : s.isRestory = false) :
    (s.setReady i .closed).onClose.isRestory = false := by
  unfold onClose onReconnect
  split
  · exact hrestory
  · split <;> exact hrestory

/-- An attempt that is made. -/
theorem call_reconnect (s : Socket α) (id : Nat) :
    ({ s with timers := s.timers.without id }.call heartMsg .reconnect).ws = s.ws + 1 ∧
      ({ s with timers := s.timers.without id }.call heartMsg .reconnect).isRestory = s.isRestory ∧
      ({ s with timers := s.timers.without id }.call heartMsg .reconnect).sockets (s.ws + 1) ≠ .closed ∧
      ({ s with timers := s.timers.without id }.call heartMsg .reconnect).reconnectCount =
        if s.reconnectCount = -1 then s.reconnectCount else s.reconnectCount - 1 := by
  by_cases hcount : s.reconnectCount = -1 <;> simp [call, create, hcount]

/-- The page goes on for ever, but with no further socket. -/
def Over (s : Socket α) : Prop := s.isRestory = true ∨ s.GivenUp

theorem Over.step {e : Event α} (ho : s.Over) (h : s.Sound) (hstep : Socket.step heartMsg e s = some s') :
    s'.Over ∧ s'.ws = s.ws := by
  have hidle : Idle (· = .reconnect) s.timers := ho.elim (fun hr => (h.restory hr).1) (·.2)
  rcases same_of_step h hstep with ⟨hsame, -⟩ | ⟨i, rfl⟩ | rfl | ⟨i, rfl, hi, rfl⟩ | ⟨id, -, hmem, -⟩
  · refine ⟨?_, hsame.ws⟩
    rcases ho with hr | ⟨hclosed, hidle⟩
    · exact .inl (hsame.isRestory.trans hr)
    · exact .inr ⟨hsame.closed.mpr hclosed, hsame.idle.mpr hidle⟩
  · -- no socket is connecting
    obtain ⟨hi, -⟩ := Option.ite_none_right_eq_some.mp hstep
    obtain rfl := h.current i (by simp [hi])
    rcases ho with hr | ⟨hclosed, -⟩
    · exact absurd (h.restory hr).2 (by simp [hi])
    · exact absurd (hi.symm.trans hclosed) nofun
  · cases hstep
    refine ⟨.inl ?_, ?_⟩ <;> simp only [destroy, close] <;> split <;> rfl
  · rcases ho with hr | ⟨hclosed, -⟩
    · have hr' : (s.setReady i .closed).isRestory = true := hr
      simp only [onClose, hr', if_true]
      exact ⟨.inl hr, rfl⟩
    · exact absurd (h.current i hi ▸ hclosed) hi
  · exact absurd rfl (hidle _ hmem)

/-- The sockets that have been closed in a run. -/
def closes (past : List (Socket α × Event α)) : Nat := past.countP fun x => closesSocket x.2

/-- The page is still trying, or has given up: after `c` closed sockets, the first one of number `n`. -/
inductive Trying (n : Nat) (c : Nat) (s : Socket α) : Prop
  | connected (hlive : s.sockets s.ws ≠ .closed) (hleft : 0 ≤ s.reconnectCount)
      (hcount : s.reconnectCount + c = 10) (hws : s.ws + s.reconnectCount = n + 10)
  | waiting (hclosed : s.sockets s.ws = .closed) (hpending : ¬ Idle (· = .reconnect) s.timers)
      (hleft : 0 < s.reconnectCount) (hcount : s.reconnectCount + c = 11)
      (hws : s.ws + s.reconnectCount = n + 10)
  | finished (hgiven : s.GivenUp) (hcount : c = 11) (hws : s.ws = n + 10)

theorem Trying.same {n c : Nat} (h : s.Trying n c) (hsame : Same s s') : s'.Trying n c := by
  cases h with
  | connected hlive hleft hcount hws =>
    refine .connected (mt hsame.closed.mp hlive) ?_ ?_ ?_ <;> simp only [hsame.reconnectCount, hsame.ws]
    · exact hleft
    · exact hcount
    · exact hws
  | waiting hclosed hpending hleft hcount hws =>
    refine .waiting (hsame.closed.mpr hclosed) (mt hsame.idle.mp hpending) ?_ ?_ ?_ <;>
      simp only [hsame.reconnectCount, hsame.ws]
    · exact hleft
    · exact hcount
    · exact hws
  | finished hgiven hcount hws =>
    exact .finished ⟨hsame.closed.mpr hgiven.1, hsame.idle.mpr hgiven.2⟩ hcount (hsame.ws.trans hws)

/-- One more socket has been closed. -/
theorem Trying.closed {n c : Nat} (h : s.Trying n c) (hs : s.Sound) (hrestory : s.isRestory = false)
    (hi : s.sockets i ≠ .closed) : (s.setReady i .closed).onClose.Trying n (c + 1) := by
  cases h with
  | connected hlive hleft hcount hws =>
    by_cases hmore : s.reconnectCount > 0 ∨ s.reconnectCount = -1
    · obtain ⟨hws', hcount', hpending⟩ := onClose_of_left (i := i) hrestory hmore
      refine .waiting (onClose_closed hs hi) hpending ?_ ?_ ?_ <;> rw [hcount'] <;> omega
    · obtain ⟨hws', hgiven⟩ := onClose_of_none_left hs hi hrestory hmore
      refine .finished hgiven ?_ ?_ <;> omega
  | waiting hclosed _ _ _ _ => exact absurd (hs.current i hi ▸ hclosed) hi
  | finished hgiven _ _ => exact absurd (hs.current i hi ▸ hgiven.1) hi

/-- One more attempt is made. -/
theorem Trying.reconnect {n c : Nat} (h : s.Trying n c) {id : Nat}
    (hmem : (id, .reconnect) ∈ s.timers.pending) (hs : s.Sound) :
    ({ s with timers := s.timers.without id }.call heartMsg .reconnect).Trying n c := by
  cases h with
  | connected hlive _ _ _ => exact absurd rfl (hs.connected hlive _ hmem)
  | waiting _ _ hleft hcount hws =>
    have hcall := @call_reconnect _ heartMsg s id
    obtain ⟨hws', -, hlive, hcount'⟩ := hcall
    rw [if_neg (by omega)] at hcount'
    refine .connected (by rwa [hws']) ?_ ?_ ?_ <;> rw [hcount'] <;> omega
  | finished hgiven _ _ => exact absurd rfl (hgiven.2 _ hmem)

/-- The connection is neither opened nor destroyed. -/
def fails : Event α → Bool
  | .opened _ | .destroy => false
  | _ => true

theorem trying_of_trace {n : Nat} {later : List (Socket α × Event α)} (h : s.Trying n 0) (hs : s.Sound)
    (hrestory : s.isRestory = false) (hlater : Trace (step heartMsg) s later s')
    (hfails : ∀ x ∈ later, fails x.2 = true) :
    s'.Sound ∧ s'.isRestory = false ∧ s'.Trying n (closes later) := by
  induction hlater with
  | nil => exact ⟨hs, hrestory, h⟩
  | snoc htrace hstep ih =>
    rename_i past s₁ s₂ e
    obtain ⟨hfail, hpast⟩ := List.forall_mem_cons.mp hfails
    obtain ⟨hs₁, hrestory₁, htrying⟩ := ih hpast
    refine ⟨hs₁.step hstep, ?_⟩
    rcases same_of_step hs₁ hstep with ⟨hsame, hother⟩ | ⟨i, rfl⟩ | rfl | ⟨i, rfl, hi, rfl⟩ |
      ⟨id, rfl, hmem, rfl⟩
    · have hcloses : closes ((s₁, e) :: past) = closes past := by simp [closes, hother]
      exact ⟨hsame.isRestory.trans hrestory₁, hcloses ▸ htrying.same hsame⟩
    · cases hfail
    · cases hfail
    · have hcloses : closes ((s₁, .closed i) :: past) = closes past + 1 := by simp [closes, closesSocket]
      rw [hcloses]
      exact ⟨onClose_isRestory hrestory₁, htrying.closed hs₁ hrestory₁ hi⟩
    · have hcloses : closes ((s₁, .timer id) :: past) = closes past := by simp [closes, closesSocket]
      rw [hcloses]
      exact ⟨(call_reconnect s₁ id).2.1.trans hrestory₁, htrying.reconnect hmem hs₁⟩

/-- The state after a connection has been opened. -/
theorem trying_of_opened (hs : s.Sound) (hstep : step heartMsg (.opened i) s = some s') :
    s'.isRestory = false ∧ s'.Trying s'.ws 0 := by
  obtain ⟨hi, heq⟩ := Option.ite_none_right_eq_some.mp hstep
  obtain rfl := hs.current i (by simp [hi])
  cases heq
  have hrestory : s.isRestory = false := by
    by_contra hne
    exact absurd (hs.restory (by simpa using hne)).2 (by simp [hi])
  have hopened : Function.update s.sockets s.ws .opened s.ws = .opened := Function.update_self ..
  refine ⟨hrestory, .connected ?_ (by decide : (0 : Int) ≤ 10) rfl rfl⟩
  exact fun hclosed => absurd (hopened.symm.trans hclosed) nofun

/-- **How often the page tries**: after a connection has been opened, as long as no other one is and the
    page does not destroy it, at most 10 sockets are made.  The page has given up if and only if 11 have
    been closed; then it makes no further socket, whatever happens. -/
theorem gives_up_iff {n : Int} {past later : List (Socket α × Event α)} {s₀ : Socket α}
    (h : Trace (step heartMsg) (init n) past s₀) (hopened : step heartMsg (.opened i) s₀ = some s)
    (hlater : Trace (step heartMsg) s later s') (hfails : ∀ x ∈ later, fails x.2 = true) :
    s'.ws ≤ s.ws + 10 ∧ closes later ≤ 11 ∧ (s'.GivenUp ↔ closes later = 11) ∧
    (s'.GivenUp → ∀ after s'', Trace (step heartMsg) s' after s'' → s''.ws = s'.ws) := by
  have hs₀ := sound_of_trace h
  obtain ⟨hrestory, htrying⟩ := trying_of_opened hs₀ hopened
  obtain ⟨hs', -, htrying'⟩ := trying_of_trace htrying (hs₀.step hopened) hrestory hlater hfails
  refine ⟨?_, ?_, ?_, ?_⟩
  · cases htrying' <;> omega
  · cases htrying' <;> omega
  · cases htrying' with
    | connected hlive _ _ _ => exact iff_of_false (fun hgiven => hlive hgiven.1) (by omega)
    | waiting _ hpending _ _ _ => exact iff_of_false (fun hgiven => hpending hgiven.2) (by omega)
    | finished hgiven hcount _ => exact iff_of_true hgiven hcount
  · intro hgiven after s'' htrace
    have hover := htrace.invariant (I := fun s => s.Sound ∧ s.Over ∧ s.ws = s'.ws) ?_
      ⟨hs', .inr hgiven, rfl⟩
    · exact hover.2.2
    · rintro s₁ e s₂ ⟨hs₁, hover, hws⟩ hstep
      obtain ⟨hover', hws'⟩ := hover.step hs₁ hstep
      exact ⟨hs₁.step hstep, hover', hws'.trans hws⟩

/-- Each socket is closed, and the next attempt made. -/
def failing (n : Nat) : List (Event Nat) :=
  (List.range n).flatMap fun i => [.closed i, .timer (i + 2)]

/-- Ten attempts, and the page has given up. -/
theorem gives_up_iff_ten : ∃ (s s' : Socket Nat) (later : List (Socket Nat × Event Nat)),
    Trace (step 0) s later s' ∧ s'.GivenUp ∧ closes later = 11 ∧
    ∀ after s'', Trace (step 0) s' after s'' → s''.ws = 10 := by
  have hrun : ∃ (s s' : Socket Nat) (later : List (Socket Nat × Event Nat)),
      step 0 (.opened 0) (init 5) = some s ∧
      take (step 0) (failing 10 ++ [.closed 10]) [] s = some (later, s') ∧
      (later.all fun x => fails x.2) = true ∧ closes later = 11 ∧ s'.ws = 10 :=
    ⟨_, _, _, rfl, rfl, rfl, rfl, rfl⟩
  obtain ⟨s, s', later, hopened, htake, hfails, hcloses, hws⟩ := hrun
  have htrace := Trace.nil.of_take htake
  obtain ⟨-, -, hiff, hfinal⟩ := gives_up_iff .nil hopened htrace (List.all_eq_true.mp hfails)
  have hgiven := hiff.mpr hcloses
  exact ⟨s, s', later, htrace, hgiven, hcloses, fun after s'' h => (hfinal hgiven after s'' h).trans hws⟩

end Socket

end Gonitor.Web.Connection
