import Gonitor.Framework.AtomicProgram
import Gonitor.Framework.LabelledTraces
import Mathlib.Data.Finset.Basic
import Mathlib.Data.List.AList
import Mathlib.Data.List.Perm.Basic
import Mathlib.Logic.Function.Basic

/-!
# The Websocket Hub

`package ws`: the connections of the browsers, and the one goroutine, `Manager.Start`, that passes
the messages of the whole server on to them.  The channels of the hub are unbuffered, the queue of a
connection holds 1024 messages, and every send blocks: a goroutine that sends stays where it is until
the other side takes over.

A step is one hand-over, one operation on a queue or one event of a socket; `Label` names it.  A
reader or writer that has been given the processor or not makes no difference here, so any order of
steps is possible.  A message that cannot be parsed changes nothing and is left out.

## Main Results

- `clients_present_iff`: connected clients stay registered if and only if no two of them have had
  one id at a time.
- `replaced_client_absent`: a second connection of one id hides the first.
-/

namespace Gonitor.Web.Ws

open LabelledTraces
open AtomicProgram (update_eq_some)

/-! ## Clients -/

/-- `subscribeMessage`; the data is what it is marshalled to. -/
structure SubscribeMessage where
  subscriptionType : String
  id : Int
  data : String := ""
  deriving DecidableEq

/-- What is sent to a browser. -/
inductive Frame
  | update (m : SubscribeMessage)
  | pong
  deriving DecidableEq

/-- How far a connection has come: `RegisterClient` waits for the hub, its services run, the reader
    has left its loop and waits to unregister, and all is over. -/
inductive Phase
  | registering
  | serving
  | unregistering
  | gone
  deriving DecidableEq

/-- `Client`, with what its reader and its writer are doing: `ponging` if the reader is at the send of
    a `PONG`, and the frame that the writer has handed to `WriteMessage`.  The socket takes frames
    only while it `accepts`. -/
structure Client where
  id : Int
  phase : Phase := .registering
  message : List Frame := []
  subscribed : Finset (String × Int) := ∅
  ponging : Bool := false
  writing : Option Frame := none
  accepts : Bool := true
  deriving DecidableEq

/-- `make(chan []byte, 1024)` -/
def capacity : Nat := 1024

namespace Client

/-- A send to the client does not block. -/
def hasRoom (client : Client) : Bool := decide (client.message.length < capacity)

/-- `client.Message <- frame`, when it goes through. -/
def push (client : Client) (frame : Frame) : Client :=
  { client with message := client.message ++ [frame] }

/-- The check at the beginning of `SendSubscribedInfo`. -/
def isSubscribed (client : Client) (m : SubscribeMessage) : Bool :=
  decide ((m.subscriptionType, m.id) ∈ client.subscribed)

/-- `toggleSubscribe` -/
def toggleSubscribe (client : Client) (subscriptionType : String) (id : Int) (isSubscribe : Bool) :
    Client :=
  { client with
    subscribed :=
      if isSubscribe then insert (subscriptionType, id) client.subscribed
      else client.subscribed.erase (subscriptionType, id) }

/-- The reader is in `ReadMessage`. -/
def reading (client : Client) : Bool := client.phase == .serving && !client.ponging

/-- The hub has processed the `Register` of the client, and not its `Unregister`. -/
def registered (client : Client) : Bool :=
  client.phase == .serving || client.phase == .unregistering

end Client

/-! ## The hub -/

/-- Where `Manager.Start` is: in its `select`, ahead of the clients that still get the message, or in
    the send to a client whose queue was full. -/
inductive Control
  | selecting
  | ranging (m : SubscribeMessage) (rest : List Nat)
  | sending (m : SubscribeMessage) (c : Nat) (rest : List Nat)
  deriving DecidableEq

/-- The state of `package ws`: the connections by number, `ClientList`, the hub, and the messages of
    those who wait in `SendSubscribed`. -/
structure Hub where
  conns : Nat → Option Client
  clientList : AList (fun _ : Int => Nat)
  control : Control
  publishers : List SubscribeMessage

/-- The server has started. -/
def Hub.start : Hub := ⟨fun _ => none, ∅, .selecting, []⟩

/-- What happens in a step. -/
inductive Label
  | connect (c : Nat) (clientId : Int)
  | register (c : Nat)
  | close (c : Nat)
  | unregister (c : Nat)
  | toggle (c : Nat) (subscriptionType : String) (id : Int) (isSubscribe : Bool)
  | ping (c : Nat)
  | pong (c : Nat)
  | publish (m : SubscribeMessage)
  | take (m : SubscribeMessage) (order : List Nat)
  | offer
  | send
  | write (c : Nat)
  | written (c : Nat)
  | socket (c : Nat) (accepts : Bool)

namespace Hub

/-- Change one connection, if the guard holds of it. -/
def edit (h : Hub) (c : Nat) (guard : Client → Bool) (f : Client → Client) : Option Hub :=
  match h.conns c with
  | none => none
  | some client =>
    if guard client then some { h with conns := Function.update h.conns c (some (f client)) }
    else none

/-- `manager.ClientList[client.Id] = client` -/
def register (h : Hub) (c : Nat) : Option Hub :=
  match h.control, h.conns c with
  | .selecting, some client =>
    if client.phase == .registering then
      some { h with
        conns := Function.update h.conns c (some { client with phase := .serving })
        clientList := h.clientList.insert client.id c }
    else none
  | _, _ => none

/-- `delete(manager.ClientList, client.Id)`; the reader closes the socket afterwards, so that
    nothing blocks the writer any more. -/
def unregister (h : Hub) (c : Nat) : Option Hub :=
  match h.control, h.conns c with
  | .selecting, some client =>
    if client.phase == .unregistering then
      some { h with
        conns := Function.update h.conns c (some { client with phase := .gone, accepts := true })
        clientList := h.clientList.erase client.id }
    else none
  | _, _ => none

/-- The hub takes a message over from its publisher.  The order in which a map is ranged over is any
    order. -/
def take (h : Hub) (m : SubscribeMessage) (order : List Nat) : Option Hub :=
  match h.control with
  | .selecting =>
    if m ∈ h.publishers ∧ order.Perm (h.clientList.entries.map Sigma.snd) then
      some { h with control := .ranging m order, publishers := h.publishers.erase m }
    else none
  | _ => none

/-- `client.SendSubscribedInfo(subscribeMessage)` for the next client, or the end of the loop. -/
def offer (h : Hub) : Option Hub :=
  match h.control with
  | .ranging _ [] => some { h with control := .selecting }
  | .ranging m (c :: rest) =>
    match h.conns c with
    | none => none
    | some client =>
      if client.isSubscribed m then
        if client.hasRoom then
          some { h with
            conns := Function.update h.conns c (some (client.push (.update m)))
            control := .ranging m rest }
        else some { h with control := .sending m c rest }
      else some { h with control := .ranging m rest }
  | _ => none

/-- The send that has been blocked goes through. -/
def send (h : Hub) : Option Hub :=
  match h.control with
  | .sending m c rest =>
    match h.conns c with
    | none => none
    | some client =>
      if client.hasRoom then
        some { h with
          conns := Function.update h.conns c (some (client.push (.update m)))
          control := .ranging m rest }
      else none
  | _ => none

/-- One step. -/
def step : Label → Hub → Option Hub
  | .connect c clientId, h =>
    if (h.conns c).isNone then
      some { h with conns := Function.update h.conns c (some { id := clientId }) }
    else none
  | .register c, h => h.register c
  | .close c, h => h.edit c Client.reading fun client => { client with phase := .unregistering }
  | .unregister c, h => h.unregister c
  | .toggle c subscriptionType id isSubscribe, h =>
    -- by the reader, or by `SendNewTaskLogFormOrm`, which does not wait for the reader
    h.edit c Client.registered fun client => client.toggleSubscribe subscriptionType id isSubscribe
  | .ping c, h => h.edit c Client.reading fun client => { client with ponging := true }
  | .pong c, h =>
    h.edit c (fun client => client.ponging && client.hasRoom) fun client =>
      { client.push .pong with ponging := false }
  | .publish m, h => some { h with publishers := m :: h.publishers }
  | .take m order, h => h.take m order
  | .offer, h => h.offer
  | .send, h => h.send
  | .write c, h =>
    h.edit c (fun client => client.phase != .registering && client.writing.isNone &&
        !client.message.isEmpty) fun client =>
      { client with writing := client.message.head?, message := client.message.tail }
  | .written c, h =>
    h.edit c (fun client => client.writing.isSome && client.accepts) fun client =>
      { client with writing := none }
  | .socket c accepts, h =>
    h.edit c (fun client => client.phase != .gone) fun client => { client with accepts := accepts }

/-! ## What a step can do -/

variable {h h' : Hub} {c : Nat} {l : Label}

theorem edit_cases {guard : Client → Bool} {f : Client → Client}
    (hedit : h.edit c guard f = some h') : ∃ client, h.conns c = some client ∧
      guard client = true ∧
      h' = { h with conns := Function.update h.conns c (some (f client)) } := by
  unfold edit at hedit
  split at hedit
  · cases hedit
  · rename_i client hc
    split at hedit
    · rename_i hguard
      cases hedit
      exact ⟨client, hc, hguard, rfl⟩
    · cases hedit

theorem register_cases (hreg : h.register c = some h') : ∃ client, h.control = .selecting ∧
    h.conns c = some client ∧ client.phase = .registering ∧ h' = { h with
      conns := Function.update h.conns c (some { client with phase := .serving })
      clientList := h.clientList.insert client.id c } := by
  unfold register at hreg
  split at hreg
  · rename_i client hcontrol hc
    split at hreg
    · rename_i hphase
      cases hreg
      exact ⟨client, hcontrol, hc, by simpa using hphase, rfl⟩
    · cases hreg
  · cases hreg

theorem unregister_cases (hunreg : h.unregister c = some h') : ∃ client,
    h.control = .selecting ∧ h.conns c = some client ∧ client.phase = .unregistering ∧ h' = { h with
      conns := Function.update h.conns c (some { client with phase := .gone, accepts := true })
      clientList := h.clientList.erase client.id } := by
  unfold unregister at hunreg
  split at hunreg
  · rename_i client hcontrol hc
    split at hunreg
    · rename_i hphase
      cases hunreg
      exact ⟨client, hcontrol, hc, by simpa using hphase, rfl⟩
    · cases hunreg
  · cases hunreg

theorem take_cases {m : SubscribeMessage} {order : List Nat} (htake : h.take m order = some h') :
    h.control = .selecting ∧ m ∈ h.publishers ∧
      order.Perm (h.clientList.entries.map Sigma.snd) ∧
      h' = { h with control := .ranging m order, publishers := h.publishers.erase m } := by
  unfold take at htake
  split at htake
  · rename_i hcontrol
    split at htake
    · rename_i hguard
      cases htake
      exact ⟨hcontrol, hguard.1, hguard.2, rfl⟩
    · cases htake
  · cases htake

/-- The turn of the next client: it is passed over, gets the message, or blocks the hub; or the
    message has been offered to all. -/
theorem offer_cases (hoffer : h.offer = some h') :
    (∃ m, h.control = .ranging m [] ∧ h' = { h with control := .selecting }) ∨
    ∃ m c rest client, h.control = .ranging m (c :: rest) ∧ h.conns c = some client ∧
      (client.isSubscribed m = false ∧ h' = { h with control := .ranging m rest } ∨
       client.isSubscribed m = true ∧ client.hasRoom = true ∧ h' = { h with
          conns := Function.update h.conns c (some (client.push (.update m)))
          control := .ranging m rest } ∨
       client.isSubscribed m = true ∧ client.hasRoom = false ∧
          h' = { h with control := .sending m c rest }) := by
  unfold offer at hoffer
  split at hoffer
  · rename_i m hcontrol
    cases hoffer
    exact .inl ⟨m, hcontrol, rfl⟩
  · rename_i m c rest hcontrol
    split at hoffer
    · cases hoffer
    · rename_i client hc
      refine .inr ⟨m, c, rest, client, hcontrol, hc, ?_⟩
      split at hoffer
      · rename_i hsub
        split at hoffer
        · rename_i hroom
          cases hoffer
          exact .inr (.inl ⟨hsub, hroom, rfl⟩)
        · rename_i hfull
          cases hoffer
          exact .inr (.inr ⟨hsub, by simpa using hfull, rfl⟩)
      · rename_i hsub
        cases hoffer
        exact .inl ⟨by simpa using hsub, rfl⟩
  · cases hoffer

theorem send_cases (hsend : h.send = some h') : ∃ m c rest client,
    h.control = .sending m c rest ∧ h.conns c = some client ∧ client.hasRoom = true ∧
      h' = { h with
        conns := Function.update h.conns c (some (client.push (.update m)))
        control := .ranging m rest } := by
  unfold send at hsend
  split at hsend
  · rename_i m c rest hcontrol
    split at hsend
    · cases hsend
    · rename_i client hc
      split at hsend
      · rename_i hroom
        cases hsend
        exact ⟨m, c, rest, client, hcontrol, hc, hroom, rfl⟩
      · cases hsend
  · cases hsend

end Hub

/-! ## Registration -/

section Registration

variable {h h' : Hub} {l : Label}

/-- Every client whose `Register` has been processed, and whose own `Unregister` has not, is in
    `ClientList`. -/
def AllPresent (h : Hub) : Prop :=
  ∀ c client, h.conns c = some client → client.registered = true →
    h.clientList.lookup client.id = some c

/-- If a client is registered in this step, no other registered client has its id. -/
def NoClash (h : Hub) : Label → Prop
  | .register c => ∀ client c' client', h.conns c = some client → h.conns c' = some client' →
      client'.registered = true → client'.id ≠ client.id
  | _ => True

theorem noClash_of_ne_register (hl : ∀ c, l ≠ .register c) : NoClash h l := by
  unfold NoClash
  split
  · exact absurd rfl (hl _)
  · trivial

/-- `ClientList` is the same, and no other client counts as registered. -/
structure SameRegistry (h h' : Hub) : Prop where
  clientList : h'.clientList = h.clientList
  registered : ∀ c client', h'.conns c = some client' → client'.registered = true →
    ∃ client, h.conns c = some client ∧ client.registered = true ∧ client.id = client'.id

theorem SameRegistry.allPresent (hsame : SameRegistry h h') (hpresent : AllPresent h) :
    AllPresent h' := by
  intro c client' hc hreg
  obtain ⟨client, hold, hregistered, hid⟩ := hsame.registered c client' hc hreg
  rw [hsame.clientList, ← hid]
  exact hpresent c client hold hregistered

/-- One connection is changed in something else. -/
theorem sameRegistry_update {c : Nat} {client client' : Client} {control : Control}
    {publishers : List SubscribeMessage} (hc : h.conns c = some client)
    (hid : client'.id = client.id) (hreg : client'.registered = true → client.registered = true) :
    SameRegistry h ⟨Function.update h.conns c (some client'), h.clientList, control, publishers⟩ where
  clientList := rfl
  registered := by
    intro c₁ client₁ hc₁ hreg₁
    rcases update_eq_some hc₁ with ⟨rfl, heq⟩ | ⟨-, hold⟩
    · cases heq
      exact ⟨client, hc, hreg hreg₁, hid.symm⟩
    · exact ⟨client₁, hold, hreg₁, rfl⟩

theorem sameRegistry_control (h : Hub) (control : Control) (publishers : List SubscribeMessage) :
    SameRegistry h { h with control := control, publishers := publishers } :=
  ⟨rfl, fun _ client' hc hreg => ⟨client', hc, hreg, rfl⟩⟩

/-- **What a step does to the registration**: it registers a client, or unregisters one, or leaves
    the registration alone. -/
theorem registry_of_step (hstep : Hub.step l h = some h') :
    (∃ c client, l = .register c ∧ h.conns c = some client ∧ client.phase = .registering ∧
      h' = { h with
        conns := Function.update h.conns c (some { client with phase := .serving })
        clientList := h.clientList.insert client.id c }) ∨
    (∃ c client, h.conns c = some client ∧ client.phase = .unregistering ∧ (∀ c', l ≠ .register c') ∧
      h' = { h with
        conns := Function.update h.conns c (some { client with phase := .gone, accepts := true })
        clientList := h.clientList.erase client.id }) ∨
    (∀ c', l ≠ .register c') ∧ SameRegistry h h' := by
  cases l with
  | register c =>
    obtain ⟨client, -, hc, hphase, rfl⟩ := Hub.register_cases hstep
    exact .inl ⟨c, client, rfl, hc, hphase, rfl⟩
  | unregister c =>
    obtain ⟨client, -, hc, hphase, rfl⟩ := Hub.unregister_cases hstep
    exact .inr (.inl ⟨c, client, hc, hphase, nofun, rfl⟩)
  | connect c clientId =>
    simp only [Hub.step] at hstep
    split at hstep
    · cases hstep
      refine .inr (.inr ⟨nofun, rfl, fun c' client' hc' hreg => ?_⟩)
      rcases update_eq_some hc' with ⟨rfl, heq⟩ | ⟨-, hold⟩
      · -- the new client is not registered yet
        cases heq
        cases hreg
      · exact ⟨client', hold, hreg, rfl⟩
    · cases hstep
  | close c =>
    obtain ⟨client, hc, hreading, rfl⟩ := Hub.edit_cases hstep
    refine .inr (.inr ⟨nofun, sameRegistry_update hc rfl fun _ => ?_⟩)
    simp only [Client.reading, Bool.and_eq_true] at hreading
    simp [Client.registered, hreading.1]
  | toggle c subscriptionType id isSubscribe =>
    obtain ⟨client, hc, -, rfl⟩ := Hub.edit_cases hstep
    exact .inr (.inr ⟨nofun, sameRegistry_update hc rfl fun hreg => hreg⟩)
  | ping c | pong c | write c | written c | socket c accepts =>
    obtain ⟨client, hc, -, rfl⟩ := Hub.edit_cases hstep
    exact .inr (.inr ⟨nofun, sameRegistry_update hc rfl id⟩)
  | publish m =>
    cases hstep
    exact .inr (.inr ⟨nofun, sameRegistry_control h _ _⟩)
  | take m order =>
    obtain ⟨-, -, -, rfl⟩ := Hub.take_cases hstep
    exact .inr (.inr ⟨nofun, sameRegistry_control h _ _⟩)
  | offer =>
    refine .inr (.inr ⟨nofun, ?_⟩)
    rcases Hub.offer_cases hstep with ⟨m, -, rfl⟩ | ⟨m, c, rest, client, -, hc, hturn⟩
    · exact sameRegistry_control h _ _
    · rcases hturn with ⟨-, rfl⟩ | ⟨-, -, rfl⟩ | ⟨-, -, rfl⟩
      · exact sameRegistry_control h _ _
      · exact sameRegistry_update hc rfl id
      · exact sameRegistry_control h _ _
  | send =>
    obtain ⟨m, c, rest, client, -, hc, -, rfl⟩ := Hub.send_cases hstep
    exact .inr (.inr ⟨nofun, sameRegistry_update hc rfl id⟩)

/-- **One step** keeps all clients present exactly if it does not register a second one of an id. -/
theorem allPresent_step (hpresent : AllPresent h) (hstep : Hub.step l h = some h') :
    AllPresent h' ↔ NoClash h l := by
  rcases registry_of_step hstep with ⟨c, client, rfl, hc, hphase, rfl⟩ |
    ⟨c, client, hc, hphase, hl, rfl⟩ | ⟨hl, hsame⟩
  · constructor
    · -- a client of the same id would have been replaced
      rintro hafter client₀ c' client' hc₀ hc' hreg hid
      rw [hc, Option.some.injEq] at hc₀
      subst hc₀
      have hne : c' ≠ c := by
        rintro rfl
        rw [hc, Option.some.injEq] at hc'
        subst hc'
        simp [Client.registered, hphase] at hreg
      have hlookup := hafter c' client' ((Function.update_of_ne hne _ _).trans hc') hreg
      rw [hid, AList.lookup_insert, Option.some.injEq] at hlookup
      exact hne hlookup.symm
    · rintro hclash c' client' hc' hreg
      rcases update_eq_some hc' with ⟨rfl, heq⟩ | ⟨-, hold⟩
      · cases heq
        exact AList.lookup_insert _
      · rw [AList.lookup_insert_ne (hclash client c' client' hc hold hreg)]
        exact hpresent c' client' hold hreg
  · refine iff_of_true ?_ ?_
    · rintro c' client' hc' hreg
      rcases update_eq_some hc' with ⟨rfl, heq⟩ | ⟨hne, hold⟩
      · cases heq
        cases hreg
      · have hlookup := hpresent c' client' hold hreg
        -- the entry that goes is that of the client that leaves
        have hid : client'.id ≠ client.id := by
          intro heq
          rw [heq, hpresent c client hc (by simp [Client.registered, hphase])] at hlookup
          exact hne (Option.some.inj hlookup).symm
        rw [AList.lookup_erase_ne hid]
        exact hlookup
    · exact noClash_of_ne_register hl
  · exact iff_of_true (hsame.allPresent hpresent) (noClash_of_ne_register hl)

theorem allPresent_start : AllPresent Hub.start := nofun

/-- The broadcast is offered to every client that is registered when it is taken. -/
def OfferedToAll (h : Hub) : Label → Prop
  | .take _ order => ∀ c client, h.conns c = some client → client.registered = true → c ∈ order
  | _ => True

theorem offeredToAll_of_allPresent (hpresent : AllPresent h) (hstep : Hub.step l h = some h') :
    OfferedToAll h l := by
  cases l with
  | take m order =>
    obtain ⟨-, -, hperm, -⟩ := Hub.take_cases hstep
    intro c client hc hreg
    rw [hperm.mem_iff]
    have hentry := AList.mem_lookup_iff.mp (hpresent c client hc hreg)
    exact List.mem_map_of_mem (f := Sigma.snd) hentry
  | _ => trivial

/-- **A connected client stays registered** through a trace, and every broadcast taken in it is
    offered to all who are registered then, if and only if no client is registered while another one
    of its id is. -/
theorem clients_present_iff {past : List (Hub × Label)} (htrace : Trace Hub.step .start past h) :
    ((∀ x ∈ past, AllPresent x.1) ∧ AllPresent h) ∧ (∀ x ∈ past, OfferedToAll x.1 x.2) ↔
      ∀ x ∈ past, NoClash x.1 x.2 := by
  have hpresent := htrace.always_iff (fun _ _ _ => allPresent_step) allPresent_start
  constructor
  · rintro ⟨hstates, -⟩
    exact hpresent.mp hstates
  · intro hclash
    have hstates := hpresent.mpr hclash
    refine ⟨hstates, fun x hx => ?_⟩
    obtain ⟨h', hstep⟩ := htrace.taken x hx
    exact offeredToAll_of_allPresent (hstates.1 x hx) hstep

end Registration

/-- One client connects and gets the next broadcast. -/
theorem clients_present_iff_oneClient : ∃ past h, Trace Hub.step .start past h ∧
    past.map Prod.snd = [.take ⟨"TASK", 1, ""⟩ [0], .publish ⟨"TASK", 1, ""⟩, .register 0,
      .connect 0 5] ∧ ((∀ x ∈ past, AllPresent x.1) ∧ AllPresent h) ∧
    ∀ x ∈ past, OfferedToAll x.1 x.2 := by
  have htrace : ∃ past h, Trace Hub.step .start past h ∧
      past.map Prod.snd = [.take ⟨"TASK", 1, ""⟩ [0], .publish ⟨"TASK", 1, ""⟩, .register 0,
        .connect 0 5] ∧ ∀ x ∈ past, NoClash x.1 x.2 := by
    refine ⟨_, _, .snoc (.snoc (.snoc (.snoc .nil rfl) rfl) rfl) rfl, rfl, ?_⟩
    simp only [List.forall_mem_cons]
    refine ⟨trivial, trivial, ?_, trivial, nofun⟩
    -- when the client is registered there is no other one
    intro client c' client' _ hc' hreg
    rcases update_eq_some hc' with ⟨rfl, heq⟩ | ⟨-, hold⟩
    · cases heq
      cases hreg
    · cases hold
  obtain ⟨past, h, htrace, hlabels, hclash⟩ := htrace
  exact ⟨past, h, htrace, hlabels, (clients_present_iff htrace).mpr hclash⟩

/-- A second connection of one id hides the first, as when a browser is back before its old
    connection has been noticed to be closed. -/
theorem replaced_client_absent : ¬ ∀ past h, Trace Hub.step .start past h → AllPresent h := by
  intro hpresent
  have htrace : ∃ past h, Trace Hub.step .start past h ∧ h.clientList.lookup 5 = some 1 ∧
      h.conns 0 = some { id := 5, phase := .serving } :=
    ⟨_, _, .snoc (.snoc (.snoc (.snoc (l := .connect 0 5) .nil rfl) (l := .register 0) rfl)
      (l := .connect 1 5) rfl) (l := .register 1) rfl, rfl, rfl⟩
  obtain ⟨past, h, htrace, hlookup, hfirst⟩ := htrace
  have hlost := hpresent past h htrace 0 _ hfirst rfl
  rw [hlookup] at hlost
  cases hlost

end Gonitor.Web.Ws
