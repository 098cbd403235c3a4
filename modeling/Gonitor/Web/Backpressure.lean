import Gonitor.Web.Hub

/-!
# One Slow Browser

The queue of a connection is bounded, the sends to it block, and there is one hub for all.  If a
browser takes no more frames, its queue runs full, and the hub stays in the send of the next message
for it; so does everybody who has something for the hub.

## Main Results

- `never_stalled_iff`: the hub never stalls if and only if it comes to a full queue only while nobody
  else waits for it, and nobody does before the queue has room again.
- `never_sending_of_room`: it never even waits if each queue it comes to has room.
- `slow_browser_stalls`: one browser stalls the hub.
-/

namespace Gonitor.Web.Ws

open LabelledTraces
open AtomicProgram (update_eq_some)

/-! ## Stalling -/

/-- A send to the client blocks. -/
def Full (h : Hub) (c : Nat) : Prop := ∃ client, h.conns c = some client ∧ client.hasRoom = false

/-- `Manager.Start` is blocked on the send to the full queue of `c`. -/
def Blocked (h : Hub) (m : SubscribeMessage) (c : Nat) (rest : List Nat) : Prop :=
  h.control = .sending m c rest ∧ Full h c

/-- Somebody waits for the hub while it ranges with `m` over the clients `rest`: a `SendSubscribed`, a
    registration, or another client that the message is for. -/
def Waits (h : Hub) (m : SubscribeMessage) (rest : List Nat) : Prop :=
  h.publishers ≠ [] ∨ (∃ c client, h.conns c = some client ∧ client.phase = .registering) ∨
    ∃ c ∈ rest, ∃ client, h.conns c = some client ∧ client.isSubscribed m = true

/-- The hub is blocked on one client while somebody else waits. -/
def Stalled (h : Hub) : Prop := ∃ m c rest, Blocked h m c rest ∧ Waits h m rest

/-- What a step has to respect: the hub does not come to a full queue while somebody waits, and while
    it is blocked there, nobody comes to wait. -/
def Calm (h : Hub) : Label → Prop
  | .offer => ∀ m c rest client, h.control = .ranging m (c :: rest) → h.conns c = some client →
      client.isSubscribed m = true → client.hasRoom = false → ¬ Waits h m rest
  | .pong c => ∀ m rest client, h.control = .sending m c rest → h.conns c = some client →
      client.message.length + 1 = capacity → ¬ Waits h m rest
  | .publish _ | .connect _ _ => ∀ m c rest, ¬ Blocked h m c rest
  | .toggle c subscriptionType id true => ∀ m c' rest, Blocked h m c' rest → c ∈ rest →
      (m.subscriptionType, m.id) ≠ (subscriptionType, id)
  | _ => True

section Steps

variable {h h' : Hub} {l : Label} {c : Nat} {client client' : Client}

theorem not_stalled_of_control (hcontrol : ∀ m c rest, h.control ≠ .sending m c rest) :
    ¬ Stalled h := by
  rintro ⟨m, c, rest, ⟨hsending, -⟩, -⟩
  exact hcontrol m c rest hsending

/-- What a client that has changed may not have become: full, registering, or subscribed. -/
structure Eases (client client' : Client) : Prop where
  full : client'.hasRoom = false → client.hasRoom = false
  registering : client'.phase = .registering → client.phase = .registering
  subscribed : ∀ m, client'.isSubscribed m = true → client.isSubscribed m = true

/-- Who waits after one client has changed has waited before. -/
theorem waits_of_update {m : SubscribeMessage} {rest : List Nat} {clientList : AList fun _ : Int => Nat}
    {control : Control} (hc : h.conns c = some client)
    (hphase : client'.phase = .registering → client.phase = .registering)
    (hsub : c ∈ rest → client'.isSubscribed m = true → client.isSubscribed m = true)
    (hwaits : Waits ⟨Function.update h.conns c (some client'), clientList, control, h.publishers⟩ m
      rest) : Waits h m rest := by
  rcases hwaits with hpub | ⟨c₁, client₁, hc₁, hreg⟩ | ⟨c₁, hmem, client₁, hc₁, hsub₁⟩
  · exact .inl hpub
  · rcases update_eq_some hc₁ with ⟨rfl, heq⟩ | ⟨-, hold⟩
    · cases heq
      exact .inr (.inl ⟨c₁, client, hc, hphase hreg⟩)
    · exact .inr (.inl ⟨c₁, client₁, hold, hreg⟩)
  · rcases update_eq_some hc₁ with ⟨rfl, heq⟩ | ⟨-, hold⟩
    · cases heq
      exact .inr (.inr ⟨c₁, hmem, client, hc, hsub hmem hsub₁⟩)
    · exact .inr (.inr ⟨c₁, hmem, client₁, hold, hsub₁⟩)

/-- A queue that is full after one client has changed was full before. -/
theorem full_of_update {c' : Nat} {clientList : AList fun _ : Int => Nat} {control : Control}
    {publishers : List SubscribeMessage} (hc : h.conns c = some client)
    (hfull : c' = c → client'.hasRoom = false → client.hasRoom = false)
    (hafter : Full ⟨Function.update h.conns c (some client'), clientList, control, publishers⟩ c') :
    Full h c' := by
  obtain ⟨client₁, hc₁, hfull₁⟩ := hafter
  rcases update_eq_some hc₁ with ⟨rfl, heq⟩ | ⟨-, hold⟩
  · cases heq
    exact ⟨client, hc, hfull rfl hfull₁⟩
  · exact ⟨client₁, hold, hfull₁⟩

/-- A change of a client that eases stalls nothing. -/
theorem not_stalled_of_eases (hcalm : ¬ Stalled h) (hc : h.conns c = some client)
    (heases : Eases client client') :
    ¬ Stalled { h with conns := Function.update h.conns c (some client') } := by
  rintro ⟨m, c', rest, ⟨hcontrol, hfull⟩, hwaits⟩
  refine hcalm ⟨m, c', rest, ⟨hcontrol, ?_⟩, ?_⟩
  · exact full_of_update hc (fun _ => heases.full) hfull
  · exact waits_of_update hc heases.registering (fun _ => heases.subscribed m) hwaits

/-- A new connection waits to be registered. -/
theorem connect_stalls_iff {clientId : Int} (hnew : (h.conns c).isNone = true) :
    Stalled { h with conns := Function.update h.conns c (some { id := clientId }) } ↔
      ∃ m c' rest, Blocked h m c' rest := by
  constructor
  · rintro ⟨m, c', rest, ⟨hcontrol, client₁, hc₁, hfull⟩, -⟩
    rcases update_eq_some hc₁ with ⟨rfl, heq⟩ | ⟨-, hold⟩
    · -- its queue is empty
      cases heq
      cases hfull
    · exact ⟨m, c', rest, hcontrol, client₁, hold, hfull⟩
  · rintro ⟨m, c', rest, hcontrol, client₁, hc₁, hfull⟩
    have hne : c' ≠ c := by
      rintro rfl
      rw [hc₁] at hnew
      cases hnew
    refine ⟨m, c', rest, ⟨hcontrol, client₁, ?_, hfull⟩, .inr (.inl ⟨c, { id := clientId }, ?_, rfl⟩)⟩
    · exact (Function.update_of_ne hne _ _).trans hc₁
    · exact Function.update_self ..

/-- One more `SendSubscribed` waits. -/
theorem publish_stalls_iff (m : SubscribeMessage) :
    Stalled { h with publishers := m :: h.publishers } ↔ ∃ m c rest, Blocked h m c rest := by
  constructor
  · rintro ⟨m, c, rest, hblocked, -⟩
    exact ⟨m, c, rest, hblocked⟩
  · rintro ⟨m', c, rest, hblocked⟩
    exact ⟨m', c, rest, hblocked, .inl (List.cons_ne_nil _ _)⟩

/-- A client that has just subscribed waits if the message still comes to it. -/
theorem subscribe_stalls_iff {subscriptionType : String} {id : Int} (hcalm : ¬ Stalled h)
    (hc : h.conns c = some client) :
    Stalled { h with
        conns := Function.update h.conns c (some (client.toggleSubscribe subscriptionType id true)) } ↔
      ∃ m c' rest, Blocked h m c' rest ∧ c ∈ rest ∧
        (m.subscriptionType, m.id) = (subscriptionType, id) := by
  constructor
  · rintro ⟨m, c', rest, ⟨hcontrol, hfull⟩, hwaits⟩
    have hblocked : Blocked h m c' rest := by
      refine ⟨hcontrol, full_of_update hc ?_ hfull⟩
      intro _ hfull'
      exact hfull'
    refine ⟨m, c', rest, hblocked, ?_⟩
    by_contra hnot
    -- otherwise whoever waits has waited before
    refine hcalm ⟨m, c', rest, hblocked, waits_of_update hc ?_ ?_ hwaits⟩
    · intro hphase
      exact hphase
    intro hmem hsub
    simp only [Client.isSubscribed, Client.toggleSubscribe, if_true, Finset.mem_insert,
      decide_eq_true_eq] at hsub ⊢
    exact hsub.resolve_left fun hpair => hnot ⟨hmem, hpair⟩
  · rintro ⟨m, c', rest, ⟨hcontrol, client₁, hc₁, hfull⟩, hmem, hpair⟩
    refine ⟨m, c', rest, ⟨hcontrol, ?_⟩, .inr (.inr ⟨c, hmem, _, Function.update_self .., ?_⟩)⟩
    · by_cases heq : c' = c
      · subst heq
        rw [hc, Option.some.injEq] at hc₁
        subst hc₁
        exact ⟨_, Function.update_self .., hfull⟩
      · exact ⟨client₁, (Function.update_of_ne heq _ _).trans hc₁, hfull⟩
    · simp [Client.isSubscribed, Client.toggleSubscribe, hpair]

/-- Changes of the queues do not change who waits. -/
theorem waits_update_iff {m : SubscribeMessage} {rest : List Nat} (hc : h.conns c = some client)
    (hphase : client'.phase = client.phase) (hsub : client'.subscribed = client.subscribed) :
    Waits { h with conns := Function.update h.conns c (some client') } m rest ↔ Waits h m rest := by
  have hsubscribed : client'.isSubscribed m = client.isSubscribed m := by
    simp only [Client.isSubscribed, hsub]
  constructor
  · exact waits_of_update hc (fun hreg => hphase ▸ hreg) fun _ hsub' => hsubscribed ▸ hsub'
  · intro hwaits
    -- the change can be taken back
    have hback : Function.update (Function.update h.conns c (some client')) c (some client) =
        h.conns := by
      rw [Function.update_idem, ← hc, Function.update_eq_self]
    have hafter : Waits ⟨Function.update (Function.update h.conns c (some client')) c (some client),
        h.clientList, h.control, h.publishers⟩ m rest := by
      rw [hback]
      exact hwaits
    exact waits_of_update (h := { h with conns := Function.update h.conns c (some client') })
      (Function.update_self ..) (fun hreg => hphase.trans hreg)
      (fun _ hsub' => hsubscribed.trans hsub') hafter

/-- A `PONG` may take the last place in the queue that the hub waits for. -/
theorem pong_stalls_iff (hcalm : ¬ Stalled h) (hc : h.conns c = some client)
    (hroom : client.hasRoom = true) :
    Stalled { h with
        conns := Function.update h.conns c (some { client.push .pong with ponging := false }) } ↔
      ∃ m rest, h.control = .sending m c rest ∧ client.message.length + 1 = capacity ∧
        Waits h m rest := by
  have hwaits_iff : ∀ m rest, Waits { h with
      conns := Function.update h.conns c (some { client.push .pong with ponging := false }) } m rest ↔
      Waits h m rest := fun m rest => waits_update_iff hc rfl rfl
  constructor
  · rintro ⟨m, c', rest, ⟨hcontrol, client₁, hc₁, hfull⟩, hwaits⟩
    rw [hwaits_iff] at hwaits
    rcases update_eq_some hc₁ with ⟨rfl, heq⟩ | ⟨-, hold⟩
    · cases heq
      refine ⟨m, rest, hcontrol, ?_, hwaits⟩
      simp only [Client.hasRoom, Client.push, List.length_append, List.length_singleton,
        decide_eq_true_eq, decide_eq_false_iff_not] at hroom hfull
      omega
    · exact absurd ⟨m, c', rest, ⟨hcontrol, client₁, hold, hfull⟩, hwaits⟩ hcalm
  · rintro ⟨m, rest, hcontrol, hlength, hwaits⟩
    refine ⟨m, c, rest, ⟨hcontrol, _, Function.update_self .., ?_⟩, (hwaits_iff m rest).mpr hwaits⟩
    simp [Client.hasRoom, Client.push, hlength]

/-- The hub comes to a client whose queue is full. -/
theorem offer_stalls_iff {m : SubscribeMessage} {rest : List Nat} (hc : h.conns c = some client)
    (hfull : client.hasRoom = false) :
    Stalled { h with control := .sending m c rest } ↔ Waits h m rest := by
  constructor
  · rintro ⟨m', c', rest', ⟨hcontrol, -⟩, hwaits⟩
    cases hcontrol
    exact hwaits
  · intro hwaits
    exact ⟨m, c, rest, ⟨rfl, client, hc, hfull⟩, hwaits⟩

/-- A browser subscribes, or unsubscribes. -/
theorem toggle_calm_iff {subscriptionType : String} {id : Int} {isSubscribe : Bool}
    (hcalm : ¬ Stalled h)
    (hstep : Hub.step (.toggle c subscriptionType id isSubscribe) h = some h') :
    ¬ Stalled h' ↔ Calm h (.toggle c subscriptionType id isSubscribe) := by
  obtain ⟨client, hc, -, rfl⟩ := Hub.edit_cases hstep
  cases isSubscribe with
  | true =>
    rw [subscribe_stalls_iff hcalm hc]
    simp only [Calm, not_exists, not_and, ne_eq]
  | false =>
    refine iff_of_true (not_stalled_of_eases hcalm hc ⟨fun hfull => hfull, fun hreg => hreg, ?_⟩)
      trivial
    intro m hsub
    simp only [Client.isSubscribed, Client.toggleSubscribe, Bool.false_eq_true, if_false,
      Finset.mem_erase, decide_eq_true_eq] at hsub ⊢
    exact hsub.2

/-- A reader sends its `PONG`. -/
theorem pong_calm_iff (hcalm : ¬ Stalled h) (hstep : Hub.step (.pong c) h = some h') :
    ¬ Stalled h' ↔ Calm h (.pong c) := by
  obtain ⟨client, hc, hguard, rfl⟩ := Hub.edit_cases hstep
  rw [Bool.and_eq_true] at hguard
  rw [pong_stalls_iff hcalm hc hguard.2]
  constructor
  · intro hnot m rest client₁ hcontrol hc₁ hlength hwaits
    rw [hc, Option.some.injEq] at hc₁
    subst hc₁
    exact hnot ⟨m, rest, hcontrol, hlength, hwaits⟩
  · rintro hpong ⟨m, rest, hcontrol, hlength, hwaits⟩
    exact hpong m rest client hcontrol hc hlength hwaits

/-- It is the turn of the next client, or of nobody any more. -/
theorem offer_calm_iff (hstep : Hub.step .offer h = some h') : ¬ Stalled h' ↔ Calm h .offer := by
  rcases Hub.offer_cases hstep with ⟨m, hranging, rfl⟩ | ⟨m, c, rest, client, hranging, hc, hturn⟩
  · refine iff_of_true (not_stalled_of_control (by simp)) ?_
    intro m' c' rest' client' hranging'
    rw [hranging] at hranging'
    cases hranging'
  · -- what the condition says about the client whose turn it is
    have hoffer : Calm h .offer ↔
        (client.isSubscribed m = true → client.hasRoom = false → ¬ Waits h m rest) := by
      constructor
      · intro hall
        exact hall m c rest client hranging hc
      · intro hone m' c' rest' client' hranging' hc'
        rw [hranging] at hranging'
        cases hranging'
        rw [hc, Option.some.injEq] at hc'
        subst hc'
        exact hone
    rw [hoffer]
    rcases hturn with ⟨hsub, rfl⟩ | ⟨hsub, hroom, rfl⟩ | ⟨hsub, hfull, rfl⟩
    · exact iff_of_true (not_stalled_of_control (by simp)) (by simp [hsub])
    · exact iff_of_true (not_stalled_of_control (by simp)) (by simp [hroom])
    · rw [offer_stalls_iff hc hfull]
      simp [hsub, hfull]

/-- **One step** does not stall the hub exactly if it is calm. -/
theorem not_stalled_step (hcalm : ¬ Stalled h) (hstep : Hub.step l h = some h') :
    ¬ Stalled h' ↔ Calm h l := by
  cases l with
  | toggle c subscriptionType id isSubscribe => exact toggle_calm_iff hcalm hstep
  | pong c => exact pong_calm_iff hcalm hstep
  | offer => exact offer_calm_iff hstep
  | connect c clientId =>
    simp only [Hub.step] at hstep
    split at hstep
    · rename_i hnew
      cases hstep
      rw [connect_stalls_iff hnew]
      simp only [Calm, not_exists]
    · cases hstep
  | publish m =>
    cases hstep
    rw [publish_stalls_iff]
    simp only [Calm, not_exists]
  | register c =>
    -- the hub is in its `select`, so it is not blocked
    obtain ⟨client, hselecting, -, -, rfl⟩ := Hub.register_cases hstep
    exact iff_of_true (not_stalled_of_control (by simp [hselecting])) trivial
  | unregister c =>
    obtain ⟨client, hselecting, -, -, rfl⟩ := Hub.unregister_cases hstep
    exact iff_of_true (not_stalled_of_control (by simp [hselecting])) trivial
  | take m order =>
    obtain ⟨-, -, -, rfl⟩ := Hub.take_cases hstep
    exact iff_of_true (not_stalled_of_control (by simp)) trivial
  | send =>
    -- it has been blocked, and is not any more
    obtain ⟨m, c, rest, client, -, -, -, rfl⟩ := Hub.send_cases hstep
    exact iff_of_true (not_stalled_of_control (by simp)) trivial
  | close c =>
    obtain ⟨client, hc, -, rfl⟩ := Hub.edit_cases hstep
    exact iff_of_true (not_stalled_of_eases hcalm hc ⟨id, by simp, fun _ => id⟩) trivial
  | ping c | written c | socket c accepts =>
    obtain ⟨client, hc, -, rfl⟩ := Hub.edit_cases hstep
    exact iff_of_true (not_stalled_of_eases hcalm hc ⟨id, id, fun _ => id⟩) trivial
  | write c =>
    obtain ⟨client, hc, -, rfl⟩ := Hub.edit_cases hstep
    refine iff_of_true (not_stalled_of_eases hcalm hc ⟨?_, id, fun _ => id⟩) trivial
    -- the queue has become shorter
    simp only [Client.hasRoom, List.length_tail, decide_eq_false_iff_not]
    omega

end Steps

/-! ## Traces -/

section Runs

variable {h : Hub} {past : List (Hub × Label)}

theorem not_stalled_start : ¬ Stalled Hub.start := not_stalled_of_control (by simp [Hub.start])

/-- **The hub never stalls** in a trace if and only if all its steps are calm. -/
theorem never_stalled_iff (htrace : Trace Hub.step .start past h) :
    ((∀ x ∈ past, ¬ Stalled x.1) ∧ ¬ Stalled h) ↔ ∀ x ∈ past, Calm x.1 x.2 :=
  htrace.always_iff (fun _ _ _ => not_stalled_step) not_stalled_start

/-- An update of task 1. -/
def taskUpdate : SubscribeMessage := ⟨"TASK", 1, ""⟩

/-- A client subscribes to a task and gets an update of it. -/
theorem never_stalled_iff_onePush : ∃ past h, Trace Hub.step .start past h ∧
    past.map Prod.snd = [.offer, .offer, .take taskUpdate [0], .publish taskUpdate,
      .toggle 0 "TASK" 1 true, .register 0, .connect 0 5] ∧
    (∀ x ∈ past, ¬ Stalled x.1) ∧ ¬ Stalled h := by
  have htrace : ∃ past h, Trace Hub.step .start past h ∧
      past.map Prod.snd = [.offer, .offer, .take taskUpdate [0], .publish taskUpdate,
        .toggle 0 "TASK" 1 true, .register 0, .connect 0 5] ∧ ∀ x ∈ past, Calm x.1 x.2 := by
    refine ⟨_, _, .snoc (.snoc (.snoc (.snoc (.snoc (.snoc (.snoc .nil rfl) rfl) rfl) rfl) rfl) rfl)
      rfl, rfl, ?_⟩
    simp only [List.forall_mem_cons]
    refine ⟨?ended, ?offer, trivial, ?publish, ?toggle, trivial, ?connect, nofun⟩
    case ended =>
      intro m c rest client hcontrol
      cases hcontrol
    case offer =>
      -- the queue is empty
      intro m c rest client hcontrol hc hsub hfull
      cases hcontrol
      cases hc
      cases hfull
    case publish =>
      rintro m c rest ⟨hcontrol, -⟩
      cases hcontrol
    case toggle =>
      rintro m c rest ⟨hcontrol, -⟩
      cases hcontrol
    case connect =>
      rintro m c rest ⟨hcontrol, -⟩
      cases hcontrol
  obtain ⟨past, h, htrace, hlabels, hcalm⟩ := htrace
  exact ⟨past, h, htrace, hlabels, (never_stalled_iff htrace).mpr hcalm⟩

/-- Every queue that the hub comes to with a message has room. -/
def FindsRoom (h : Hub) : Label → Prop
  | .offer => ∀ m c rest client, h.control = .ranging m (c :: rest) → h.conns c = some client →
      client.isSubscribed m = true → client.hasRoom = true
  | _ => True

/-- **If every queue has room**, the hub is never blocked at all. -/
theorem never_sending_of_room (htrace : Trace Hub.step .start past h)
    (hroom : ∀ x ∈ past, FindsRoom x.1 x.2) :
    (∀ x ∈ past, ∀ m c rest, x.1.control ≠ .sending m c rest) ∧
      ∀ m c rest, h.control ≠ .sending m c rest := by
  refine htrace.always (P := fun h => ∀ m c rest, h.control ≠ .sending m c rest) ?_ (by simp [Hub.start])
    hroom
  intro h l h' hnot hfinds hstep
  cases l with
  | connect c clientId =>
    simp only [Hub.step] at hstep
    split at hstep
    · cases hstep
      exact hnot
    · cases hstep
  | publish m =>
    cases hstep
    exact hnot
  | register c =>
    obtain ⟨client, -, -, -, rfl⟩ := Hub.register_cases hstep
    exact hnot
  | unregister c =>
    obtain ⟨client, -, -, -, rfl⟩ := Hub.unregister_cases hstep
    exact hnot
  | take m order =>
    obtain ⟨-, -, -, rfl⟩ := Hub.take_cases hstep
    simp
  | send =>
    obtain ⟨m, c, rest, client, -, -, -, rfl⟩ := Hub.send_cases hstep
    simp
  | offer =>
    rcases Hub.offer_cases hstep with ⟨m, -, rfl⟩ | ⟨m, c, rest, client, hranging, hc, hturn⟩
    · simp
    · rcases hturn with ⟨-, rfl⟩ | ⟨-, -, rfl⟩ | ⟨hsub, hfull, rfl⟩
      · simp
      · simp
      · rw [hfinds m c rest client hranging hc hsub] at hfull
        cases hfull
  | close c | toggle c _ _ _ | ping c | pong c | write c | written c | socket c _ =>
    obtain ⟨client, -, -, rfl⟩ := Hub.edit_cases hstep
    exact hnot

end Runs

/-! ## One client -/

section OneClient

/-- The hub with one connection, registered under 5. -/
def oneClient (client : Client) (control : Control) (publishers : List SubscribeMessage) : Hub where
  conns := Function.update (fun _ => none) 0 (some client)
  clientList := (∅ : AList fun _ : Int => Nat).insert 5 0
  control := control
  publishers := publishers

/-- The client once it has subscribed to the task. -/
def subscriber : Client where
  id := 5
  phase := .serving
  subscribed := insert ("TASK", 1) ∅

theorem oneClient_subscribes :
    ∃ past, Trace Hub.step .start past (oneClient subscriber .selecting []) := by
  have hregister : Hub.step (.register 0)
      { Hub.start with conns := Function.update Hub.start.conns 0 (some { id := 5 }) } =
      some (oneClient { id := 5, phase := .serving } .selecting []) := by
    simp [Hub.step, Hub.register, Hub.start, oneClient]
  have htoggle : Hub.step (.toggle 0 "TASK" 1 true)
      (oneClient { id := 5, phase := .serving } .selecting []) =
      some (oneClient subscriber .selecting []) := by
    simp [Hub.step, Hub.edit, oneClient, subscriber, Client.registered, Client.toggleSubscribe]
  exact ⟨_, .snoc (.snoc (.single (l := .connect 0 5) rfl) hregister) htoggle⟩

/-- An update is pushed to the client. -/
theorem oneClient_pushed (client : Client) (hsub : client.isSubscribed taskUpdate = true)
    (hroom : client.hasRoom = true) : ∃ past, Trace Hub.step (oneClient client .selecting []) past
      (oneClient (client.push (.update taskUpdate)) .selecting []) := by
  have hpublish : Hub.step (.publish taskUpdate) (oneClient client .selecting []) =
      some (oneClient client .selecting [taskUpdate]) := rfl
  have htake : Hub.step (.take taskUpdate [0]) (oneClient client .selecting [taskUpdate]) =
      some (oneClient client (.ranging taskUpdate [0]) []) := rfl
  have hoffer : Hub.step .offer (oneClient client (.ranging taskUpdate [0]) []) =
      some (oneClient (client.push (.update taskUpdate)) (.ranging taskUpdate []) []) := by
    simp [Hub.step, Hub.offer, oneClient, hsub, hroom]
  have hover : Hub.step .offer
      (oneClient (client.push (.update taskUpdate)) (.ranging taskUpdate []) []) =
      some (oneClient (client.push (.update taskUpdate)) .selecting []) := rfl
  exact ⟨_, .snoc (.snoc (.snoc (.single hpublish) htake) hoffer) hover⟩

/-- The client after its socket has stopped: the writer is stuck with one update, and `n` more are in
    the queue. -/
def stuckClient (n : Nat) : Client :=
  { subscriber with
    message := List.replicate n (.update taskUpdate)
    writing := some (.update taskUpdate)
    accepts := false }

theorem oneClient_stuck : ∃ past,
    Trace Hub.step .start past (oneClient (stuckClient 0) .selecting []) := by
  obtain ⟨past, hsubscribed⟩ := oneClient_subscribes
  obtain ⟨past', hpushed⟩ := oneClient_pushed subscriber rfl rfl
  have hwrite : Hub.step (.write 0)
      (oneClient (subscriber.push (.update taskUpdate)) .selecting []) =
      some (oneClient { stuckClient 0 with accepts := true } .selecting []) := by
    simp [Hub.step, Hub.edit, oneClient, subscriber, stuckClient, Client.push]
  have hsocket : Hub.step (.socket 0 false)
      (oneClient { stuckClient 0 with accepts := true } .selecting []) =
      some (oneClient (stuckClient 0) .selecting []) := by
    simp [Hub.step, Hub.edit, oneClient, subscriber, stuckClient]
  exact ⟨_, .snoc (.snoc (hsubscribed.append hpushed) hwrite) hsocket⟩

/-- The queue fills up, at one update at a time. -/
theorem oneClient_filled (n : Nat) (hn : n ≤ capacity) : ∃ past,
    Trace Hub.step .start past (oneClient (stuckClient n) .selecting []) := by
  induction n with
  | zero => exact oneClient_stuck
  | succ n ih =>
    obtain ⟨past, hfilled⟩ := ih (by omega)
    have hroom : (stuckClient n).hasRoom = true := by
      simp only [Client.hasRoom, stuckClient, List.length_replicate, decide_eq_true_eq]
      omega
    obtain ⟨past', hpushed⟩ := oneClient_pushed (stuckClient n) rfl hroom
    have hone : (stuckClient n).push (.update taskUpdate) = stuckClient (n + 1) := by
      simp only [Client.push, stuckClient, List.replicate_succ']
    rw [hone] at hpushed
    exact ⟨_, hfilled.append hpushed⟩

end OneClient

/-- **A slow browser stalls the hub**: its socket takes nothing any more, its queue is full, and of two
    runs of the task that have something for it, one is in `Manager.Start` and the other waits. -/
theorem slow_browser_stalls : ¬ ∀ past h, Trace Hub.step .start past h → ¬ Stalled h := by
  intro hnever
  obtain ⟨past, hfilled⟩ := oneClient_filled capacity le_rfl
  have hfull : (stuckClient capacity).hasRoom = false := by
    simp [Client.hasRoom, stuckClient]
  have hpublish : Hub.step (.publish taskUpdate) (oneClient (stuckClient capacity) .selecting []) =
      some (oneClient (stuckClient capacity) .selecting [taskUpdate]) := rfl
  have hpublish' : Hub.step (.publish taskUpdate)
      (oneClient (stuckClient capacity) .selecting [taskUpdate]) =
      some (oneClient (stuckClient capacity) .selecting [taskUpdate, taskUpdate]) := rfl
  have htake : Hub.step (.take taskUpdate [0])
      (oneClient (stuckClient capacity) .selecting [taskUpdate, taskUpdate]) =
      some (oneClient (stuckClient capacity) (.ranging taskUpdate [0]) [taskUpdate]) := rfl
  have hoffer : Hub.step .offer
      (oneClient (stuckClient capacity) (.ranging taskUpdate [0]) [taskUpdate]) =
      some (oneClient (stuckClient capacity) (.sending taskUpdate 0 []) [taskUpdate]) := by
    have hsub : (stuckClient capacity).isSubscribed taskUpdate = true := rfl
    simp [Hub.step, Hub.offer, oneClient, hsub, hfull]
  refine hnever _ _ (.snoc (.snoc (.snoc (.snoc hfilled hpublish) hpublish') htake) hoffer) ?_
  refine ⟨taskUpdate, 0, [], ⟨rfl, stuckClient capacity, ?_, hfull⟩, .inl (List.cons_ne_nil _ _)⟩
  exact Function.update_self (0 : Nat) (some (stuckClient capacity)) fun _ => none

end Gonitor.Web.Ws
