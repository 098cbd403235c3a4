import Gonitor.Web.Hub

/-!
# What Becomes of a Message

A message of the server is published, taken over by the hub, offered to the clients that are in
`ClientList`, put in the queues of those that are subscribed, and written to their sockets.  At each of
these places it can wait, and at none it is lost, doubled or overtaken.

## Main Results

- `delivered_in_order`: for each connection, what has been written and what waits is what has been
  queued, that is what was due at the client's turns, and the turns are for the messages that have been
  taken while it was in `ClientList`, each once and in order.
-/

namespace Gonitor.Web.Ws

open LabelledTraces
open AtomicProgram (update_eq_some)

/-! ## What waits -/

namespace Hub

/-- The queue of a connection. -/
def queue (h : Hub) (c : Nat) : List Frame := (h.conns c).elim [] Client.message

/-- The message that the hub is sending to the connection, as its queue is full. -/
def blocked (h : Hub) (c : Nat) : List SubscribeMessage :=
  match h.control with
  | .sending m c' _ => if c' = c then [m] else []
  | _ => []

/-- The message that the hub has taken, if the turn of the connection is to come. -/
def waiting (h : Hub) (c : Nat) : List SubscribeMessage :=
  match h.control with
  | .selecting => []
  | .ranging m rest | .sending m _ rest => if c ∈ rest then [m] else []

end Hub

/-! ## What a step records -/

/-- A message is published. -/
def published : Hub × Label → List SubscribeMessage
  | (_, .publish m) => [m]
  | _ => []

/-- The hub takes a message over. -/
def taken : Hub × Label → List SubscribeMessage
  | (_, .take m _) => [m]
  | _ => []

/-- The hub takes a message over while the connection is in `ClientList`. -/
def takenFor (c : Nat) (x : Hub × Label) : List SubscribeMessage :=
  (taken x).filter fun _ => decide (c ∈ x.1.clientList.entries.map Sigma.snd)

/-- It is the connection's turn. -/
def turns (c : Nat) : Hub × Label → List SubscribeMessage
  | (h, .offer) =>
    match h.control with
    | .ranging m (c' :: _) => if c' = c then [m] else []
    | _ => []
  | _ => []

/-- It is the connection's turn, and it is subscribed. -/
def due (c : Nat) (x : Hub × Label) : List SubscribeMessage :=
  (turns c x).filter fun m => (x.1.conns c).any fun client => client.isSubscribed m

/-- An update is put in the queue of the connection: at its turn if there is room, or later. -/
def updates (c : Nat) : Hub × Label → List SubscribeMessage
  | (h, .offer) => (due c (h, .offer)).filter fun _ => (h.conns c).any Client.hasRoom
  | (h, .send) => h.blocked c
  | _ => []

/-- A frame is put in its queue. -/
def queued (c : Nat) : Hub × Label → List Frame
  | (_, .pong c') => if c' = c then [.pong] else []
  | x => (updates c x).map .update

/-- A frame is taken from its queue, to be written to the socket. -/
def written (c : Nat) : Hub × Label → List Frame
  | (h, .write c') => if c' = c then (h.queue c).head?.toList else []
  | _ => []

section Steps

variable {h h' : Hub} {l : Label} {c c' : Nat} {client client' : Client}

/-! ## The queues -/

theorem queue_eq (hc : h.conns c = some client) : h.queue c = client.message := by
  simp [Hub.queue, hc]

@[simp] theorem queue_update {clientList : AList fun _ : Int => Nat} {control : Control}
    {publishers : List SubscribeMessage} :
    Hub.queue ⟨Function.update h.conns c' (some client'), clientList, control, publishers⟩ c =
      if c = c' then client'.message else h.queue c := by
  simp only [Hub.queue, Function.update_apply]
  split <;> rfl

/-- Another part of a connection changes. -/
theorem queue_same {clientList : AList fun _ : Int => Nat} {control : Control}
    {publishers : List SubscribeMessage} (hc : h.conns c' = some client)
    (hmessage : client'.message = client.message) :
    Hub.queue ⟨Function.update h.conns c' (some client'), clientList, control, publishers⟩ c =
      h.queue c := by
  rw [queue_update, hmessage, ← queue_eq hc]
  split <;> simp [*]

/-- **A queue** gives out what it takes in. -/
theorem written_append_queue (c : Nat) (hstep : Hub.step l h = some h') :
    written c (h, l) ++ h'.queue c = h.queue c ++ queued c (h, l) := by
  cases l with
  | connect c' clientId =>
    obtain ⟨hnone, heq⟩ := Option.ite_none_right_eq_some.mp hstep
    cases heq
    rw [queue_update]
    split
    · rename_i heq
      subst heq
      simp [written, queued, updates, Hub.queue, Option.isNone_iff_eq_none.mp hnone]
    · simp [written, queued, updates]
  | register c' =>
    obtain ⟨client, -, hc, -, rfl⟩ := Hub.register_cases hstep
    rw [queue_same hc]
    · simp [written, queued, updates]
    · rfl
  | unregister c' =>
    obtain ⟨client, hcontrol, hc, -, rfl⟩ := Hub.unregister_cases hstep
    rw [queue_same hc]
    · simp [written, queued, updates]
    · rfl
  | close c' | toggle c' _ _ _ | ping c' | written c' | socket c' _ =>
    obtain ⟨client, hc, -, rfl⟩ := Hub.edit_cases hstep
    rw [queue_same hc]
    · simp [written, queued, updates]
    · rfl
  | pong c' =>
    obtain ⟨client, hc, -, rfl⟩ := Hub.edit_cases hstep
    rw [queue_update]
    split
    · rename_i heq
      subst heq
      simp [written, queued, queue_eq hc, Client.push]
    · rename_i hne
      simp [written, queued, Ne.symm hne]
  | write c' =>
    obtain ⟨client, hc, hguard, rfl⟩ := Hub.edit_cases hstep
    rw [queue_update]
    split
    · rename_i heq
      subst heq
      obtain ⟨frame, rest, hmessage⟩ : ∃ frame rest, client.message = frame :: rest := by
        rw [← List.ne_nil_iff_exists_cons]
        simp_all
      simp [written, queued, updates, queue_eq hc, hmessage]
    · rename_i hne
      simp [written, queued, updates, Ne.symm hne]
  | publish m =>
    cases hstep
    simp [written, queued, updates, Hub.queue]
  | take m order =>
    obtain ⟨-, -, -, rfl⟩ := Hub.take_cases hstep
    simp [written, queued, updates, Hub.queue]
  | offer =>
    rcases Hub.offer_cases hstep with ⟨m, hcontrol, rfl⟩ | ⟨m, c', rest, client, hcontrol, hc, hturn⟩
    · simp [written, queued, updates, due, turns, hcontrol, Hub.queue]
    · by_cases heq : c' = c
      · subst heq
        rcases hturn with ⟨hsub, rfl⟩ | ⟨hsub, hroom, rfl⟩ | ⟨hsub, hfull, rfl⟩
        · simp [written, queued, updates, due, turns, hcontrol, hc, hsub, Hub.queue]
        · simp [written, queued, updates, due, turns, hcontrol, hc, hsub, hroom, queue_eq hc, Client.push]
        · simp [written, queued, updates, due, turns, hcontrol, hc, hsub, hfull, Hub.queue]
      · have hnot : c ≠ c' := Ne.symm heq
        rcases hturn with ⟨hsub, rfl⟩ | ⟨hsub, hroom, rfl⟩ | ⟨hsub, hfull, rfl⟩
        · simp [written, queued, updates, due, turns, hcontrol, heq, Hub.queue]
        · simp [written, queued, updates, due, turns, hcontrol, heq, hnot]
        · simp [written, queued, updates, due, turns, hcontrol, heq, Hub.queue]
  | send =>
    obtain ⟨m, c', rest, client, hcontrol, hc, -, rfl⟩ := Hub.send_cases hstep
    by_cases heq : c' = c
    · subst heq
      simp [written, queued, updates, Hub.blocked, hcontrol, queue_eq hc, Client.push]
    · simp [written, queued, updates, Hub.blocked, hcontrol, heq, Ne.symm heq]

/-! ## The loop of the hub -/

/-- The loop of the hub has got a step further. -/
inductive Advances (h : Hub) : Label → Control → Prop
  | take {m : SubscribeMessage} {order : List Nat} (hcontrol : h.control = .selecting)
      (horder : order.Perm (h.clientList.entries.map Sigma.snd)) :
      Advances h (.take m order) (.ranging m order)
  | done {m : SubscribeMessage} (hcontrol : h.control = .ranging m []) :
      Advances h .offer .selecting
  | passed {m : SubscribeMessage} {c : Nat} {rest : List Nat} {client : Client}
      (hcontrol : h.control = .ranging m (c :: rest)) (hc : h.conns c = some client)
      (hpassed : client.isSubscribed m = true → client.hasRoom = true) :
      Advances h .offer (.ranging m rest)
  | blocked {m : SubscribeMessage} {c : Nat} {rest : List Nat} {client : Client}
      (hcontrol : h.control = .ranging m (c :: rest)) (hc : h.conns c = some client)
      (hsub : client.isSubscribed m = true) (hfull : client.hasRoom = false) :
      Advances h .offer (.sending m c rest)
  | sent {m : SubscribeMessage} {c : Nat} {rest : List Nat} (hcontrol : h.control = .sending m c rest) :
      Advances h .send (.ranging m rest)

/-- The step has nothing to do with the loop. -/
def Aside : Label → Prop
  | .take _ _ | .offer | .send => False
  | _ => True

theorem advances_of_step (hstep : Hub.step l h = some h') :
    (Aside l ∧ h'.control = h.control) ∨ Advances h l h'.control := by
  cases l with
  | connect c clientId =>
    obtain ⟨-, heq⟩ := Option.ite_none_right_eq_some.mp hstep
    cases heq
    exact .inl ⟨trivial, rfl⟩
  | publish m =>
    cases hstep
    exact .inl ⟨trivial, rfl⟩
  | register c =>
    obtain ⟨client, -, -, -, rfl⟩ := Hub.register_cases hstep
    exact .inl ⟨trivial, rfl⟩
  | unregister c =>
    obtain ⟨client, -, -, -, rfl⟩ := Hub.unregister_cases hstep
    exact .inl ⟨trivial, rfl⟩
  | close c | toggle c _ _ _ | ping c | pong c | write c | written c | socket c _ =>
    obtain ⟨client, -, -, rfl⟩ := Hub.edit_cases hstep
    exact .inl ⟨trivial, rfl⟩
  | take m order =>
    obtain ⟨hcontrol, -, horder, rfl⟩ := Hub.take_cases hstep
    exact .inr (.take hcontrol horder)
  | offer =>
    right
    rcases Hub.offer_cases hstep with ⟨m, hcontrol, rfl⟩ | ⟨m, c, rest, client, hcontrol, hc, hturn⟩
    · exact .done hcontrol
    · rcases hturn with ⟨hsub, rfl⟩ | ⟨-, hroom, rfl⟩ | ⟨hsub, hfull, rfl⟩
      · exact .passed hcontrol hc (by simp [hsub])
      · exact .passed hcontrol hc fun _ => hroom
      · exact .blocked hcontrol hc hsub hfull
  | send =>
    obtain ⟨m, c, rest, client, hcontrol, -, -, rfl⟩ := Hub.send_cases hstep
    exact .inr (.sent hcontrol)

/-- The connections that the hub still comes to, also the one that it is sending to. -/
def Control.upcoming : Control → List Nat
  | .selecting => []
  | .ranging _ rest => rest
  | .sending _ c rest => c :: rest

theorem Hub.blocked_eq (hcontrol : h.control = h'.control) : h.blocked c = h'.blocked c := by
  simp only [Hub.blocked, hcontrol]

theorem Hub.waiting_eq (hcontrol : h.control = h'.control) : h.waiting c = h'.waiting c := by
  simp only [Hub.waiting, hcontrol]

/-- **A turn** puts the message in the queue, or blocks the hub until it does. -/
theorem updates_append_blocked (c : Nat) (hstep : Hub.step l h = some h') :
    updates c (h, l) ++ h'.blocked c = h.blocked c ++ due c (h, l) := by
  rcases advances_of_step hstep with ⟨haside, hcontrol⟩ | hadvances
  · rw [Hub.blocked_eq hcontrol]
    cases l <;> first | exact haside.elim | simp [updates, due, turns]
  · generalize hcontrol' : h'.control = control at hadvances
    cases hadvances with
    | take hcontrol horder =>
      simp [updates, due, turns, Hub.blocked, hcontrol, hcontrol']
    | done hcontrol => simp [updates, due, turns, Hub.blocked, hcontrol, hcontrol']
    | sent hcontrol => simp [updates, due, turns, Hub.blocked, hcontrol']
    | @passed m c' rest client hcontrol hc hpassed =>
      by_cases heq : c' = c
      · subst heq
        cases hsub : client.isSubscribed m
        · simp [updates, due, turns, Hub.blocked, hcontrol, hcontrol', hc, hsub]
        · simp [updates, due, turns, Hub.blocked, hcontrol, hcontrol', hc, hsub, hpassed hsub]
      · simp [updates, due, turns, Hub.blocked, hcontrol, hcontrol', heq]
    | @blocked m c' rest client hcontrol hc hsub hfull =>
      by_cases heq : c' = c
      · subst heq
        simp [updates, due, turns, Hub.blocked, hcontrol, hcontrol', hc, hsub, hfull]
      · simp [updates, due, turns, Hub.blocked, hcontrol, hcontrol', heq]

/-- **A message that is taken** gives one turn to each connection in `ClientList`. -/
theorem turns_append_waiting (c : Nat) (hnodup : h.control.upcoming.Nodup)
    (hstep : Hub.step l h = some h') :
    turns c (h, l) ++ h'.waiting c = h.waiting c ++ takenFor c (h, l) := by
  rcases advances_of_step hstep with ⟨haside, hcontrol⟩ | hadvances
  · rw [Hub.waiting_eq hcontrol]
    cases l <;> first | exact haside.elim | simp [turns, takenFor, taken]
  · generalize hcontrol' : h'.control = control at hadvances
    cases hadvances with
    | @take m order hcontrol horder =>
      have hmem : c ∈ order ↔ c ∈ h.clientList.entries.map Sigma.snd := horder.mem_iff
      by_cases hlisted : c ∈ order
      · simp [turns, takenFor, taken, Hub.waiting, hcontrol, hcontrol', hlisted, ← hmem]
      · simp [turns, takenFor, taken, Hub.waiting, hcontrol, hcontrol', hlisted, ← hmem]
    | done hcontrol => simp [turns, takenFor, taken, Hub.waiting, hcontrol, hcontrol']
    | sent hcontrol => simp [turns, takenFor, taken, Hub.waiting, hcontrol, hcontrol']
    | @passed m c' rest client hcontrol hc hpassed =>
      rw [hcontrol] at hnodup
      have hnot := (List.nodup_cons.mp hnodup).1
      by_cases heq : c' = c
      · subst heq
        simp [turns, takenFor, taken, Hub.waiting, hcontrol, hcontrol', hnot]
      · simp [turns, takenFor, taken, Hub.waiting, hcontrol, hcontrol', heq, Ne.symm heq]
    | @blocked m c' rest client hcontrol hc hsub hfull =>
      rw [hcontrol] at hnodup
      have hnot := (List.nodup_cons.mp hnodup).1
      by_cases heq : c' = c
      · subst heq
        simp [turns, takenFor, taken, Hub.waiting, hcontrol, hcontrol', hnot]
      · simp [turns, takenFor, taken, Hub.waiting, hcontrol, hcontrol', heq, Ne.symm heq]

/-! ## No connection is listed twice -/

/-- The connections of `ClientList` are there under their own ids, and the hub comes to each once. -/
structure Orderly (h : Hub) : Prop where
  listed : ∀ id c, h.clientList.lookup id = some c → ∃ client, h.conns c = some client ∧ client.id = id
  upcoming : h.control.upcoming.Nodup

theorem orderly_start : Orderly Hub.start where
  listed id c hlookup := by simp [Hub.start] at hlookup
  upcoming := List.nodup_nil

/-- A connection is under one id only. -/
theorem Orderly.nodup (horderly : Orderly h) : (h.clientList.entries.map Sigma.snd).Nodup := by
  have hentries : h.clientList.entries.Nodup := List.NodupKeys.nodup h.clientList.nodupKeys
  refine List.Nodup.map_on ?_ hentries
  rintro ⟨id, c⟩ hmem ⟨id', c'⟩ hmem' rfl
  obtain ⟨client, hc, rfl⟩ := horderly.listed id c (AList.mem_lookup_iff.mpr hmem)
  obtain ⟨client', hc', rfl⟩ := horderly.listed id' c (AList.mem_lookup_iff.mpr hmem')
  cases hc.symm.trans hc'
  rfl

theorem id_of_update (hconns : h'.conns = Function.update h.conns c' (some client'))
    (hc : h.conns c' = some client) (hid : client'.id = client.id) {client₁ : Client}
    (hc₁ : h.conns c = some client₁) : ∃ client₂, h'.conns c = some client₂ ∧ client₂.id = client₁.id := by
  rw [hconns, Function.update_apply]
  split
  · rename_i heq
    subst heq
    cases hc.symm.trans hc₁
    exact ⟨client', rfl, hid⟩
  · exact ⟨client₁, hc₁, rfl⟩

/-- No connection ever changes its id. -/
theorem id_of_step (hstep : Hub.step l h = some h') (hc : h.conns c = some client) :
    ∃ client', h'.conns c = some client' ∧ client'.id = client.id := by
  cases l with
  | connect c' clientId =>
    obtain ⟨hnone, heq⟩ := Option.ite_none_right_eq_some.mp hstep
    cases heq
    have hne : c ≠ c' := by
      rintro rfl
      simp [hc] at hnone
    exact ⟨client, (Function.update_of_ne hne ..).trans hc, rfl⟩
  | publish m =>
    cases hstep
    exact ⟨client, hc, rfl⟩
  | register c' =>
    obtain ⟨client₁, -, hc₁, -, rfl⟩ := Hub.register_cases hstep
    exact id_of_update rfl hc₁ (by rfl) hc
  | unregister c' =>
    obtain ⟨client₁, -, hc₁, -, rfl⟩ := Hub.unregister_cases hstep
    exact id_of_update rfl hc₁ (by rfl) hc
  | take m order =>
    obtain ⟨-, -, -, rfl⟩ := Hub.take_cases hstep
    exact ⟨client, hc, rfl⟩
  | close c' | toggle c' _ _ _ | ping c' | pong c' | write c' | written c' | socket c' _ =>
    obtain ⟨client₁, hc₁, -, rfl⟩ := Hub.edit_cases hstep
    exact id_of_update rfl hc₁ (by rfl) hc
  | offer =>
    rcases Hub.offer_cases hstep with ⟨m, -, rfl⟩ | ⟨m, c', rest, client₁, -, hc₁, hturn⟩
    · exact ⟨client, hc, rfl⟩
    · rcases hturn with ⟨-, rfl⟩ | ⟨-, -, rfl⟩ | ⟨-, -, rfl⟩
      · exact ⟨client, hc, rfl⟩
      · exact id_of_update rfl hc₁ (by rfl) hc
      · exact ⟨client, hc, rfl⟩
  | send =>
    obtain ⟨m, c', rest, client₁, -, hc₁, -, rfl⟩ := Hub.send_cases hstep
    exact id_of_update rfl hc₁ (by rfl) hc

theorem orderly_step (horderly : Orderly h) (hstep : Hub.step l h = some h') : Orderly h' where
  listed id c hlookup := by
    have hkept : ∀ id, h.clientList.lookup id = some c →
        ∃ client, h'.conns c = some client ∧ client.id = id := by
      intro id hold
      obtain ⟨client, hc, rfl⟩ := horderly.listed id c hold
      exact id_of_step hstep hc
    rcases registry_of_step hstep with ⟨c', client, rfl, hc, -, rfl⟩ |
      ⟨c', client, hc, -, -, rfl⟩ | ⟨-, hsame⟩
    · by_cases heq : id = client.id
      · subst heq
        obtain rfl : c' = c := by simpa using hlookup
        exact ⟨_, Function.update_self .., rfl⟩
      · exact hkept id (by simpa [AList.lookup_insert_ne heq] using hlookup)
    · by_cases heq : id = client.id
      · subst heq
        simp at hlookup
      · exact hkept id (by simpa [AList.lookup_erase_ne heq] using hlookup)
    · exact hkept id (hsame.clientList ▸ hlookup)
  upcoming := by
    rcases advances_of_step hstep with ⟨-, hcontrol⟩ | hadvances
    · rw [hcontrol]
      exact horderly.upcoming
    · have hupcoming := horderly.upcoming
      generalize h'.control = control at hadvances
      cases hadvances with
      | take hcontrol horder => exact horder.nodup_iff.mpr horderly.nodup
      | done hcontrol => exact List.nodup_nil
      | passed hcontrol hc hpassed =>
        rw [hcontrol] at hupcoming
        exact (List.nodup_cons.mp hupcoming).2
      | blocked hcontrol hc hsub hfull =>
        rw [hcontrol] at hupcoming
        exact hupcoming
      | sent hcontrol =>
        rw [hcontrol] at hupcoming
        exact (List.nodup_cons.mp hupcoming).2

/-! ## Publishers -/

/-- **A message that is published** waits until the hub takes it. -/
theorem taken_append_publishers (hstep : Hub.step l h = some h') :
    (taken (h, l) ++ h'.publishers).Perm (h.publishers ++ published (h, l)) := by
  cases l with
  | publish m =>
    cases hstep
    exact (List.perm_append_singleton m h.publishers).symm
  | take m order =>
    obtain ⟨-, hmem, -, rfl⟩ := Hub.take_cases hstep
    simpa [taken, published] using (List.perm_cons_erase hmem).symm
  | connect c clientId =>
    obtain ⟨-, heq⟩ := Option.ite_none_right_eq_some.mp hstep
    cases heq
    simp [taken, published]
  | register c =>
    obtain ⟨client, -, -, -, rfl⟩ := Hub.register_cases hstep
    simp [taken, published]
  | unregister c =>
    obtain ⟨client, -, -, -, rfl⟩ := Hub.unregister_cases hstep
    simp [taken, published]
  | close c | toggle c _ _ _ | ping c | pong c | write c | written c | socket c _ =>
    obtain ⟨client, -, -, rfl⟩ := Hub.edit_cases hstep
    simp [taken, published]
  | offer =>
    rcases Hub.offer_cases hstep with ⟨m, -, rfl⟩ | ⟨m, c, rest, client, -, -, hturn⟩
    · simp [taken, published]
    · rcases hturn with ⟨-, rfl⟩ | ⟨-, -, rfl⟩ | ⟨-, -, rfl⟩ <;> simp [taken, published]
  | send =>
    obtain ⟨m, c, rest, client, -, -, -, rfl⟩ := Hub.send_cases hstep
    simp [taken, published]

end Steps

/-! ## Runs -/

/-- **Nothing is lost, doubled or overtaken**: for each connection, what has been written and what waits
    in its queue is what has been put there; the updates put there, and the one that blocks the hub, are
    those that were due at its turns; and it has had a turn for each message that was taken while it was
    in `ClientList`, but for one whose turn is to come.  All of this is in order.  The messages that have
    been taken and those that wait are the ones that have been published. -/
theorem delivered_in_order {past : List (Hub × Label)} {h : Hub} (htrace : Trace Hub.step .start past h)
    (c : Nat) :
    record (written c) past ++ h.queue c = record (queued c) past ∧
    record (updates c) past ++ h.blocked c = record (due c) past ∧
    record (turns c) past ++ h.waiting c = record (takenFor c) past ∧
    (record taken past ++ h.publishers).Perm (record published past) := by
  have hkeep : ∀ (h : Hub) (l : Label) (h' : Hub), Orderly h → Hub.step l h = some h' → Orderly h' :=
    fun _ _ _ => orderly_step
  refine ⟨?_, ?_, ?_, ?_⟩
  · exact htrace.ledger hkeep (fun _ _ _ _ => written_append_queue c) orderly_start
  · exact htrace.ledger hkeep (fun _ _ _ _ => updates_append_blocked c) orderly_start
  · exact htrace.ledger hkeep (fun _ _ _ hI => turns_append_waiting c hI.upcoming) orderly_start
  · exact htrace.ledger_perm fun _ _ _ => taken_append_publishers

/-- A client subscribes, and a message goes all the way to its socket. -/
theorem delivered_in_order_one : ∃ past h, Trace Hub.step .start past h ∧
    record published past = [⟨"TASK", 1, ""⟩] ∧
    record (written 0) past = [.update ⟨"TASK", 1, ""⟩] ∧
    record (queued 0) past = [.update ⟨"TASK", 1, ""⟩] := by
  obtain ⟨past, h, htake, hpublished, hwritten, hqueue⟩ : ∃ past h,
      take Hub.step [.connect 0 5, .register 0, .toggle 0 "TASK" 1 true, .publish ⟨"TASK", 1, ""⟩,
        .take ⟨"TASK", 1, ""⟩ [0], .offer, .offer, .write 0] [] .start = some (past, h) ∧
      record published past = [⟨"TASK", 1, ""⟩] ∧
      record (written 0) past = [.update ⟨"TASK", 1, ""⟩] ∧ h.queue 0 = [] :=
    ⟨_, _, rfl, rfl, rfl, rfl⟩
  have htrace := Trace.nil.of_take htake
  refine ⟨past, h, htrace, hpublished, hwritten, ?_⟩
  simpa [hwritten, hqueue] using (delivered_in_order htrace 0).1.symm

end Gonitor.Web.Ws
