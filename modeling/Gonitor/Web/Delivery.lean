import Gonitor.Web.Hub

/-!
# The Subscriptions of a Client

`Client.subscribed` is a map of maps: under each type the ids that are subscribed to, each with the
value true.  Two readers look at it in different ways.  `IsSubscribed` asks whether there is an
entry, `SendSubscribedInfo` whether its value is true, and takes a missing inner map for an empty
one.  One writer, `toggleSubscribe`, makes inner maps on demand and deletes single entries.

The hub (`Client.toggleSubscribe`, `Client.isSubscribed`) has a set of pairs instead.

## Main Results

- `entry_run`: there is an entry exactly for the pairs whose last operation was a subscribe.
- `delivery_follows`: so both readers answer as the last operation says.
- `Represents.toggle`, `Represents.newTaskLog`: the set of pairs of the hub represents the maps.
-/

namespace Gonitor.Web.Ws

/-! ## The map of maps -/

/-- `SubscribeStruct` -/
abbrev SubscribeStruct := AList (fun _ : String => AList (fun _ : Int => Bool))

def subscribeTypeTask : String := "TASK"
def subscribeTypeTaskLog : String := "TASK_LOG"
def subscribeTypeTaskLogAdd : String := "TASK_LOG_ADD"

/-- `subscribed[subscriptionType]`; an inner map that is not there is read like an empty one. -/
def inner (subscribed : SubscribeStruct) (subscriptionType : String) : AList (fun _ : Int => Bool) :=
  (subscribed.lookup subscriptionType).getD ∅

/-- The part of a client that its subscriptions decide on: the map, and what has been put in its
    queue, the latest last. -/
structure Subscriber where
  subscribed : SubscribeStruct
  message : List Frame

namespace Subscriber

/-- `StartAllService` -/
def started : Subscriber where
  subscribed := (((∅ : SubscribeStruct).insert subscribeTypeTask ∅).insert subscribeTypeTaskLog
    ∅).insert subscribeTypeTaskLogAdd ∅
  message := []

/-- The first lines of `toggleSubscribe`: an inner map for the type. -/
def withType (subscribed : SubscribeStruct) (subscriptionType : String) : SubscribeStruct :=
  match subscribed.lookup subscriptionType with
  | some _ => subscribed
  | none => subscribed.insert subscriptionType ∅

/-- `toggleSubscribe` -/
def toggleSubscribe (client : Subscriber) (subscriptionType : String) (taskId : Int)
    (isSubscribe : Bool) : Subscriber :=
  let subscribed := withType client.subscribed subscriptionType
  let typeMap := inner subscribed subscriptionType
  { client with
    subscribed := subscribed.insert subscriptionType
      (if ¬ isSubscribe then typeMap.erase taskId else typeMap.insert taskId isSubscribe) }

/-- `IsSubscribed` -/
def isSubscribed (client : Subscriber) (subscriptionType : String) (taskId : Int) : Bool :=
  match client.subscribed.lookup subscriptionType with
  | none => false
  | some subscriptionTypeMap =>
    match subscriptionTypeMap.lookup taskId with
    | none => false
    | some _ => true

/-- `SendSubscribedInfo` -/
def sendSubscribedInfo (client : Subscriber) (m : SubscribeMessage) : Subscriber :=
  match (inner client.subscribed m.subscriptionType).lookup m.id with
  | none => client
  | some isOpen =>
    if ¬ isOpen then client else { client with message := client.message ++ [.update m] }

/-- The loop of `SendNewTaskLogFormOrm`, for one client. -/
def newTaskLog (client : Subscriber) (taskId logId : Int) : Subscriber :=
  if client.isSubscribed subscribeTypeTaskLogAdd taskId then
    client.toggleSubscribe subscribeTypeTaskLog logId true
  else client

end Subscriber

/-! ## Runs -/

/-- What happens to a client: its page subscribes or unsubscribes, a task has got a new log, or the
    hub passes a message on. -/
inductive Operation
  | subscribe (subscriptionType : String) (taskId : Int)
  | unsubscribe (subscriptionType : String) (taskId : Int)
  | newTaskLog (taskId logId : Int)
  | broadcast (m : SubscribeMessage)

/-- One operation. -/
def Operation.perform : Operation → Subscriber → Subscriber
  | .subscribe subscriptionType taskId, client =>
    client.toggleSubscribe subscriptionType taskId true
  | .unsubscribe subscriptionType taskId, client =>
    client.toggleSubscribe subscriptionType taskId false
  | .newTaskLog taskId logId, client => client.newTaskLog taskId logId
  | .broadcast m, client => client.sendSubscribedInfo m

/-- The client after these operations, the latest first. -/
def run : List Operation → Subscriber
  | [] => .started
  | operation :: past => operation.perform (run past)

/-- Was the last operation on the pair a subscribe?  A new log subscribes to its own pair where its
    task is subscribed to. -/
def lastSubscribed : List Operation → String × Int → Bool
  | [], _ => false
  | .subscribe subscriptionType taskId :: past, pair =>
    if pair = (subscriptionType, taskId) then true else lastSubscribed past pair
  | .unsubscribe subscriptionType taskId :: past, pair =>
    if pair = (subscriptionType, taskId) then false else lastSubscribed past pair
  | .newTaskLog taskId logId :: past, pair =>
    if pair = (subscribeTypeTaskLog, logId) ∧
        lastSubscribed past (subscribeTypeTaskLogAdd, taskId) then true
    else lastSubscribed past pair
  | .broadcast _ :: past, pair => lastSubscribed past pair

/-! ## Entries -/

/-- The value stored for a pair. -/
def entry (subscribed : SubscribeStruct) (pair : String × Int) : Option Bool :=
  (inner subscribed pair.1).lookup pair.2

@[simp] theorem inner_insert (subscribed : SubscribeStruct) (subscriptionType t : String)
    (typeMap : AList (fun _ : Int => Bool)) :
    inner (subscribed.insert subscriptionType typeMap) t =
      if t = subscriptionType then typeMap else inner subscribed t := by
  rcases eq_or_ne t subscriptionType with rfl | hne
  · simp [inner, AList.lookup_insert]
  · simp [inner, AList.lookup_insert_ne hne, hne]

@[simp] theorem inner_empty (t : String) : inner ∅ t = ∅ := by simp [inner]

/-- An inner map made on demand is empty, as it was taken to be. -/
@[simp] theorem inner_withType (subscribed : SubscribeStruct) (subscriptionType t : String) :
    inner (Subscriber.withType subscribed subscriptionType) t = inner subscribed t := by
  unfold Subscriber.withType
  split
  · rfl
  · rename_i hnone
    rw [inner_insert]
    split
    · rename_i heq
      subst heq
      simp [inner, hnone]
    · rfl

/-- There are no entries at first. -/
theorem entry_started (pair : String × Int) : entry Subscriber.started.subscribed pair = none := by
  simp only [entry, Subscriber.started, inner_insert, inner_empty]
  repeat' split
  all_goals simp

/-- An operation on a pair sets or deletes its entry, and no other. -/
theorem entry_toggleSubscribe (client : Subscriber) (subscriptionType : String) (taskId : Int)
    (isSubscribe : Bool) (pair : String × Int) :
    entry (client.toggleSubscribe subscriptionType taskId isSubscribe).subscribed pair =
      if pair = (subscriptionType, taskId) then (if isSubscribe then some true else none)
      else entry client.subscribed pair := by
  obtain ⟨t, i⟩ := pair
  simp only [entry, Subscriber.toggleSubscribe, inner_insert, inner_withType, Prod.mk.injEq]
  rcases eq_or_ne t subscriptionType with rfl | hne
  · rcases eq_or_ne i taskId with rfl | hne'
    · cases isSubscribe <;> simp
    · cases isSubscribe <;> simp [hne']
  · simp [hne]

/-- `IsSubscribed` asks for the entry. -/
theorem isSubscribed_eq (client : Subscriber) (pair : String × Int) :
    client.isSubscribed pair.1 pair.2 = (entry client.subscribed pair).isSome := by
  unfold Subscriber.isSubscribed entry inner
  cases client.subscribed.lookup pair.1 with
  | none => simp
  | some typeMap => cases htype : typeMap.lookup pair.2 <;> simp [htype]

/-- A message changes no entry. -/
@[simp] theorem subscribed_sendSubscribedInfo (client : Subscriber) (m : SubscribeMessage) :
    (client.sendSubscribedInfo m).subscribed = client.subscribed := by
  unfold Subscriber.sendSubscribedInfo
  repeat' split
  all_goals rfl

/-- **The entries** are those of the pairs whose last operation was a subscribe; their value is
    true. -/
theorem entry_run (past : List Operation) (pair : String × Int) :
    entry (run past).subscribed pair = if lastSubscribed past pair then some true else none := by
  induction past generalizing pair with
  | nil => simpa [run, lastSubscribed] using entry_started pair
  | cons operation past ih =>
    cases operation with
    | subscribe subscriptionType taskId =>
      simp only [run, Operation.perform, lastSubscribed, entry_toggleSubscribe, ih]
      split <;> simp
    | unsubscribe subscriptionType taskId =>
      simp only [run, Operation.perform, lastSubscribed, entry_toggleSubscribe, ih]
      split <;> simp
    | broadcast m =>
      change entry ((run past).sendSubscribedInfo m).subscribed pair =
        if lastSubscribed past pair then some true else none
      rw [subscribed_sendSubscribedInfo]
      exact ih pair
    | newTaskLog taskId logId =>
      -- the client is asked for the pair of the task first
      have hasked : (run past).isSubscribed subscribeTypeTaskLogAdd taskId =
          lastSubscribed past (subscribeTypeTaskLogAdd, taskId) := by
        rw [isSubscribed_eq (run past) (subscribeTypeTaskLogAdd, taskId), ih]
        split
        · rename_i hlast
          simp [hlast]
        · rename_i hlast
          simpa using hlast
      simp only [run, Operation.perform, lastSubscribed, Subscriber.newTaskLog, hasked]
      by_cases hadd : lastSubscribed past (subscribeTypeTaskLogAdd, taskId) = true
      · simp only [hadd, if_true, and_true, entry_toggleSubscribe, ih]
        split <;> simp
      · simpa [hadd] using ih pair

/-! ## Deliveries -/

/-- What the operations so far decide for the pair of a message: whether it is put in the queue, what
    `IsSubscribed` says, and that a new log of a task that is subscribed to is subscribed to as
    well. -/
structure DeliveryFollows (past : List Operation) (m : SubscribeMessage) : Prop where
  queued : ((run past).sendSubscribedInfo m).message =
    if lastSubscribed past (m.subscriptionType, m.id) then (run past).message ++ [.update m]
    else (run past).message
  asked : (run past).isSubscribed m.subscriptionType m.id =
    lastSubscribed past (m.subscriptionType, m.id)
  newLog : ∀ taskId logId, lastSubscribed past (subscribeTypeTaskLogAdd, taskId) = true →
    (run (.newTaskLog taskId logId :: past)).isSubscribed subscribeTypeTaskLog logId = true

theorem isSubscribed_run (past : List Operation) (pair : String × Int) :
    (run past).isSubscribed pair.1 pair.2 = lastSubscribed past pair := by
  rw [isSubscribed_eq, entry_run]
  cases lastSubscribed past pair <;> simp

/-- **Delivery follows the last operation** on a pair, for every sequence of operations on a started
    client. -/
theorem delivery_follows (past : List Operation) (m : SubscribeMessage) :
    DeliveryFollows past m where
  queued := by
    have hentry := entry_run past (m.subscriptionType, m.id)
    simp only [entry] at hentry
    unfold Subscriber.sendSubscribedInfo
    rw [hentry]
    cases lastSubscribed past (m.subscriptionType, m.id) <;> simp
  asked := isSubscribed_run past (m.subscriptionType, m.id)
  newLog taskId logId hadd := by
    rw [isSubscribed_run _ (subscribeTypeTaskLog, logId)]
    simp [lastSubscribed, hadd]

/-! ## The set of pairs of the hub -/

/-- The set has the pairs that have an entry with the value true, and no entry has another value. -/
def Represents (subscribed : SubscribeStruct) (pairs : Finset (String × Int)) : Prop :=
  ∀ pair, entry subscribed pair = if pair ∈ pairs then some true else none

/-- A client that has been started is represented by a set without pairs. -/
theorem represents_started : Represents Subscriber.started.subscribed ∅ := by
  intro pair
  simpa using entry_started pair

/-- The operations on the set and on the map of maps correspond. -/
theorem Represents.toggle {client : Subscriber} {c : Client}
    (h : Represents client.subscribed c.subscribed) (subscriptionType : String) (taskId : Int)
    (isSubscribe : Bool) : Represents
      (client.toggleSubscribe subscriptionType taskId isSubscribe).subscribed
      (c.toggleSubscribe subscriptionType taskId isSubscribe).subscribed := by
  intro pair
  rw [entry_toggleSubscribe, h]
  rcases eq_or_ne pair (subscriptionType, taskId) with rfl | hne
  · cases isSubscribe <;> simp [Client.toggleSubscribe]
  · cases isSubscribe <;> simp [Client.toggleSubscribe, hne]

/-- The loop of `SendNewTaskLogFormOrm`, for one client and its set of pairs. -/
def Client.newTaskLog (client : Client) (taskId logId : Int) : Client :=
  if (subscribeTypeTaskLogAdd, taskId) ∈ client.subscribed then
    client.toggleSubscribe subscribeTypeTaskLog logId true
  else client

theorem Represents.newTaskLog {client : Subscriber} {c : Client}
    (h : Represents client.subscribed c.subscribed) (taskId logId : Int) :
    Represents (client.newTaskLog taskId logId).subscribed (c.newTaskLog taskId logId).subscribed := by
  have hasked : client.isSubscribed subscribeTypeTaskLogAdd taskId =
      decide ((subscribeTypeTaskLogAdd, taskId) ∈ c.subscribed) := by
    have hentry := h (subscribeTypeTaskLogAdd, taskId)
    rw [isSubscribed_eq client (subscribeTypeTaskLogAdd, taskId), hentry]
    by_cases hmem : (subscribeTypeTaskLogAdd, taskId) ∈ c.subscribed <;> simp [hmem]
  unfold Subscriber.newTaskLog Client.newTaskLog
  rw [hasked]
  by_cases hmem : (subscribeTypeTaskLogAdd, taskId) ∈ c.subscribed
  · simpa [hmem] using h.toggle subscribeTypeTaskLog logId true
  · simpa [hmem] using h

/-- Both decide alike whether a message goes to the client. -/
theorem Represents.delivers {client : Subscriber} {c : Client}
    (h : Represents client.subscribed c.subscribed) (m : SubscribeMessage) :
    (client.sendSubscribedInfo m).message =
      if c.isSubscribed m then client.message ++ [.update m] else client.message := by
  have hentry := h (m.subscriptionType, m.id)
  simp only [entry] at hentry
  unfold Subscriber.sendSubscribedInfo
  rw [hentry]
  by_cases hmem : (m.subscriptionType, m.id) ∈ c.subscribed <;> simp [Client.isSubscribed, hmem]

end Gonitor.Web.Ws
