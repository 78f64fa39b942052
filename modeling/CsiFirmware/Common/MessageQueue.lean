import CsiFirmware.Common.PoolInvariants

/-!
# Topics and subscribers

Reference: `MessageQueue` and `ServiceQueue`.

`publish` goes through the subscribers and adds one task to the thread pool for each that has the
topic. It holds the mutex of the queue throughout, and so does `subscribe`, but between two tasks
the threads of the pool go on. The queue is a static object and lives as long as the process, so its
pool is not shut down.

In a `ServiceQueue` the publisher waits for the answer of the first responder of the topic.
-/

namespace CsiFirmware.Common

open Runs Threads

variable {μ : Type*}

/-- A call of `publish` that has taken the mutex. -/
structure Publication (μ : Type*) where
  topic : String
  message : μ
  /-- The number of subscribers at that time. -/
  audience : ℕ
deriving DecidableEq

/-- A task of the pool: the callback of a subscriber on the message of a publication. Both are given
by their position. -/
structure Delivery (μ : Type*) where
  publication : ℕ
  subscriber : ℕ
  message : μ
deriving DecidableEq

/-- A `MessageQueue` with its history. -/
structure BusState (μ : Type*) where
  /-- The topics of `subscribers`. -/
  subscribers : List String
  publications : List (Publication μ)
  /-- Where the loop of the last publication stands, while it holds the mutex. -/
  publishing : Option ℕ
  threadPool : PoolState (Delivery μ)
  /-- The calls of `Add`. -/
  added : List (Delivery μ)
deriving DecidableEq

/-- Nobody has subscribed and nothing has been published. -/
def BusState.init : BusState μ :=
  { subscribers := [], publications := [], publishing := none, threadPool := PoolState.init mqSize,
    added := [] }

/-- What can happen next. -/
inductive BusEvent (μ : Type*) where
  | subscribe (topic : String)
  /-- A call of `publish` takes the mutex. -/
  | publish (topic : String) (message : μ)
  /-- The publication that holds the mutex goes on to the next subscriber, or returns. -/
  | visit
  | thread (t : ThreadEvent)
deriving DecidableEq

/-- One pass of the loop over the subscribers, or its end. -/
def visitStep (s : BusState μ) : Option (BusState μ) :=
  match s.publishing, s.publications.getLast? with
  | some i, some p =>
      match s.subscribers[i]? with
      | none => some { s with publishing := none }
      | some topic =>
          if topic = p.topic then
            let task := ⟨s.publications.length - 1, i, p.message⟩
            (s.threadPool.step mqSize (.add task)).map fun threadPool =>
              { s with threadPool, publishing := some (i + 1), added := s.added ++ [task] }
          else some { s with publishing := some (i + 1) }
  | _, _ => none

/-- `subscribe` and `publish` wait for the mutex, which a publication holds until it has come past
the last subscriber. The threads of the pool do not take it. -/
def BusState.step (s : BusState μ) : BusEvent μ → Option (BusState μ)
  | .subscribe topic =>
      if s.publishing = none then some { s with subscribers := s.subscribers ++ [topic] } else none
  | .publish topic message =>
      if s.publishing = none then
        some { s with
          publications := s.publications ++ [⟨topic, message, s.subscribers.length⟩]
          publishing := some 0 }
      else none
  | .visit => visitStep s
  | .thread t => (s.threadPool.step mqSize (.thread t)).map fun threadPool => { s with threadPool }

/-! ## What a step can do -/

/-- All that a step can do. -/
inductive BusTransition (s : BusState μ) : BusEvent μ → BusState μ → Prop where
  | subscribe (topic : String) (free : s.publishing = none) :
      BusTransition s (.subscribe topic) { s with subscribers := s.subscribers ++ [topic] }
  | publish (topic : String) (message : μ) (free : s.publishing = none) :
      BusTransition s (.publish topic message) { s with
        publications := s.publications ++ [⟨topic, message, s.subscribers.length⟩]
        publishing := some 0 }
  | pass (i : ℕ) (p : Publication μ) (topic : String) (held : s.publishing = some i)
      (last : s.publications.getLast? = some p) (at_i : s.subscribers[i]? = some topic)
      (other : topic ≠ p.topic) : BusTransition s .visit { s with publishing := some (i + 1) }
  | add (i : ℕ) (p : Publication μ) (threadPool : PoolState (Delivery μ))
      (held : s.publishing = some i) (last : s.publications.getLast? = some p)
      (at_i : s.subscribers[i]? = some p.topic)
      (step : s.threadPool.step mqSize (.add ⟨s.publications.length - 1, i, p.message⟩) =
        some threadPool) :
      BusTransition s .visit { s with
        threadPool
        publishing := some (i + 1)
        added := s.added ++ [⟨s.publications.length - 1, i, p.message⟩] }
  | unlock (i : ℕ) (p : Publication μ) (held : s.publishing = some i)
      (last : s.publications.getLast? = some p) (at_i : s.subscribers[i]? = none) :
      BusTransition s .visit { s with publishing := none }
  | thread (t : ThreadEvent) (threadPool : PoolState (Delivery μ))
      (step : s.threadPool.step mqSize (.thread t) = some threadPool) :
      BusTransition s (.thread t) { s with threadPool }

variable {s s' : BusState μ}

/-- The loop is over, or the subscriber has another topic, or `Add` runs for it. -/
theorem visitStep_transition (hs : visitStep s = some s') : BusTransition s .visit s' := by
  unfold visitStep at hs
  split at hs
  next i p held last =>
    split at hs
    next at_i =>
      obtain rfl := Option.some.inj hs
      exact .unlock i p held last at_i
    next topic at_i =>
      split at hs
      next htopic =>
        obtain ⟨threadPool, step, rfl⟩ := Option.map_eq_some_iff.mp hs
        exact .add i p threadPool held last (htopic ▸ at_i) step
      next htopic =>
        obtain rfl := Option.some.inj hs
        exact .pass i p topic held last at_i htopic
  next => cases hs

/-- A defined step is one of the transitions. -/
theorem BusState.step_transition {e : BusEvent μ} (hs : s.step e = some s') :
    BusTransition s e s' := by
  cases e with
  | subscribe topic =>
      obtain ⟨free, hs⟩ := Option.ite_none_right_eq_some.mp hs
      obtain rfl := Option.some.inj hs
      exact .subscribe topic free
  | publish topic message =>
      obtain ⟨free, hs⟩ := Option.ite_none_right_eq_some.mp hs
      obtain rfl := Option.some.inj hs
      exact .publish topic message free
  | visit => exact visitStep_transition hs
  | thread t =>
      obtain ⟨threadPool, step, rfl⟩ := Option.map_eq_some_iff.mp hs
      exact .thread t threadPool step

/-- A step of the queue is at most one step of its pool. -/
theorem BusState.pool_step {e : BusEvent μ} (hs : s.step e = some s') :
    s'.threadPool = s.threadPool ∨ ∃ e', s.threadPool.step mqSize e' = some s'.threadPool ∧
      ∀ t, e' = .thread t → e = .thread t := by
  cases BusState.step_transition hs with
  | subscribe | publish | pass | unlock => exact .inl rfl
  | add _ _ _ _ _ _ step => exact .inr ⟨_, step, fun t ht => by cases ht⟩
  | thread t threadPool step => exact .inr ⟨.thread t, step, fun t' ht => by cases ht; rfl⟩

/-! ## Exactly once -/

/-- How far the loop of publication `k` has come. -/
def BusState.visited (s : BusState μ) (k : ℕ) (p : Publication μ) : ℕ :=
  match s.publishing with
  | some i => if k + 1 = s.publications.length then i else p.audience
  | none => p.audience

/-- The subscriber had the topic of the publication before it took the mutex, and its loop has come
past the subscriber. -/
def Owed (s : BusState μ) (d : Delivery μ) : Prop :=
  ∃ p, s.publications[d.publication]? = some p ∧ d.message = p.message ∧
    s.subscribers[d.subscriber]? = some p.topic ∧ d.subscriber < s.visited d.publication p

/-- Earlier publications come first, and for one publication earlier subscribers. -/
def Delivery.Before (d d' : Delivery μ) : Prop :=
  d.publication < d'.publication ∨
    (d.publication = d'.publication ∧ d.subscriber < d'.subscriber)

/-- What has been added to the pool is what is owed, in the order of the publications. -/
structure BusInv (s : BusState μ) : Prop where
  opened : s.threadPool.shutdown = false
  tasks : s.threadPool.tasks = s.added
  audience : ∀ p ∈ s.publications, p.audience ≤ s.subscribers.length
  current : ∀ i, s.publishing = some i → i ≤ s.subscribers.length ∧
    ∃ p, s.publications.getLast? = some p ∧ p.audience = s.subscribers.length
  mem_added : ∀ d, d ∈ s.added ↔ Owed s d
  ordered : s.added.Pairwise Delivery.Before

/-- Publications that have returned have come past their whole audience. -/
theorem visited_of_free (h : s.publishing = none) (k : ℕ) (p : Publication μ) :
    s.visited k p = p.audience := by
  simp [BusState.visited, h]

/-- Of the publications only the last can still be on its way. -/
theorem visited_of_held {i : ℕ} (h : s.publishing = some i) (k : ℕ) (p : Publication μ) :
    s.visited k p = if k + 1 = s.publications.length then i else p.audience := by
  simp [BusState.visited, h]

/-- The publication that holds the mutex is the last one. -/
theorem getElem?_of_getLast? {l : List (Publication μ)} {p q : Publication μ} {k : ℕ}
    (hlast : l.getLast? = some p) (hk : k + 1 = l.length) (hq : l[k]? = some q) : q = p := by
  rw [List.getLast?_eq_getElem?, ← hk, Nat.add_sub_cancel, hq] at hlast
  exact Option.some.inj hlast

/-- Nothing has been added and nothing is owed. -/
theorem busInv_init : BusInv (BusState.init : BusState μ) := by
  constructor <;> simp [BusState.init, PoolState.init, PoolState.tasks, Owed]

/-- A step that adds no publication and comes past no subscriber with the topic. -/
theorem owed_congr (hpublications : s'.publications = s.publications)
    (hsubscribers : ∀ k p j, s.publications[k]? = some p →
      (s'.subscribers[j]? = some p.topic ∧ j < s'.visited k p ↔
        s.subscribers[j]? = some p.topic ∧ j < s.visited k p)) (d : Delivery μ) :
    Owed s' d ↔ Owed s d := by
  unfold Owed
  rw [hpublications]
  refine exists_congr fun p => and_congr_right fun hp => and_congr_right fun _ => ?_
  exact hsubscribers d.publication p d.subscriber hp

/-- The publication that holds the mutex comes past subscriber `i`. -/
theorem owed_visit {i : ℕ} {p : Publication μ} {topic : String}
    (hpublications : s'.publications = s.publications)
    (hsubscribers : s'.subscribers = s.subscribers)
    (held' : s'.publishing = some (i + 1)) (held : s.publishing = some i)
    (last : s.publications.getLast? = some p) (at_i : s.subscribers[i]? = some topic)
    (d : Delivery μ) :
    Owed s' d ↔
      Owed s d ∨ (topic = p.topic ∧ d = ⟨s.publications.length - 1, i, p.message⟩) := by
  have hne : s.publications ≠ [] := by
    rintro hnil
    simp [hnil] at last
  have hlen : 0 < s.publications.length := List.length_pos_iff.mpr hne
  unfold Owed
  rw [hpublications, hsubscribers]
  constructor
  · rintro ⟨q, hq, hmessage, htopic, hlt⟩
    rw [visited_of_held held', hpublications] at hlt
    split at hlt
    next hk =>
      -- a subscriber that the last publication had come past before, or the one it comes past now
      obtain rfl := getElem?_of_getLast? last hk hq
      rcases Nat.lt_succ_iff_lt_or_eq.mp hlt with hlt | heq
      · refine .inl ⟨q, hq, hmessage, htopic, ?_⟩
        rwa [visited_of_held held, if_pos hk]
      · -- the subscriber that it comes past
        rw [heq, at_i] at htopic
        obtain ⟨k, j, m⟩ := d
        have hk' : k = s.publications.length - 1 := Nat.eq_sub_of_add_eq hk
        exact .inr ⟨Option.some.inj htopic, by simp only [hk'] at *; simp [heq, hmessage]⟩
    next hk =>
      -- earlier publications are over and owe what they owed
      refine .inl ⟨q, hq, hmessage, htopic, ?_⟩
      rwa [visited_of_held held, if_neg hk]
  · rintro (⟨q, hq, hmessage, htopic, hlt⟩ | ⟨rfl, rfl⟩)
    · refine ⟨q, hq, hmessage, htopic, ?_⟩
      rw [visited_of_held held] at hlt
      rw [visited_of_held held', hpublications]
      split at hlt
      next hk =>
        rw [if_pos hk]
        omega
      next hk => rwa [if_neg hk]
    · refine ⟨p, ?_, rfl, at_i, ?_⟩
      · rw [← List.getLast?_eq_getElem?]
        exact last
      · rw [visited_of_held held', hpublications, if_pos (Nat.sub_add_cancel hlen)]
        exact Nat.lt_succ_self i

namespace BusInv

/-- A new subscriber is owed nothing: it comes behind the audience of every publication so far. -/
theorem subscribe (hs : BusInv s) (topic : String) (free : s.publishing = none) :
    BusInv { s with subscribers := s.subscribers ++ [topic] } where
  opened := hs.opened
  tasks := hs.tasks
  audience p hp := by
    have hle := hs.audience p hp
    simp only [List.length_append, List.length_singleton]
    omega
  current i held := by simp [free] at held
  mem_added d := by
    rw [hs.mem_added]
    apply Iff.symm
    refine owed_congr (by rfl) ?_ d
    intro k p j hp
    have hle := hs.audience p (List.mem_of_getElem? hp)
    have free' : { s with subscribers := s.subscribers ++ [topic] }.publishing = none := free
    rw [visited_of_free free, visited_of_free free']
    refine and_congr_left fun hj => ?_
    rw [List.getElem?_append_left (by omega)]
  ordered := hs.ordered

/-- A new publication owes nothing yet, and what earlier ones owe does not change, since they are
over. -/
theorem publish (hs : BusInv s) (topic : String) (message : μ) (free : s.publishing = none) :
    BusInv { s with
      publications := s.publications ++ [⟨topic, message, s.subscribers.length⟩]
      publishing := some 0 } where
  opened := hs.opened
  tasks := hs.tasks
  audience p hp := by
    rw [List.mem_append, List.mem_singleton] at hp
    rcases hp with hp | rfl
    · exact hs.audience p hp
    · exact le_rfl
  current i held := by
    obtain rfl := Option.some.inj held
    exact ⟨Nat.zero_le _, _, List.getLast?_concat, rfl⟩
  mem_added d := by
    rw [hs.mem_added]
    constructor
    · rintro ⟨p, hp, hmessage, htopic, hlt⟩
      refine ⟨p, lookup_concat_left hp, hmessage, htopic, ?_⟩
      obtain ⟨hk, -⟩ := List.getElem?_eq_some_iff.mp hp
      rw [visited_of_free free] at hlt
      rw [visited_of_held rfl, if_neg (by simp; omega)]
      exact hlt
    · rintro ⟨p, hp, hmessage, htopic, hlt⟩
      rw [visited_of_held rfl] at hlt
      rcases lookup_concat hp with hp | ⟨hk, -⟩
      · refine ⟨p, hp, hmessage, htopic, ?_⟩
        obtain ⟨hk, -⟩ := List.getElem?_eq_some_iff.mp hp
        rw [if_neg (by simp; omega)] at hlt
        rwa [visited_of_free free]
      · -- the new publication has not come past any subscriber
        rw [if_pos (by simp [hk])] at hlt
        omega
  ordered := hs.ordered

/-- The loop has a subscriber to go past. -/
theorem current_next {i : ℕ} {topic : String} (hs : BusInv s) (held : s.publishing = some i)
    (at_i : s.subscribers[i]? = some topic) : i + 1 ≤ s.subscribers.length ∧
      ∃ p, s.publications.getLast? = some p ∧ p.audience = s.subscribers.length := by
  obtain ⟨hlt, -⟩ := List.getElem?_eq_some_iff.mp at_i
  exact ⟨hlt, (hs.current i held).2⟩

/-- A subscriber of another topic is passed without a task. -/
theorem pass {i : ℕ} {p : Publication μ} {topic : String} (hs : BusInv s)
    (held : s.publishing = some i) (last : s.publications.getLast? = some p)
    (at_i : s.subscribers[i]? = some topic) (other : topic ≠ p.topic) :
    BusInv { s with publishing := some (i + 1) } where
  opened := hs.opened
  tasks := hs.tasks
  audience := hs.audience
  current j hj := by
    obtain rfl := Option.some.inj hj
    exact hs.current_next held at_i
  mem_added d := by
    rw [hs.mem_added]
    refine Iff.trans ?_ (owed_visit (by rfl) (by rfl) (by rfl) held last at_i d).symm
    exact (or_iff_left fun hd => other hd.1).symm
  ordered := hs.ordered

/-- At its end the loop has come past everybody who was in the list when it began. -/
theorem unlock {i : ℕ} {p : Publication μ} (hs : BusInv s) (held : s.publishing = some i)
    (last : s.publications.getLast? = some p) (at_i : s.subscribers[i]? = none) :
    BusInv { s with publishing := none } where
  opened := hs.opened
  tasks := hs.tasks
  audience := hs.audience
  current j hj := by cases hj
  mem_added d := by
    rw [hs.mem_added]
    apply Iff.symm
    refine owed_congr (by rfl) ?_ d
    intro k q j hq
    have free' : { s with publishing := none }.publishing = none := rfl
    rw [visited_of_held held, visited_of_free free']
    refine and_congr_right fun hj => ?_
    split
    next hk =>
      -- the loop has come past all subscribers
      obtain ⟨hle, p', last', haudience⟩ := hs.current i held
      obtain rfl : p = p' := Option.some.inj (last.symm.trans last')
      obtain rfl := getElem?_of_getLast? last hk hq
      have hge := List.getElem?_eq_none_iff.mp at_i
      omega
    · rfl
  ordered := hs.ordered

/-- What the publication that holds the mutex adds comes after everything added before. -/
theorem before_next {i : ℕ} {message : μ} (hs : BusInv s) (held : s.publishing = some i)
    {d : Delivery μ} (hd : d ∈ s.added) :
    d.Before ⟨s.publications.length - 1, i, message⟩ := by
  obtain ⟨q, hq, -, -, hlt⟩ := (hs.mem_added d).mp hd
  obtain ⟨hk, -⟩ := List.getElem?_eq_some_iff.mp hq
  rw [visited_of_held held] at hlt
  simp only [Delivery.Before]
  split at hlt <;> omega

/-- The task is what the publication comes to owe by passing the subscriber, and it comes last in
the order. -/
theorem add {i : ℕ} {p : Publication μ} {threadPool : PoolState (Delivery μ)} (hs : BusInv s)
    (held : s.publishing = some i) (last : s.publications.getLast? = some p)
    (at_i : s.subscribers[i]? = some p.topic)
    (step : s.threadPool.step mqSize (.add ⟨s.publications.length - 1, i, p.message⟩) =
      some threadPool) :
    BusInv { s with
      threadPool
      publishing := some (i + 1)
      added := s.added ++ [⟨s.publications.length - 1, i, p.message⟩] } where
  opened := (tasks_add hs.opened step).2
  tasks := by rw [(tasks_add hs.opened step).1, hs.tasks]
  audience := hs.audience
  current j hj := by
    obtain rfl := Option.some.inj hj
    exact hs.current_next held at_i
  mem_added d := by
    rw [List.mem_append, List.mem_singleton, hs.mem_added]
    refine Iff.trans ?_ (owed_visit (by rfl) (by rfl) (by rfl) held last at_i d).symm
    exact or_congr_right (and_iff_right rfl).symm
  ordered := by
    rw [List.pairwise_append]
    refine ⟨hs.ordered, List.pairwise_singleton _ _, fun d hd d' hd' => ?_⟩
    obtain rfl := List.mem_singleton.mp hd'
    exact hs.before_next held hd

/-- Every step keeps what has been added equal to what is owed. -/
theorem step {e : BusEvent μ} (hs : BusInv s) (h : s.step e = some s') : BusInv s' := by
  cases BusState.step_transition h with
  | subscribe topic free => exact hs.subscribe topic free
  | publish topic message free => exact hs.publish topic message free
  | pass i p topic held last at_i other => exact hs.pass held last at_i other
  | add i p threadPool held last at_i step => exact hs.add held last at_i step
  | unlock i p held last at_i => exact hs.unlock held last at_i
  | thread t threadPool step =>
      obtain ⟨htasks, hshutdown⟩ := tasks_thread step
      exact ⟨hshutdown.trans hs.opened, htasks.trans hs.tasks, hs.audience, hs.current,
        hs.mem_added, hs.ordered⟩

end BusInv

/-- The reachable states of a message queue. -/
abbrev BusReachable (s : BusState μ) : Prop := Reachable BusState.step (· = BusState.init) s

/-- The invariant holds in every reachable state. -/
theorem BusReachable.inv (h : BusReachable s) : BusInv s := by
  refine h.invariant ?_ fun s e s' hs hs' => hs.step hs'
  rintro s₀ rfl
  exact busInv_init

/-- The order is strict, so that deliveries in order are distinct. -/
theorem Delivery.Before.ne {d d' : Delivery μ} (h : d.Before d') : d ≠ d' := by
  rintro rfl
  simp only [Delivery.Before] at h
  omega

/-- In every interleaving of publishers and subscribers with the threads of the pool, what has been
started or is queued is exactly what is owed, each once, and tasks are started in the order in which
they were added. -/
theorem delivered_exactly_once (h : BusReachable s) :
    s.threadPool.started ++ s.threadPool.taskQ = s.added ∧ s.added.Nodup ∧
      ∀ d, d ∈ s.added ↔ Owed s d :=
  ⟨h.inv.tasks, h.inv.ordered.imp Delivery.Before.ne, h.inv.mem_added⟩

/-- Two messages for two subscribers, the second published before all tasks of the first have been
started. -/
def twoPublications : List (BusEvent ℕ) :=
  [.subscribe "Setting/DevList", .subscribe "Setting/DevList", .publish "Setting/DevList" 7, .visit,
    .visit, .visit, .thread (.worker 0), .publish "Setting/DevList" 8, .visit, .visit, .visit]

/-- Both subscribers get both messages, in this order, while three of the four tasks still wait. -/
theorem delivered_exactly_once_publish :
    ∃ s : BusState ℕ, run BusState.step BusState.init twoPublications = some s ∧
      s.added = [⟨0, 0, 7⟩, ⟨0, 1, 7⟩, ⟨1, 0, 8⟩, ⟨1, 1, 8⟩] ∧
      s.threadPool.started = [⟨0, 0, 7⟩] ∧
      s.threadPool.started ++ s.threadPool.taskQ = s.added ∧ s.added.Nodup ∧
        ∀ d, d ∈ s.added ↔ Owed s d := by
  obtain ⟨s, hs, hdone⟩ := Option.map_eq_some_iff.mp
    (show (run BusState.step BusState.init twoPublications).map
        (fun s => (s.added, s.threadPool.started)) =
      some ([⟨0, 0, 7⟩, ⟨0, 1, 7⟩, ⟨1, 0, 8⟩, ⟨1, 1, 8⟩], [⟨0, 0, 7⟩]) by decide)
  obtain ⟨hadded, hstarted⟩ := Prod.mk.inj hdone
  exact ⟨s, hs, hadded, hstarted, delivered_exactly_once ⟨_, _, rfl, hs⟩⟩

/-! ## Services -/

/-- `Responder`: who answers the messages of a topic, each with one response. -/
structure Responder (μ ρ : Type*) where
  topic : String
  callback : μ → ρ

/-- `ServiceQueue::service_publish` and `get` of the future it returns. The promise of a message
that no one answers is broken, and `get` throws. -/
def servicePublish {ρ : Type*} (responders : List (Responder μ ρ)) (topic : String) (message : μ) :
    Option ρ :=
  (responders.find? fun r => r.topic = topic).map fun r => r.callback message

theorem isSome_servicePublish {ρ : Type*} {responders : List (Responder μ ρ)} {topic : String}
    {message : μ} :
    (servicePublish responders topic message).isSome ↔ ∃ r ∈ responders, r.topic = topic := by
  rw [servicePublish, Option.isSome_map, List.find?_isSome]
  simp only [decide_eq_true_eq]

end CsiFirmware.Common
