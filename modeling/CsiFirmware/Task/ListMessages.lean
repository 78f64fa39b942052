import CsiFirmware.Common.MessageQueue
import CsiFirmware.Task.DeviceSync
import CsiFirmware.Task.PortIdentity
import CsiFirmware.Task.SerialSync

/-!
# The order of list messages

Reference: the subscribers in the constructor of `TaskSerial`, and `TaskSerial::serialTaskRun`.

The pool of the message queue starts the callbacks on a list in the order of publication, but each
callback first takes `list_mutex`, and `serialTaskRun` holds that for a whole round. Meanwhile the
pool grows, and its workers wait for the mutex side by side. `inOrder_iff` says when the callbacks
nevertheless take effect in order.

A callback under the mutex is one step, and so is `loadAllList`, which takes no mutex but runs in
the same thread as `serialTaskRun`.
-/

namespace CsiFirmware.Task

open Common Runs TaskLists

variable {δ μ : Type}

/-! ## The two topics -/

/-- A serial without what opening its port writes. -/
def unopened (serial : SerialIdInfo) : SerialIdInfo := { serial with serialId := 0, statu := 0 }

/-- A topic with the list that its callback assigns the message to. -/
structure ListTopic (env : Environment δ) (μ : Type) where
  /-- The callback on a message. -/
  event : μ → ListEvent
  /-- The callback on some message. -/
  owns : ListEvent → Bool
  /-- The list, up to what `loadAllList` writes to its records. -/
  list : TaskLists δ → μ
  /-- A message, up to the same. -/
  content : μ → μ
  list_event : ∀ {s s' : TaskLists δ} {msg : μ},
    TaskLists.step env s (event msg) = some s' → list s' = content msg
  list_other : ∀ {s s' : TaskLists δ} {e : ListEvent}, owns e = false →
    TaskLists.step env s e = some s' → list s' = list s

section Topics

variable {env : Environment δ} {s s' : TaskLists δ}

/-- A serial list leaves the devices. -/
theorem onSerialList_devList {msg : List SerialIdInfo} (hs : onSerialList env s msg = some s') :
    s'.devList = s.devList := by
  rcases onSerialList_cases hs with ⟨-, rfl⟩ | ⟨-, -, serial, -, rfl⟩ | ⟨-, -, rfl⟩
  · rfl
  · exact addSerial_devList env s serial
  · rfl

/-- A device list leaves the serials. -/
theorem onDevList_serialList {msg : List DevInfo} (hs : onDevList env s msg = some s') :
    s'.serialList = s.serialList := by
  rcases onDevList_cases hs with ⟨-, rfl⟩ | ⟨-, -, dev, -, rfl⟩ | ⟨-, -, rfl⟩
  · rfl
  · exact bindDevice_serialList env s dev
  · rfl

/-- The worker leaves the devices. -/
theorem work_devList : (work env s).devList = s.devList := by
  rw [work]
  split_ifs
  · rw [loadAllList]
    simp only [foldl_frame (bindDevice_devList env), foldl_frame (addSerial_devList env)]
  · rfl

/-- Of the serials it changes only whether they are open. -/
theorem work_serialList : (work env s).serialList.map unopened = s.serialList.map unopened := by
  rw [work]
  split_ifs
  · rw [loadAllList]
    simp only [foldl_frame (bindDevice_serialList env), List.map_map]
    refine List.map_congr_left fun serial _ => ?_
    rw [Function.comp_apply]
    split_ifs <;> rfl
  · rfl

end Topics

/-- `Setting/DevList`. -/
def devListTopic (env : Environment δ) : ListTopic env (List DevInfo) where
  event := .devices
  owns
    | .devices _ => true
    | .serials _ | .work => false
  list := TaskLists.devList
  content := id
  list_event hs := (onDevList_devList hs).1
  list_other {s s' e} hother hs := by
    cases e with
    | devices => cases hother
    | serials => exact onSerialList_devList hs
    | work =>
        obtain rfl := Option.some.inj hs
        exact work_devList

/-- `Setting/serialList`. -/
def serialListTopic (env : Environment δ) : ListTopic env (List SerialIdInfo) where
  event := .serials
  owns
    | .serials _ => true
    | .devices _ | .work => false
  list s := s.serialList.map unopened
  content := List.map unopened
  list_event hs := congrArg (List.map unopened) (onSerialList_serialList hs).1
  list_other {s s' e} hother hs := by
    cases e with
    | serials => cases hother
    | devices => exact congrArg (List.map unopened) (onDevList_serialList hs)
    | work =>
        obtain rfl := Option.some.inj hs
        exact work_serialList

/-! ## The subscriber and its mutex -/

/-- The queue of a topic, and the members of `TaskSerial`. -/
structure ListsState (δ μ : Type) where
  bus : BusState μ
  /-- `serialTaskRun` holds `list_mutex`. -/
  polling : Bool
  lists : TaskLists δ
  /-- The deliveries whose callback on the lists has taken effect. -/
  effects : List (Delivery μ)

/-- Before anything is subscribed or published. -/
def ListsState.init : ListsState δ μ :=
  { bus := .init, polling := false, lists := TaskLists.init, effects := [] }

/-- What can happen next. -/
inductive ListsEvent (μ : Type) where
  | bus (e : BusEvent μ)
  /-- `serialTaskRun` begins a round. -/
  | poll
  | pollEnd
  /-- The callback on the other list, or `loadAllList`. -/
  | other (e : ListEvent)

section System

variable {env : Environment δ} (topic : ListTopic env μ) (target : ℕ)

/-- The delivery to the subscriber `target` whose callback is called next by the worker. -/
def ListsState.called (s : ListsState δ μ) : ListsEvent μ → Option (Delivery μ)
  | .bus (.thread (.worker i)) => (s.bus.threadPool.running i).filter fun d => d.subscriber = target
  | _ => none

/-- The callback waits for `list_mutex`. -/
def ListsState.step (s : ListsState δ μ) (e : ListsEvent μ) : Option (ListsState δ μ) :=
  match e with
  | .bus be =>
      match s.called target e with
      | some d =>
          if s.polling then none
          else
            (TaskLists.step env s.lists (topic.event d.message)).bind fun lists =>
              (s.bus.step be).map fun bus => { s with bus, lists, effects := s.effects ++ [d] }
      | none => (s.bus.step be).map fun bus => { s with bus }
  | .poll => if s.polling then none else some { s with polling := true }
  | .pollEnd => if s.polling then some { s with polling := false } else none
  | .other le =>
      if s.polling ∨ topic.owns le then none
      else (TaskLists.step env s.lists le).map fun lists => { s with lists }

/-- All that a step can do. -/
inductive ListsTransition (s : ListsState δ μ) : ListsEvent μ → ListsState δ μ → Prop where
  | call (i : ℕ) (d : Delivery μ) (lists : TaskLists δ) (bus : BusState μ)
      (running : s.bus.threadPool.running i = some d) (subscriber : d.subscriber = target)
      (free : s.polling = false)
      (callback : TaskLists.step env s.lists (topic.event d.message) = some lists)
      (step : s.bus.step (.thread (.worker i)) = some bus) :
      ListsTransition s (.bus (.thread (.worker i)))
        { s with bus, lists, effects := s.effects ++ [d] }
  | bus (e : BusEvent μ) (bus : BusState μ) (other : s.called target (.bus e) = none)
      (step : s.bus.step e = some bus) : ListsTransition s (.bus e) { s with bus }
  | poll (free : s.polling = false) : ListsTransition s .poll { s with polling := true }
  | pollEnd (held : s.polling = true) : ListsTransition s .pollEnd { s with polling := false }
  | other (e : ListEvent) (lists : TaskLists δ) (free : s.polling = false)
      (owns : topic.owns e = false) (step : TaskLists.step env s.lists e = some lists) :
      ListsTransition s (.other e) { s with lists }

variable {topic target} {s s' : ListsState δ μ} {e : ListsEvent μ}

/-- A callback on the target is called by the worker that has the delivery. -/
theorem ListsState.called_eq_some {d : Delivery μ} (h : s.called target e = some d) :
    ∃ i, e = .bus (.thread (.worker i)) ∧ s.bus.threadPool.running i = some d ∧
      d.subscriber = target := by
  unfold called at h
  split at h
  next i =>
    obtain ⟨hrunning, hsubscriber⟩ := Option.filter_eq_some_iff.mp h
    exact ⟨i, rfl, hrunning, of_decide_eq_true hsubscriber⟩
  next => cases h

/-- A defined step is one of the transitions. -/
theorem ListsState.step_transition (hs : s.step topic target e = some s') :
    ListsTransition topic target s e s' := by
  unfold step at hs
  split at hs
  next be =>
    split at hs
    next d hcalled =>
      obtain ⟨i, he, running, subscriber⟩ := called_eq_some hcalled
      obtain ⟨free, hs⟩ := Option.ite_none_left_eq_some.mp hs
      obtain ⟨lists, callback, hs⟩ := Option.bind_eq_some_iff.mp hs
      obtain ⟨bus, step, rfl⟩ := Option.map_eq_some_iff.mp hs
      obtain rfl := ListsEvent.bus.inj he
      exact .call i d lists bus running subscriber (by simpa using free) callback step
    next hcalled =>
      obtain ⟨bus, step, rfl⟩ := Option.map_eq_some_iff.mp hs
      exact .bus be bus hcalled step
  next =>
    obtain ⟨free, hs⟩ := Option.ite_none_left_eq_some.mp hs
    obtain rfl := Option.some.inj hs
    exact .poll (by simpa using free)
  next =>
    obtain ⟨held, hs⟩ := Option.ite_none_right_eq_some.mp hs
    obtain rfl := Option.some.inj hs
    exact .pollEnd held
  next le =>
    obtain ⟨free, hs⟩ := Option.ite_none_left_eq_some.mp hs
    obtain ⟨lists, step, rfl⟩ := Option.map_eq_some_iff.mp hs
    rw [not_or, Bool.not_eq_true, Bool.not_eq_true] at free
    exact .other le lists free.1 free.2 step

/-! ## Deliveries under way -/

/-- The deliveries to the subscriber `target` that were added to the pool. -/
def deliveries (target : ℕ) (s : BusState μ) : List (Delivery μ) :=
  s.added.filter fun d => d.subscriber = target

/-- The callbacks have taken effect in the order of publication, each before any later one, and when
all have, the list is the last message. -/
structure InOrder (topic : ListTopic env μ) (target : ℕ) (s : ListsState δ μ) : Prop where
  earliest : s.effects <+: deliveries target s.bus
  increasing : s.effects.Pairwise fun d d' => d.publication < d'.publication
  last : ∀ d, Owed s.bus d → d.subscriber = target →
    (∀ d', Owed s.bus d' → d'.subscriber = target →
      d' ∈ s.effects ∧ d'.publication ≤ d.publication) →
    topic.list s.lists = topic.content d.message

/-- A worker takes `list_mutex` for the target only if no worker has taken an earlier delivery to
the target and not called its callback yet. -/
def TakesInTurn (topic : ListTopic env μ) (target : ℕ) (s : ListsState δ μ) (e : ListsEvent μ) :
    Prop :=
  (s.step topic target e).isSome → ∀ d, s.called target e = some d →
    ∀ i d', s.bus.threadPool.running i = some d' → d'.subscriber = target →
      d.publication ≤ d'.publication

/-- The deliveries to the target that were started are those that have taken effect, followed by
those that the workers hold. -/
structure Underway (target : ℕ) (pool : PoolState (Delivery μ)) (effects rest : List (Delivery μ)) :
    Prop where
  started : (pool.started.filter fun d => d.subscriber = target) = effects ++ rest
  mem_rest : ∀ d, d ∈ rest ↔ d.subscriber = target ∧ ∃ i, pool.running i = some d
  unique : ∀ i j d, d.subscriber = target → pool.running i = some d → pool.running j = some d →
    i = j

/-- What holds as long as the callbacks take effect in order. -/
structure ListsInv (topic : ListTopic env μ) (target : ℕ) (s : ListsState δ μ) : Prop where
  bus : BusInv s.bus
  underway : ∃ rest, Underway target s.bus.threadPool s.effects rest
  list : ∀ d, s.effects.getLast? = some d → topic.list s.lists = topic.content d.message

/-- The deliveries to one subscriber are in the order of publication. -/
theorem deliveries_pairwise {b : BusState μ} (h : BusInv b) :
    (deliveries target b).Pairwise fun d d' => d.publication < d'.publication := by
  have hordered := h.ordered.filter fun d => d.subscriber = target
  refine hordered.imp_of_mem fun {d d'} hd hd' hbefore => ?_
  have hd : d.subscriber = target := of_decide_eq_true (List.mem_filter.mp hd).2
  have hd' : d'.subscriber = target := of_decide_eq_true (List.mem_filter.mp hd').2
  simp only [Delivery.Before] at hbefore
  omega

/-- What was started was added first. -/
theorem started_prefix_deliveries (target : ℕ) {b : BusState μ} (h : BusInv b) :
    (b.threadPool.started.filter fun d => d.subscriber = target) <+: deliveries target b := by
  have hstarted : b.threadPool.started <+: b.added := ⟨b.threadPool.taskQ, h.tasks⟩
  exact hstarted.filter _

namespace Underway

variable {pool pool' : PoolState (Delivery μ)} {effects rest : List (Delivery μ)}

/-- What is under way has been started. -/
theorem mem_started (h : Underway target pool effects rest) {d : Delivery μ} (hd : d ∈ rest) :
    d ∈ pool.started := by
  have hmem : d ∈ pool.started.filter fun d => d.subscriber = target := by
    rw [h.started]
    exact List.mem_append_right _ hd
  exact (List.mem_filter.mp hmem).1

/-- A worker takes a task that no worker has had. -/
theorem take {i : ℕ} {task : Delivery μ} (h : Underway target pool effects rest)
    (hfresh : task ∉ pool.started) (hidle : pool.running i = none)
    (hstarted : pool'.started = pool.started ++ [task])
    (hrunning : pool'.running = Function.update pool.running i (some task)) :
    ∃ rest', Underway target pool' effects rest' := by
  have hother : ∀ {j d}, pool'.running j = some d → j ≠ i → pool.running j = some d := by
    intro j d hj hne
    rwa [hrunning, Function.update_of_ne hne] at hj
  have hself : ∀ {d}, pool'.running i = some d → task = d := by
    intro d hi
    rw [hrunning, Function.update_self] at hi
    exact Option.some.inj hi
  have hstays : ∀ {j d}, pool.running j = some d → pool'.running j = some d := by
    intro j d hj
    have hne : j ≠ i := by
      rintro rfl
      rw [hidle] at hj
      cases hj
    rw [hrunning, Function.update_of_ne hne, hj]
  have hnew : task.subscriber = target → ∀ j, pool.running j ≠ some task := by
    intro htarget j hj
    exact hfresh (h.mem_started ((h.mem_rest task).mpr ⟨htarget, j, hj⟩))
  refine ⟨rest ++ [task].filter fun d => d.subscriber = target, ?_, fun d => ?_, ?_⟩
  · rw [hstarted, List.filter_append, h.started, List.append_assoc]
  · simp only [List.mem_append, List.mem_filter, List.mem_singleton, decide_eq_true_eq, h.mem_rest]
    constructor
    · rintro (⟨htarget, j, hj⟩ | ⟨rfl, htarget⟩)
      · exact ⟨htarget, j, hstays hj⟩
      · exact ⟨htarget, i, by rw [hrunning, Function.update_self]⟩
    · rintro ⟨htarget, j, hj⟩
      by_cases hji : j = i
      · exact .inr ⟨(hself (hji ▸ hj)).symm, htarget⟩
      · exact .inl ⟨htarget, j, hother hj hji⟩
  · intro j k d htarget hj hk
    by_cases hji : j = i
    · subst hji
      obtain rfl := hself hj
      by_contra hne
      exact hnew htarget k (hother hk (Ne.symm hne))
    · by_cases hki : k = i
      · subst hki
        obtain rfl := hself hk
        exact absurd (hother hj hji) (hnew htarget j)
      · exact h.unique j k d htarget (hother hj hji) (hother hk hki)

/-- A worker calls a task for another subscriber. -/
theorem callOther {i : ℕ} {task : Delivery μ} (h : Underway target pool effects rest)
    (htask : pool.running i = some task) (hother : task.subscriber ≠ target)
    (hstarted : pool'.started = pool.started)
    (hrunning : pool'.running = Function.update pool.running i none) :
    Underway target pool' effects rest := by
  have hiff : ∀ {j d}, d.subscriber = target →
      (pool'.running j = some d ↔ pool.running j = some d) := by
    intro j d htarget
    rw [hrunning]
    by_cases hji : j = i
    · subst hji
      rw [Function.update_self, htask]
      refine iff_of_false (by simp) fun heq => ?_
      exact hother (by rwa [Option.some.inj heq])
    · rw [Function.update_of_ne hji]
  refine ⟨by rw [hstarted, h.started], fun d => ?_, fun j k d htarget hj hk => ?_⟩
  · rw [h.mem_rest]
    exact and_congr_right fun htarget => exists_congr fun j => (hiff htarget).symm
  · exact h.unique j k d htarget ((hiff htarget).mp hj) ((hiff htarget).mp hk)

/-- A step of the pool that calls no task for the target. -/
theorem step {size : PoolSize} {e : PoolEvent (Delivery μ)} (h : Underway target pool effects rest)
    (hnodup : pool.tasks.Nodup) (hs : pool.step size e = some pool')
    (hother : ∀ i d, e = .thread (.worker i) → pool.running i = some d → d.subscriber ≠ target) :
    ∃ rest', Underway target pool' effects rest' := by
  obtain ⟨hstarted, hrunning⟩ | ⟨i, task, q, hqueue, hidle, hstarted, hrunning⟩ |
    ⟨i, task, he, htask, hstarted, hrunning⟩ := running_step hs
  · exact ⟨rest, by rw [hstarted, h.started], by rw [hrunning]; exact h.mem_rest,
      by rw [hrunning]; exact h.unique⟩
  · refine h.take (fun hmem => ?_) hidle hstarted hrunning
    rw [PoolState.tasks, hqueue, List.nodup_append] at hnodup
    exact hnodup.2.2 task hmem task List.mem_cons_self rfl
  · exact ⟨rest, h.callOther htask (hother i task he htask) hstarted hrunning⟩

/-- The first of the deliveries under way takes effect. -/
theorem call {i : ℕ} {d : Delivery μ} (h : Underway target pool effects (d :: rest))
    (hd : d ∉ rest) (running : pool.running i = some d) (hstarted : pool'.started = pool.started)
    (hrunning : pool'.running = Function.update pool.running i none) :
    Underway target pool' (effects ++ [d]) rest := by
  have htarget : d.subscriber = target := ((h.mem_rest d).mp List.mem_cons_self).1
  have hiff : ∀ {j d'}, pool'.running j = some d' ↔ j ≠ i ∧ pool.running j = some d' := by
    intro j d'
    rw [hrunning]
    by_cases hji : j = i
    · subst hji
      simp
    · simp [hji]
  refine ⟨by rw [hstarted, h.started, List.append_assoc]; rfl, fun d' => ?_, ?_⟩
  · constructor
    · intro hd'
      obtain ⟨htarget', j, hj⟩ := (h.mem_rest d').mp (List.mem_cons_of_mem _ hd')
      refine ⟨htarget', j, hiff.mpr ⟨?_, hj⟩⟩
      rintro rfl
      rw [running] at hj
      exact hd (Option.some.inj hj ▸ hd')
    · rintro ⟨htarget', j, hj⟩
      obtain ⟨hji, hj⟩ := hiff.mp hj
      rcases List.mem_cons.mp ((h.mem_rest d').mpr ⟨htarget', j, hj⟩) with rfl | hd'
      · exact absurd (h.unique j i d' htarget hj running) hji
      · exact hd'
  · intro j k d' htarget' hj hk
    exact h.unique j k d' htarget' (hiff.mp hj).2 (hiff.mp hk).2

end Underway

/-! ## The order of effects -/

namespace ListsInv

/-- No delivery is made twice. -/
theorem nodup_tasks (hs : ListsInv topic target s) : s.bus.threadPool.tasks.Nodup := by
  rw [hs.bus.tasks]
  exact hs.bus.ordered.imp Delivery.Before.ne

/-- The deliveries under way are in the order of publication. -/
theorem pairwise {rest : List (Delivery μ)} (hs : ListsInv topic target s)
    (hrest : Underway target s.bus.threadPool s.effects rest) :
    (s.effects ++ rest).Pairwise fun d d' => d.publication < d'.publication := by
  have hprefix := started_prefix_deliveries target hs.bus
  rw [hrest.started] at hprefix
  exact (deliveries_pairwise hs.bus).sublist hprefix.sublist

/-- The effects are in the order that the invariant describes. -/
theorem inOrder (hs : ListsInv topic target s) : InOrder topic target s := by
  obtain ⟨rest, hrest⟩ := hs.underway
  have hprefix := started_prefix_deliveries target hs.bus
  rw [hrest.started] at hprefix
  have hordered := (List.pairwise_append.mp (hs.pairwise hrest)).1
  refine ⟨(List.prefix_append _ _).trans hprefix, hordered, fun d hd htarget hall => ?_⟩
  obtain ⟨hmem, -⟩ := hall d hd htarget
  obtain ⟨final, hfinal⟩ := Option.isSome_iff_exists.mp
    (List.getLast?_isSome.mpr (List.ne_nil_of_mem hmem))
  obtain ⟨before, heffects⟩ := List.getLast?_eq_some_iff.mp hfinal
  rw [heffects] at hmem hordered hprefix
  rcases List.mem_append.mp hmem with hmem | hmem
  · -- the last one that took effect is owed, and would come after all that are owed
    have hadded : final ∈ deliveries target s.bus :=
      hprefix.subset (List.mem_append_left _ (List.mem_append_right _ List.mem_cons_self))
    obtain ⟨hadded, hsubscriber⟩ := List.mem_filter.mp hadded
    have hle := (hall final ((hs.bus.mem_added final).mp hadded) (of_decide_eq_true hsubscriber)).2
    have hlt := (List.pairwise_append.mp hordered).2.2 d hmem final List.mem_cons_self
    omega
  · obtain rfl := List.mem_singleton.mp hmem
    exact hs.list d hfinal

/-- No worker holds an earlier delivery exactly if the delivery is the first of those under way. -/
theorem inTurn_iff {rest : List (Delivery μ)} (hs : ListsInv topic target s)
    (hrest : Underway target s.bus.threadPool s.effects rest) {d : Delivery μ} (hd : d ∈ rest) :
    (∀ i d', s.bus.threadPool.running i = some d' → d'.subscriber = target →
      d.publication ≤ d'.publication) ↔ ∃ rest', rest = d :: rest' := by
  have hordered := (List.pairwise_append.mp (hs.pairwise hrest)).2.1
  constructor
  · intro hturn
    obtain ⟨first, rest', rfl⟩ := List.exists_cons_of_ne_nil (List.ne_nil_of_mem hd)
    rcases List.mem_cons.mp hd with rfl | hd
    · exact ⟨rest', rfl⟩
    · have hlt := List.rel_of_pairwise_cons hordered hd
      obtain ⟨htarget, i, hi⟩ := (hrest.mem_rest first).mp List.mem_cons_self
      have hle := hturn i first hi htarget
      omega
  · rintro ⟨rest', rfl⟩ i d' hi htarget
    rcases List.mem_cons.mp ((hrest.mem_rest d').mpr ⟨htarget, i, hi⟩) with rfl | hd'
    · exact le_rfl
    · exact (List.rel_of_pairwise_cons hordered hd').le

/-- The first delivery under way takes effect. -/
theorem call {i : ℕ} {d : Delivery μ} {rest : List (Delivery μ)} {lists : TaskLists δ}
    {bus : BusState μ} (hs : ListsInv topic target s)
    (hrest : Underway target s.bus.threadPool s.effects (d :: rest))
    (running : s.bus.threadPool.running i = some d)
    (callback : TaskLists.step env s.lists (topic.event d.message) = some lists)
    (step : s.bus.step (.thread (.worker i)) = some bus) :
    ListsInv topic target { s with bus, lists, effects := s.effects ++ [d] } where
  bus := hs.bus.step step
  underway := by
    have hpairwise := (List.pairwise_append.mp (hs.pairwise hrest)).2.1
    have hd : d ∉ rest := fun hd => absurd (List.rel_of_pairwise_cons hpairwise hd) (lt_irrefl _)
    obtain ⟨threadPool, hpool, rfl⟩ := Option.map_eq_some_iff.mp step
    obtain ⟨hcall, hrunning⟩ := step_of_running mqSize running
    obtain rfl := Option.some.inj (hcall.symm.trans hpool)
    exact ⟨rest, hrest.call hd running rfl hrunning⟩
  list d' hd' := by
    rw [List.getLast?_concat] at hd'
    obtain rfl := Option.some.inj hd'
    exact topic.list_event callback

/-- A step that calls no callback on the target. -/
theorem other {e : BusEvent μ} {bus : BusState μ} (hs : ListsInv topic target s)
    (hother : s.called target (.bus e) = none) (step : s.bus.step e = some bus) :
    ListsInv topic target { s with bus } where
  bus := hs.bus.step step
  underway := by
    obtain ⟨rest, hrest⟩ := hs.underway
    rcases BusState.pool_step step with hsame | ⟨e', hpool, hthread⟩
    · exact ⟨rest, hsame ▸ hrest⟩
    · refine hrest.step hs.nodup_tasks hpool fun i d he' hrunning => ?_
      obtain rfl := hthread _ he'
      simpa [ListsState.called, hrunning] using hother
  list := hs.list

/-- A callback in turn keeps it. -/
theorem step (hs : ListsInv topic target s) (hturn : TakesInTurn topic target s e)
    (h : s.step topic target e = some s') : ListsInv topic target s' := by
  have hdefined : (s.step topic target e).isSome := Option.isSome_iff_exists.mpr ⟨s', h⟩
  cases ListsState.step_transition h with
  | call i d lists bus running subscriber free callback step =>
      obtain ⟨rest, hrest⟩ := hs.underway
      have hcalled : s.called target (.bus (.thread (.worker i))) = some d := by
        simp [ListsState.called, running, subscriber]
      have hd : d ∈ rest := (hrest.mem_rest d).mpr ⟨subscriber, i, running⟩
      obtain ⟨rest', rfl⟩ := (hs.inTurn_iff hrest hd).mp (hturn hdefined d hcalled)
      exact hs.call hrest running callback step
  | bus e bus hother step => exact hs.other hother step
  | poll | pollEnd => exact ⟨hs.bus, hs.underway, hs.list⟩
  | other e lists free owns step =>
      exact ⟨hs.bus, hs.underway, fun d hd => (topic.list_other owns step).trans (hs.list d hd)⟩

end ListsInv

/-- At the start nothing is under way. -/
theorem listsInv_init : ListsInv topic target (ListsState.init : ListsState δ μ) where
  bus := busInv_init
  underway := by
    have hidle : (PoolState.init mqSize : PoolState (Delivery μ)).running = fun _ => none :=
      running_init mqSize
    refine ⟨[], rfl, fun d => ?_, fun i j d _ hi => ?_⟩
    · simp [ListsState.init, BusState.init, hidle]
    · simp [ListsState.init, BusState.init, hidle] at hi
  list d hd := by cases hd

/-- One step keeps the effects in order if and only if it takes the messages in turn. -/
theorem inOrder_step_iff (hs : ListsInv topic target s) :
    After (ListsState.step topic target) (InOrder topic target) s e ↔
      TakesInTurn topic target s e := by
  constructor
  · intro hafter hdefined d hcalled
    obtain ⟨s', hs'⟩ := Option.isSome_iff_exists.mp hdefined
    obtain ⟨rest, hrest⟩ := hs.underway
    obtain ⟨i, rfl, running, subscriber⟩ := ListsState.called_eq_some hcalled
    have hd : d ∈ rest := (hrest.mem_rest d).mpr ⟨subscriber, i, running⟩
    refine (hs.inTurn_iff hrest hd).mpr ?_
    obtain ⟨first, rest', rfl⟩ := List.exists_cons_of_ne_nil (List.ne_nil_of_mem hd)
    refine ⟨rest', ?_⟩
    -- both are the first delivery that has not taken effect
    have heffects : s.effects ++ [d] <+: deliveries target s.bus := by
      cases ListsState.step_transition hs' with
      | call _ d' _ bus running' _ _ _ step =>
          obtain rfl := Option.some.inj (running.symm.trans running')
          obtain ⟨threadPool, -, rfl⟩ := Option.map_eq_some_iff.mp step
          exact (hafter _ hs').earliest
      | bus _ _ hother => rw [hother] at hcalled; cases hcalled
    have hprefix := started_prefix_deliveries target hs.bus
    rw [hrest.started] at hprefix
    obtain ⟨later, hlater⟩ := hprefix
    rw [← hlater, List.append_assoc, List.prefix_append_right_inj] at heffects
    obtain rfl : d = first := by simpa using heffects
    rfl
  · exact fun hturn s' hs' => (hs.step hturn hs').inOrder

/-- Along every run of publishers, workers, rounds of `serialTaskRun` and callbacks on the other
list, the callbacks take effect in order if and only if the workers take `list_mutex` in turn. -/
theorem inOrder_iff (topic : ListTopic env μ) (target : ℕ) (es : List (ListsEvent μ)) :
    StepsMeet (ListsState.step topic target)
        (After (ListsState.step topic target) (InOrder topic target)) .init es ↔
      StepsMeet (ListsState.step topic target) (TakesInTurn topic target) .init es := by
  refine stepsMeet_congr (ListsInv topic target) (fun s e hs _ => inOrder_step_iff hs) ?_
    listsInv_init (stepsMeet_trivial _ es)
  intro s e s' hs _ hafter hs'
  exact hs.step ((inOrder_step_iff hs).mp hafter) hs'

end System

/-- For the device list and for the serial list. -/
theorem lists_in_order_iff (env : Environment δ) (target : ℕ) :
    (∀ es, StepsMeet (ListsState.step (devListTopic env) target)
        (After (ListsState.step (devListTopic env) target) (InOrder (devListTopic env) target))
        .init es ↔
      StepsMeet (ListsState.step (devListTopic env) target) (TakesInTurn (devListTopic env) target)
        .init es) ∧
    ∀ es, StepsMeet (ListsState.step (serialListTopic env) target)
        (After (ListsState.step (serialListTopic env) target)
          (InOrder (serialListTopic env) target)) .init es ↔
      StepsMeet (ListsState.step (serialListTopic env) target)
        (TakesInTurn (serialListTopic env) target) .init es :=
  ⟨inOrder_iff (devListTopic env) target, inOrder_iff (serialListTopic env) target⟩

/-- A serial of the list on an RS-485 line. -/
private def line : SerialIdInfo :=
  { serialId := 0, statu := 0, serialName := "RS485-1", name := "RS485-1", id := ""
    serialParamInfo := ⟨9600, 8, "1", "N", 0, 0⟩ }

/-- A device on it. -/
private def pcs (devName : String) : DevInfo :=
  { id := "", devName, serialInfo := line, protocol := "modbus", addr := 1, category := ""
    model := "", sn := "", deviceStatus := 0 }

/-- A list is published to the only subscriber. -/
private def publishList (msg : List DevInfo) : List (ListsEvent (List DevInfo)) :=
  [.bus (.publish "Setting/DevList" msg), .bus .visit, .bus .visit]

/-- Steps of these workers. -/
private def workers (is : List ℕ) : List (ListsEvent (List DevInfo)) :=
  is.map fun i => .bus (.thread (.worker i))

/-- Three devices are added during a round of `serialTaskRun`. The pool grows to three workers,
which take the mutex in the opposite order. -/
def overtaken : List (ListsEvent (List DevInfo)) :=
  [.bus (.subscribe "Setting/DevList"), .other (.serials [line])] ++ publishList [pcs "a"] ++
    workers [0, 0, 0] ++ [.other .work, .poll] ++ publishList [pcs "a", pcs "b"] ++ workers [0] ++
    publishList [pcs "a", pcs "b", pcs "c"] ++ publishList [pcs "a", pcs "b", pcs "c", pcs "d"] ++
    [.bus (.thread .manager), .bus (.thread .manager), .bus (.thread .manager)] ++
    workers [1, 2] ++ [.pollEnd] ++ workers [2, 1, 0]

/-- All callbacks have been called, and the list of four devices is overwritten by an earlier one.
-/
theorem last_list_overtaken :
    ∃ s : ListsState Decimal (List DevInfo),
      run (ListsState.step (devListTopic ⟨fun _ => 3, []⟩) 0) .init overtaken = some s ∧
        (∀ d ∈ deliveries 0 s.bus, d ∈ s.effects) ∧
        s.bus.publications.getLast?.map Publication.message =
          some [pcs "a", pcs "b", pcs "c", pcs "d"] ∧
        s.lists.devList = [pcs "a", pcs "b"] ∧
        ¬ InOrder (devListTopic ⟨fun _ => 3, []⟩) 0 s := by
  have hrun : (run (ListsState.step (devListTopic (⟨fun _ => 3, []⟩ : Environment Decimal)) 0)
      .init overtaken).map (fun s =>
        ((deliveries 0 s.bus).all (· ∈ s.effects),
          s.bus.publications.getLast?.map Publication.message, s.lists.devList,
          s.effects.map Delivery.publication)) =
        some (true, some [pcs "a", pcs "b", pcs "c", pcs "d"], [pcs "a", pcs "b"],
          [0, 3, 2, 1]) := by decide
  obtain ⟨s, hs, hlast⟩ := Option.map_eq_some_iff.mp hrun
  simp only [Prod.mk.injEq, List.all_eq_true, decide_eq_true_eq] at hlast
  obtain ⟨hall, hmessage, hlist, heffects⟩ := hlast
  refine ⟨s, hs, hall, hmessage, hlist, fun horder => ?_⟩
  have hincreasing := List.pairwise_map.mpr horder.increasing
  rw [heffects] at hincreasing
  exact absurd hincreasing (by decide)

end CsiFirmware.Task
