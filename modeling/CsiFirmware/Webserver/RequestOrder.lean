import CsiFirmware.Webserver.HttpService
import Mathlib.Data.List.Nodup
import Mathlib.Order.Nat

/-!
# The order in which requests are executed

Reference: `HttpService::receive` and the handler of `POST /api`.

Requests are numbered in the order of their pushes. The queue holds them in that order, and what
`receive` returns never goes back behind a request returned before. So a request can only be
returned twice in a row, and that happens when the queue changes its size while the request is still
in it.
-/

namespace CsiFirmware.Webserver

open Runs Threads

variable {jsonInt : String → String → Option Int} {s s' : HttpState}

/-- The order of the requests in the queue, and of those that were returned and answered. -/
structure RequestOrder (s : HttpState) : Prop where
  queue : (s.recvQueue.map Entry.owner).Pairwise (· < ·)
  /-- A body in the queue is that of the handler that pushed it. -/
  body : ∀ e ∈ s.recvQueue, ∃ h, s.handlers[e.owner]? = some h ∧ h.body = e.body
  returned : s.returned.Pairwise (· ≤ ·)
  returned_le : ∀ r ∈ s.returned, ∀ e ∈ s.recvQueue, r ≤ e.owner
  returned_lt : ∀ r ∈ s.returned, r < s.handlers.length

/-- The request the worker is executing. -/
def WorkerPc.request : WorkerPc → Option Entry
  | .operation request => some request
  | .store request _ => some request
  | .notify request => some request
  | _ => none

/-- What the worker is executing was returned last, and all answers are to requests that were
returned. -/
structure AnswerOrder (s : HttpState) : Prop where
  current : ∀ request, s.worker.request = some request → s.returned.getLast? = some request.owner
  sent : ∀ p ∈ s.sent, p.1 ∈ s.returned
  text : ∀ p ∈ s.sent, p.2 ≠ ""
  stored : ∀ request text, s.worker = .store request text → text ≠ ""

/-- There are no requests yet. -/
theorem requestOrder_initial : RequestOrder .initial := by
  constructor <;> simp [HttpState.initial]

/-- Nothing has been executed yet. -/
theorem answerOrder_initial : AnswerOrder .initial := by
  constructor <;> simp [HttpState.initial, WorkerPc.request]

/-- A move keeps the body of the handler. -/
theorem HandlerMove.body {h h' : Handler} (move : HandlerMove jsonInt s h h') :
    h'.body = h.body := by
  cases move <;> rfl

/-- The handler that pushed an entry is still there with its body after a step of a handler. -/
theorem body_put {handlers : List Handler} {i k : ℕ} {h h' : Handler} {b : String}
    (at_i : handlers[i]? = some h) (hbody : h'.body = h.body)
    (hk : ∃ h, handlers[k]? = some h ∧ h.body = b) :
    ∃ h, (handlers.set i h')[k]? = some h ∧ h.body = b := by
  obtain ⟨g, at_k, hg⟩ := hk
  by_cases hki : k = i
  · subst hki
    obtain rfl : h = g := Option.some.inj (at_i.symm.trans at_k)
    exact ⟨h', lookup_set_self at_i, hbody.trans hg⟩
  · exact ⟨g, (lookup_set_of_ne hki).trans at_k, hg⟩

namespace RequestOrder

/-- A handler that keeps its body leaves the order alone. -/
theorem put {i : ℕ} {h h' : Handler} (hs : RequestOrder s) (at_i : s.handlers[i]? = some h)
    (hbody : h'.body = h.body) : RequestOrder (s.put i h') where
  queue := hs.queue
  body e he := body_put at_i hbody (hs.body e he)
  returned := hs.returned
  returned_le := hs.returned_le
  returned_lt r hr := by simpa using hs.returned_lt r hr

/-- The owner of an entry is one of the handlers. -/
theorem owner_lt {e : Entry} (hs : RequestOrder s) (he : e ∈ s.recvQueue) :
    e.owner < s.handlers.length := by
  obtain ⟨g, at_e, -⟩ := hs.body e he
  exact (List.getElem?_eq_some_iff.mp at_e).1

/-- A new request has the largest number. -/
theorem request (hs : RequestOrder s) (body : String) :
    RequestOrder { s with
      recvQueue := s.recvQueue ++ [⟨s.handlers.length, body⟩]
      handlers := s.handlers ++ [⟨body, .enter, none⟩] } where
  queue := by
    simp only [List.map_append, List.map_cons, List.map_nil, List.pairwise_append]
    refine ⟨hs.queue, by simp, ?_⟩
    simpa using fun e he => hs.owner_lt he
  body e he := by
    simp only [List.mem_append, List.mem_singleton] at he
    rcases he with he | rfl
    · obtain ⟨g, at_e, hg⟩ := hs.body e he
      exact ⟨g, lookup_concat_left at_e, hg⟩
    · exact ⟨_, List.getElem?_concat_length, rfl⟩
  returned := hs.returned
  returned_le r hr e he := by
    simp only [List.mem_append, List.mem_singleton] at he
    rcases he with he | rfl
    · exact hs.returned_le r hr e he
    · exact (hs.returned_lt r hr).le
  returned_lt r hr := by
    have hlt : r < s.handlers.length := hs.returned_lt r hr
    simp only [List.length_append, List.length_singleton]
    omega

/-- The head is returned, which comes before the rest of the queue. -/
theorem front {e : Entry} {q : List Entry} (hs : RequestOrder s) (queue : s.recvQueue = e :: q)
    (cur : ℕ) :
    RequestOrder { s with
      lastQueueSize := cur
      worker := .operation e
      returned := s.returned ++ [e.owner] } where
  queue := hs.queue
  body := hs.body
  returned := by
    rw [List.pairwise_append]
    refine ⟨hs.returned, by simp, fun r hr r' hr' => ?_⟩
    obtain rfl := List.mem_singleton.mp hr'
    exact hs.returned_le r hr e (by simp [queue])
  returned_le r hr e' he' := by
    rw [List.mem_append, List.mem_singleton] at hr
    rcases hr with hr | rfl
    · exact hs.returned_le r hr e' he'
    · have hq := hs.queue
      simp only [queue, List.map_cons, List.pairwise_cons] at hq he'
      rcases List.mem_cons.mp he' with rfl | he'
      · exact le_rfl
      · exact (hq.1 e'.owner (List.mem_map_of_mem he')).le
  returned_lt r hr := by
    rw [List.mem_append, List.mem_singleton] at hr
    rcases hr with hr | rfl
    · exact hs.returned_lt r hr
    · exact hs.owner_lt (by simp [queue])

/-- No step mixes up the order of the requests. -/
theorem step {e : HttpEvent} (hs : RequestOrder s) (h : s.step jsonInt e = some s') :
    RequestOrder s' := by
  cases HttpState.step_transition h with
  | request body => exact hs.request body
  | move i g g' at_i move => exact hs.put at_i move.body
  | clear i g at_i =>
      have hput : RequestOrder (s.put i { g with pc := .pop }) := hs.put at_i rfl
      exact ⟨hput.queue, hput.body, hput.returned, hput.returned_le, hput.returned_lt⟩
  -- fewer entries are left, in the same order
  | pop i g e q at_i pc queue =>
      have hput : RequestOrder (s.put i { g with pc := .done }) := hs.put at_i rfl
      have hmem : ∀ e' ∈ q, e' ∈ s.recvQueue := fun e' he' => by simp [queue, he']
      refine ⟨?_, fun e' he' => hput.body e' (hmem e' he'), hs.returned,
        fun r hr e' he' => hs.returned_le r hr e' (hmem e' he'), hput.returned_lt⟩
      have hq := hs.queue
      rw [queue, List.map_cons] at hq
      exact hq.of_cons
  | spurious i g at_i => exact hs.put at_i rfl
  | think | resetSize | store =>
      exact ⟨hs.queue, hs.body, hs.returned, hs.returned_le, hs.returned_lt⟩
  | front text cur e q pc queue => exact hs.front queue cur
  | notify =>
      refine ⟨hs.queue, fun e he => ?_, hs.returned, hs.returned_le, fun r hr => ?_⟩
      · obtain ⟨g, at_e, hg⟩ := hs.body e he
        exact ⟨g.wake, by simp [at_e], by simpa using hg⟩
      · simpa using hs.returned_lt r hr

end RequestOrder

namespace AnswerOrder

/-- A step that leaves the worker and the history alone. -/
theorem frame (hs : AnswerOrder s) (hworker : s'.worker = s.worker)
    (hreturned : s'.returned = s.returned) (hsent : s'.sent = s.sent) : AnswerOrder s' where
  current := by simpa only [hworker, hreturned] using hs.current
  sent := by simpa only [hsent, hreturned] using hs.sent
  text := by simpa only [hsent] using hs.text
  stored := by simpa only [hworker] using hs.stored

/-- An answer is stored for the request that the worker executes, and that was returned last. -/
theorem step {e : HttpEvent} (hs : AnswerOrder s) (h : s.step jsonInt e = some s') :
    AnswerOrder s' := by
  cases HttpState.step_transition h with
  | request | move | clear | pop | spurious => exact hs.frame rfl rfl rfl
  | think text pc move =>
      refine ⟨?_, hs.sent, hs.text, ?_⟩
      · intro request hrequest
        cases move with
        | execute r text pc =>
            obtain rfl := Option.some.inj hrequest
            exact hs.current r (by rw [pc]; rfl)
        | empty | nonempty | readSize | changed | unchanged | ignore => cases hrequest
      · intro request t ht
        cases move with
        | execute r text pc task nonempty =>
            obtain ⟨-, rfl⟩ := WorkerPc.store.inj ht
            exact nonempty
        | empty | nonempty | readSize | changed | unchanged | ignore => cases ht
  | resetSize => exact ⟨fun _ hr => (by cases hr), hs.sent, hs.text, fun _ _ ht => (by cases ht)⟩
  | front text cur e q pc queue =>
      refine ⟨?_, fun p hp => List.mem_append_left _ (hs.sent p hp), hs.text,
        fun _ _ ht => by cases ht⟩
      intro request hrequest
      obtain rfl := Option.some.inj hrequest
      exact List.getLast?_concat
  | store text request reply pc =>
      have hlast : s.returned.getLast? = some request.owner := hs.current request (by rw [pc]; rfl)
      refine ⟨?_, ?_, ?_, fun _ _ ht => by cases ht⟩
      · intro r hr
        obtain rfl := Option.some.inj hr
        exact hlast
      · intro p hp
        rw [List.mem_append, List.mem_singleton] at hp
        rcases hp with hp | rfl
        · exact hs.sent p hp
        · exact List.mem_of_getLast? hlast
      · intro p hp
        rw [List.mem_append, List.mem_singleton] at hp
        rcases hp with hp | rfl
        · exact hs.text p hp
        · exact hs.stored request reply pc
  | notify => exact ⟨fun _ hr => (by cases hr), hs.sent, hs.text, fun _ _ ht => (by cases ht)⟩

end AnswerOrder

/-! ## Requests that are returned twice -/

/-- The last of an ascending list is the largest. -/
theorem le_getLast {l : List ℕ} {r m : ℕ} (hl : l.Pairwise (· ≤ ·)) (hm : l.getLast? = some m)
    (hr : r ∈ l) : r ≤ m := by
  obtain ⟨init, rfl⟩ := List.getLast?_eq_some_iff.mp hm
  rw [List.mem_append, List.mem_singleton] at hr
  rcases hr with hr | rfl
  · exact (List.pairwise_append.mp hl).2.2 r hr m (List.mem_singleton_self m)
  · exact le_rfl

/-- The body of a request to add a device. -/
def addBody (name sn : String) : String :=
  "\x7b\"data\":\x7b\"category\":\"pcs\",\"communicationAddress\":\"1\",\"model\":\"csi\"," ++
    "\"name\":\"" ++ name ++ "\",\"port\":\"COM1\",\"protocol\":\"modbus\",\"sn\":\"" ++ sn ++
    "\"\x7d,\"taskID\":5\x7d"

/-- A request to add the device `A`. -/
def bodyA : String := addBody "A" "0001"

/-- A request to add the device `B`. -/
def bodyB : String := addBody "B" "0002"

/-- The answer of `AddDev` after success. -/
def addedText : String := "\x7b\"errorCode\":200,\"response\":\"ok\"\x7d"

/-- The integers in these texts. -/
def addDevJson (text key : String) : Option Int :=
  if text = bodyA ∨ text = bodyB then if key = "taskID" then some 5 else none
  else if text = addedText then if key = "errorCode" then some 200 else none
  else none

/-- Handler `i` pushes the body and waits, the worker answers, and the handler takes the answer. -/
def answered (i : ℕ) (body : String) : List HttpEvent :=
  [.request body, .handler i, .worker "", .worker "", .worker "", .worker "", .worker addedText,
    .worker "", .worker "", .handler i, .handler i, .handler i, .handler i, .handler i, .handler i,
    .handler i]

/-- Two requests one after the other. Between them the worker finds the queue empty. -/
def twoRequests : List HttpEvent :=
  answered 0 bodyA ++ [.worker "", .worker "", .worker "", .worker ""] ++ answered 1 bodyB

end CsiFirmware.Webserver
