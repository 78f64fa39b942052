import CsiFirmware.Lib.Runs
import CsiFirmware.Lib.Threads
import Mathlib.Data.List.Pairwise
import Mathlib.Tactic.Common

/-!
# POST requests and the thread that answers them

Reference: `HttpService`, `NetWorkLayerImp::operation` and the thread of `TaskHttp`.

The handler of a POST request pushes the body on `recv_queue` and waits on `handle_cv` until it
finds its body at the head of the queue. The worker of `TaskHttp` reads the head without removing
it, executes it, stores the answer in `response_data`, which all handlers share, and wakes every
handler that waits. Whether the head is a new one is inferred from `lastQueueSize`.

`queue_mutex` covers one `push` or `pop` at a time, and `handle_cv_m` the test of a handler that was
woken. All other accesses are unprotected, so each constructor of `HandlerPc` and `WorkerPc` is a
place between two accesses to what is shared. A step has no result where the program's behaviour is
undefined: `front()` or `pop()` of an empty queue.
-/

namespace CsiFirmware.Webserver

open Runs

/-! ## Tasks -/

/-- `taskId`, the tasks a request can ask for. -/
inductive TaskId where
  | getPassWord
  | devTableSave
  | channelTableSave
  | getDevTable
  | getChannelTable
  | addDev
  | editDev
  | delDev
  | addChannel
  | editChannel
  | delChannel
  | getRTData
deriving DecidableEq

/-- The label of the `switch` in `operation` that a number selects. -/
def TaskId.ofInt : Int → Option TaskId
  | 0 => some .getPassWord
  | 1 => some .devTableSave
  | 2 => some .channelTableSave
  | 3 => some .getDevTable
  | 4 => some .getChannelTable
  | 5 => some .addDev
  | 6 => some .editDev
  | 7 => some .delDev
  | 8 => some .addChannel
  | 9 => some .editChannel
  | 10 => some .delChannel
  | 11 => some .getRTData
  | _ => none

section Json

-- the integer that a JSON text holds under a key, if it is an object that holds one
variable (jsonInt : String → String → Option Int)

/-- `NetWorkLayerImp::getTaskId`. Every failure counts as task 0. -/
def getTaskId (recvData : String) : Int := (jsonInt recvData "taskID").getD 0

/-- `HttpService::getCodeError`. -/
def getCodeError (responseData : String) : Int := (jsonInt responseData "errorCode").getD 0

/-- The task that `operation` executes for what `receive` returned, if any. -/
def selectedTask (recvData : String) : Option TaskId :=
  TaskId.ofInt (if recvData = "" then -1 else getTaskId jsonInt recvData)

end Json

/-! ## The threads -/

/-- A body in `recv_queue`, with the number of the handler that pushed it. -/
structure Entry where
  owner : ℕ
  body : String
deriving DecidableEq

/-- What a handler writes to `res`. -/
structure Response where
  status : Int
  contentType : String
  content : String
deriving DecidableEq

/-- The next step of a handler, from the end of its `push` on. -/
inductive HandlerPc where
  /-- The lock of `handle_cv_m` and the entry into `handle_cv.wait`. A notification is lost here. -/
  | enter
  /-- Inside `handle_cv.wait`. -/
  | blocked
  /-- Woken: the lock of `handle_cv_m` and the comparison of `recv_queue.front()` with the body. -/
  | woken
  /-- The comparison held: `!recv_queue.empty()`, still under `handle_cv_m`. -/
  | checkEmpty
  /-- Out of the loop: `!response_data.empty()`. -/
  | testResponse
  /-- `getCodeError(response_data)`. -/
  | readCode
  /-- `set_content(response_data, ...)`. -/
  | setContent (codeError : Int)
  /-- `response_data.clear()`. -/
  | clear
  /-- `recv_queue.pop()`. -/
  | pop
  | done
deriving DecidableEq

/-- A POST request under way. -/
structure Handler where
  body : String
  pc : HandlerPc
  res : Option Response
deriving DecidableEq

/-- The next step of the worker. -/
inductive WorkerPc where
  /-- The first `recv_queue.empty()` of `receive`. -/
  | checkEmpty
  /-- `lastQueueSize = recv_queue.size()`. -/
  | resetSize
  /-- `curQueueSize = recv_queue.size()`. -/
  | readSize
  /-- `!recv_queue.empty() && curQueueSize != lastQueueSize`. -/
  | testSize (curQueueSize : ℕ)
  /-- `data = recv_queue.front()` and `lastQueueSize = curQueueSize`. -/
  | front (curQueueSize : ℕ)
  /-- `operation` after `receive`. -/
  | operation (request : Entry)
  /-- `response_data = data` in `send`. -/
  | store (request : Entry) (text : String)
  /-- `handle_cv.notify_all()` in `send`. -/
  | notify (request : Entry)
deriving DecidableEq

/-- The shared members of `HttpService`, the handlers in the order of their pushes, the worker, and
what has happened so far. -/
structure HttpState where
  recvQueue : List Entry
  lastQueueSize : ℕ
  responseData : String
  handlers : List Handler
  worker : WorkerPc
  /-- The owners of the requests that `receive` has returned. -/
  returned : List ℕ
  /-- What `send` was called with, and for whose request. -/
  sent : List (ℕ × String)
deriving DecidableEq

/-- The constructor of `HttpService`, before any request. -/
def HttpState.initial : HttpState :=
  { recvQueue := [], lastQueueSize := 0, responseData := "ok", handlers := []
    worker := .checkEmpty, returned := [], sent := [] }

/-- Handler `i` becomes `h`. -/
def HttpState.put (s : HttpState) (i : ℕ) (h : Handler) : HttpState :=
  { s with handlers := s.handlers.set i h }

section Put

variable (s : HttpState) (i : ℕ) (h : Handler)

/-- What happens to a handler leaves the rest of the server alone. -/
@[simp] theorem HttpState.put_recvQueue : (s.put i h).recvQueue = s.recvQueue := rfl
@[simp] theorem HttpState.put_lastQueueSize : (s.put i h).lastQueueSize = s.lastQueueSize := rfl
@[simp] theorem HttpState.put_responseData : (s.put i h).responseData = s.responseData := rfl
@[simp] theorem HttpState.put_handlers : (s.put i h).handlers = s.handlers.set i h := rfl
@[simp] theorem HttpState.put_worker : (s.put i h).worker = s.worker := rfl
@[simp] theorem HttpState.put_returned : (s.put i h).returned = s.returned := rfl
@[simp] theorem HttpState.put_sent : (s.put i h).sent = s.sent := rfl

end Put

/-- No handler stands between the comparison with `front()` and the emptiness test. -/
def HttpState.cvMutexFree (s : HttpState) : Prop := ∀ h ∈ s.handlers, h.pc ≠ .checkEmpty

instance (s : HttpState) : Decidable s.cvMutexFree :=
  inferInstanceAs (Decidable (∀ h ∈ s.handlers, h.pc ≠ .checkEmpty))

/-- What `notify_all` does to a handler. -/
def Handler.wake (h : Handler) : Handler :=
  if h.pc = .blocked then { h with pc := .woken } else h

/-- A notification does not change the body of a handler. -/
@[simp] theorem Handler.wake_body (h : Handler) : h.wake.body = h.body := by
  unfold Handler.wake
  split <;> rfl

/-- A notification does not change what a handler has written. -/
@[simp] theorem Handler.wake_res (h : Handler) : h.wake.res = h.res := by
  unfold Handler.wake
  split <;> rfl

/-! ## Steps -/

/-- What can happen next. -/
inductive HttpEvent where
  /-- A POST request arrives, and its handler pushes the body. -/
  | request (body : String)
  | handler (i : ℕ)
  /-- A spurious wake-up of a handler. -/
  | spurious (i : ℕ)
  /-- A step of the worker; `text` is the JSON text it answers with, if it is about to execute a
  request. -/
  | worker (text : String)
deriving DecidableEq

variable (jsonInt : String → String → Option Int)

/-- A step of handler `i`, which is `h`. -/
def handlerStep (s : HttpState) (i : ℕ) (h : Handler) : Option HttpState :=
  match h.pc with
  | .enter => if s.cvMutexFree then some (s.put i { h with pc := .blocked }) else none
  -- only a notification or a spurious wake-up leads on from here
  | .blocked => none
  | .woken =>
      if s.cvMutexFree then
        match s.recvQueue with
        | [] => none
        | e :: _ => some (s.put i { h with pc := if e.body = h.body then .checkEmpty else .enter })
      else none
  | .checkEmpty =>
      some (s.put i { h with pc := if s.recvQueue = [] then .enter else .testResponse })
  | .testResponse =>
      some (s.put i { h with pc := if s.responseData = "" then .clear else .readCode })
  | .readCode => some (s.put i { h with pc := .setContent (getCodeError jsonInt s.responseData) })
  | .setContent codeError =>
      let contentType := if codeError = 200 then "application/json" else "text/plain"
      some (s.put i { h with pc := .clear, res := some ⟨codeError, contentType, s.responseData⟩ })
  | .clear => some { s.put i { h with pc := .pop } with responseData := "" }
  | .pop =>
      match s.recvQueue with
      | [] => none
      -- the head is removed, whichever handler has pushed it
      | _ :: q => some { s.put i { h with pc := .done } with recvQueue := q }
  | .done => none

/-- A step of the worker. -/
def workerStep (text : String) (s : HttpState) : Option HttpState :=
  match s.worker with
  | .checkEmpty =>
      some { s with worker := if s.recvQueue = [] then .resetSize else .readSize }
  | .resetSize => some { s with lastQueueSize := s.recvQueue.length, worker := .readSize }
  | .readSize => some { s with worker := .testSize s.recvQueue.length }
  | .testSize cur =>
      some { s with
        worker := if s.recvQueue ≠ [] ∧ cur ≠ s.lastQueueSize then .front cur else .checkEmpty }
  | .front cur =>
      match s.recvQueue with
      | [] => none
      | e :: _ =>
          some { s with
            lastQueueSize := cur
            worker := .operation e
            returned := s.returned ++ [e.owner] }
  | .operation request =>
      match selectedTask jsonInt request.body with
      -- no reply is sent
      | none => some { s with worker := .checkEmpty }
      | some _ => if text = "" then none else some { s with worker := .store request text }
  | .store request text =>
      some { s with
        responseData := text
        worker := .notify request
        sent := s.sent ++ [(request.owner, text)] }
  | .notify _ => some { s with handlers := s.handlers.map Handler.wake, worker := .checkEmpty }

/-- A step of the server, where the program is defined. -/
def HttpState.step (s : HttpState) : HttpEvent → Option HttpState
  | .request body =>
      some { s with
        recvQueue := s.recvQueue ++ [⟨s.handlers.length, body⟩]
        handlers := s.handlers ++ [⟨body, .enter, none⟩] }
  | .handler i => s.handlers[i]?.bind (handlerStep jsonInt s i)
  | .spurious i =>
      s.handlers[i]?.bind fun h =>
        if h.pc = .blocked then some (s.put i { h with pc := .woken }) else none
  | .worker text => workerStep jsonInt text s

/-! ## What a step can do -/

/-- The steps of a handler that change nothing but the handler itself. -/
inductive HandlerMove (s : HttpState) (h : Handler) : Handler → Prop where
  | wait (pc : h.pc = .enter) : HandlerMove s h { h with pc := .blocked }
  | own (e : Entry) (q : List Entry) (pc : h.pc = .woken) (queue : s.recvQueue = e :: q)
      (body : e.body = h.body) : HandlerMove s h { h with pc := .checkEmpty }
  | foreign (e : Entry) (q : List Entry) (pc : h.pc = .woken) (queue : s.recvQueue = e :: q)
      (body : e.body ≠ h.body) : HandlerMove s h { h with pc := .enter }
  | retry (pc : h.pc = .checkEmpty) (queue : s.recvQueue = []) :
      HandlerMove s h { h with pc := .enter }
  | leave (pc : h.pc = .checkEmpty) (queue : s.recvQueue ≠ []) :
      HandlerMove s h { h with pc := .testResponse }
  | skip (pc : h.pc = .testResponse) (response : s.responseData = "") :
      HandlerMove s h { h with pc := .clear }
  | answer (pc : h.pc = .testResponse) (response : s.responseData ≠ "") :
      HandlerMove s h { h with pc := .readCode }
  | readCode (pc : h.pc = .readCode) :
      HandlerMove s h { h with pc := .setContent (getCodeError jsonInt s.responseData) }
  | setContent (codeError : Int) (contentType : String) (pc : h.pc = .setContent codeError) :
      HandlerMove s h
        { h with pc := .clear, res := some ⟨codeError, contentType, s.responseData⟩ }

/-- The steps of the worker that change nothing but its program counter. -/
inductive WorkerMove (s : HttpState) : WorkerPc → Prop where
  | empty (pc : s.worker = .checkEmpty) (queue : s.recvQueue = []) : WorkerMove s .resetSize
  | nonempty (pc : s.worker = .checkEmpty) (queue : s.recvQueue ≠ []) : WorkerMove s .readSize
  | readSize (pc : s.worker = .readSize) : WorkerMove s (.testSize s.recvQueue.length)
  | changed (cur : ℕ) (pc : s.worker = .testSize cur) (queue : s.recvQueue ≠ [])
      (size : cur ≠ s.lastQueueSize) : WorkerMove s (.front cur)
  | unchanged (cur : ℕ) (pc : s.worker = .testSize cur)
      (size : s.recvQueue = [] ∨ cur = s.lastQueueSize) : WorkerMove s .checkEmpty
  | ignore (request : Entry) (pc : s.worker = .operation request)
      (task : selectedTask jsonInt request.body = none) : WorkerMove s .checkEmpty
  | execute (request : Entry) (text : String) (pc : s.worker = .operation request)
      (task : selectedTask jsonInt request.body ≠ none) (nonempty : text ≠ "") :
      WorkerMove s (.store request text)

/-- All that a step can do. -/
inductive Transition (s : HttpState) : HttpEvent → HttpState → Prop where
  | request (body : String) :
      Transition s (.request body) { s with
        recvQueue := s.recvQueue ++ [⟨s.handlers.length, body⟩]
        handlers := s.handlers ++ [⟨body, .enter, none⟩] }
  | move (i : ℕ) (h h' : Handler) (at_i : s.handlers[i]? = some h)
      (move : HandlerMove jsonInt s h h') : Transition s (.handler i) (s.put i h')
  | clear (i : ℕ) (h : Handler) (at_i : s.handlers[i]? = some h) (pc : h.pc = .clear) :
      Transition s (.handler i) { s.put i { h with pc := .pop } with responseData := "" }
  | pop (i : ℕ) (h : Handler) (e : Entry) (q : List Entry) (at_i : s.handlers[i]? = some h)
      (pc : h.pc = .pop) (queue : s.recvQueue = e :: q) :
      Transition s (.handler i) { s.put i { h with pc := .done } with recvQueue := q }
  | spurious (i : ℕ) (h : Handler) (at_i : s.handlers[i]? = some h) (pc : h.pc = .blocked) :
      Transition s (.spurious i) (s.put i { h with pc := .woken })
  | think (text : String) (pc : WorkerPc) (move : WorkerMove jsonInt s pc) :
      Transition s (.worker text) { s with worker := pc }
  | resetSize (text : String) (pc : s.worker = .resetSize) :
      Transition s (.worker text)
        { s with lastQueueSize := s.recvQueue.length, worker := .readSize }
  | front (text : String) (cur : ℕ) (e : Entry) (q : List Entry) (pc : s.worker = .front cur)
      (queue : s.recvQueue = e :: q) :
      Transition s (.worker text) { s with
        lastQueueSize := cur
        worker := .operation e
        returned := s.returned ++ [e.owner] }
  | store (text : String) (request : Entry) (reply : String)
      (pc : s.worker = .store request reply) :
      Transition s (.worker text) { s with
        responseData := reply
        worker := .notify request
        sent := s.sent ++ [(request.owner, reply)] }
  | notify (text : String) (request : Entry) (pc : s.worker = .notify request) :
      Transition s (.worker text)
        { s with handlers := s.handlers.map Handler.wake, worker := .checkEmpty }

variable {jsonInt} {s s' : HttpState}

/-- A step of a handler that exists. -/
theorem HttpState.step_handler {i : ℕ} {h : Handler} (at_i : s.handlers[i]? = some h) :
    s.step jsonInt (.handler i) = handlerStep jsonInt s i h := by
  rw [HttpState.step, at_i, Option.bind_some]

/-- What a handler does is a move, the clearing of the answer or a removal. -/
theorem handlerStep_transition {i : ℕ} {h : Handler} (at_i : s.handlers[i]? = some h)
    (hs : handlerStep jsonInt s i h = some s') : Transition jsonInt s (.handler i) s' := by
  unfold handlerStep at hs
  split at hs
  next pc =>
    split at hs
    · obtain rfl := Option.some.inj hs
      exact .move i h _ at_i (.wait pc)
    · cases hs
  next => cases hs
  next pc =>
    split at hs
    · split at hs
      · cases hs
      next e q queue =>
        obtain rfl := Option.some.inj hs
        by_cases body : e.body = h.body
        · rw [if_pos body]
          exact .move i h _ at_i (.own e q pc queue body)
        · rw [if_neg body]
          exact .move i h _ at_i (.foreign e q pc queue body)
    · cases hs
  next pc =>
    obtain rfl := Option.some.inj hs
    by_cases queue : s.recvQueue = []
    · rw [if_pos queue]
      exact .move i h _ at_i (.retry pc queue)
    · rw [if_neg queue]
      exact .move i h _ at_i (.leave pc queue)
  next pc =>
    obtain rfl := Option.some.inj hs
    by_cases response : s.responseData = ""
    · rw [if_pos response]
      exact .move i h _ at_i (.skip pc response)
    · rw [if_neg response]
      exact .move i h _ at_i (.answer pc response)
  next pc =>
    obtain rfl := Option.some.inj hs
    exact .move i h _ at_i (.readCode pc)
  next codeError pc =>
    obtain rfl := Option.some.inj hs
    exact .move i h _ at_i (.setContent codeError _ pc)
  next pc =>
    obtain rfl := Option.some.inj hs
    exact .clear i h at_i pc
  next pc =>
    split at hs
    · cases hs
    next e q queue =>
      obtain rfl := Option.some.inj hs
      exact .pop i h e q at_i pc queue
  next => cases hs

/-- What the worker does is a move, or changes what it shares with the handlers. -/
theorem workerStep_transition {text : String} (hs : workerStep jsonInt text s = some s') :
    Transition jsonInt s (.worker text) s' := by
  unfold workerStep at hs
  split at hs
  next pc =>
    obtain rfl := Option.some.inj hs
    by_cases queue : s.recvQueue = []
    · rw [if_pos queue]
      exact .think text _ (.empty pc queue)
    · rw [if_neg queue]
      exact .think text _ (.nonempty pc queue)
  next pc =>
    obtain rfl := Option.some.inj hs
    exact .resetSize text pc
  next pc =>
    obtain rfl := Option.some.inj hs
    exact .think text _ (.readSize pc)
  next cur pc =>
    obtain rfl := Option.some.inj hs
    by_cases size : s.recvQueue ≠ [] ∧ cur ≠ s.lastQueueSize
    · rw [if_pos size]
      exact .think text _ (.changed cur pc size.1 size.2)
    · rw [if_neg size]
      exact .think text _ (.unchanged cur pc (by tauto))
  next cur pc =>
    split at hs
    · cases hs
    next e q queue =>
      obtain rfl := Option.some.inj hs
      exact .front text cur e q pc queue
  next request pc =>
    split at hs
    next task =>
      obtain rfl := Option.some.inj hs
      exact .think text _ (.ignore request pc task)
    next task =>
      split at hs
      · cases hs
      next nonempty =>
        obtain rfl := Option.some.inj hs
        exact .think text _ (.execute request text pc (by simp [task]) nonempty)
  next request reply pc =>
    obtain rfl := Option.some.inj hs
    exact .store text request reply pc
  next request pc =>
    obtain rfl := Option.some.inj hs
    exact .notify text request pc

/-- A defined step is one of the transitions. -/
theorem HttpState.step_transition {e : HttpEvent} (hs : s.step jsonInt e = some s') :
    Transition jsonInt s e s' := by
  cases e with
  | request body =>
      obtain rfl := Option.some.inj hs
      exact .request body
  | handler i =>
      obtain ⟨h, at_i, hs⟩ := Option.bind_eq_some_iff.mp hs
      exact handlerStep_transition at_i hs
  | spurious i =>
      obtain ⟨h, at_i, hs⟩ := Option.bind_eq_some_iff.mp hs
      split at hs
      next pc =>
        obtain rfl := Option.some.inj hs
        exact .spurious i h at_i pc
      · cases hs
  | worker text => exact workerStep_transition hs

end CsiFirmware.Webserver
