import Mathlib.Data.Finset.Max

/-!
# Web socket connections

Reference: `WebSocketService`.

`send` goes over `connections` in the thread of its caller, while the open handler inserts and the
close handler erases in the thread of the server, and nothing locks the set. Here a handler can run
between any two steps of the loop: taking `begin()`, one call of `echo_server.send`, one increment
of the iterator. Each of these is one step, as is an insertion or an erasure; what two of them do
that run at the very same time is not modelled.

Two things end the process. `echo_server.send` throws for a connection that is no longer open, in a
thread that catches nothing. And an element that is erased while the iterator is at it must not be
used again, not even for the increment.
-/

namespace CsiFirmware.Webserver

/-! ## Connections -/

/-- The state of a connection. -/
inductive ConnectionState where
  /-- `session::state::open`. -/
  | opened
  /-- Not open any more. The close handler has not run, so the handle is still in `connections`. -/
  | closing
  /-- The close handler has run. -/
  | closed
deriving DecidableEq

/-- A connection and the texts that were sent to it. -/
structure Connection where
  state : ConnectionState
  /-- How many texts had passed it when it was opened. The text of a loop that has still to come to
  it is not one of them. -/
  joined : ℕ
  received : List String
deriving DecidableEq

/-- `echo_server.send` on an open connection. -/
def Connection.receive (con : Connection) (data : String) : Connection :=
  { con with received := con.received ++ [data] }

/-- Where the loop of `send` is. -/
inductive Loop where
  /-- Nobody is in `send`. -/
  | idle
  /-- `echo_server.send` comes next, for the element that the iterator is at. -/
  | send (data : String) (hdl : ℕ)
  /-- The increment of the iterator comes next. -/
  | next (data : String) (hdl : ℕ)
deriving DecidableEq

/-- How the process has ended. -/
inductive Ending where
  /-- `echo_server.send` has thrown. -/
  | thrown
  /-- An erased element was used. From then on nothing is defined. -/
  | undefined
deriving DecidableEq

/-- A handle is a number, and `owner_less` compares the numbers. No two connections of a run have
the same. -/
structure WebSocketService where
  /-- The `std::set`, in order. -/
  connections : Finset ℕ
  /-- All connections so far. -/
  clients : ℕ → Option Connection
  /-- The texts that `send` was called with. -/
  sent : List String
  loop : Loop
  ended : Option Ending

/-- What happens to a connection. -/
inductive ConnectionEvent where
  /-- The open handler runs. -/
  | opened (hdl : ℕ)
  /-- The connection stops being open. -/
  | closing (hdl : ℕ)
  /-- The close handler runs. -/
  | closed (hdl : ℕ)
deriving DecidableEq

/-- The first of the handles. -/
def first (hdls : Finset ℕ) : Option ℕ := if h : hdls.Nonempty then some (hdls.min' h) else none

/-- The first of the handles is one of them, and none comes before it. -/
theorem first_eq_some {hdls : Finset ℕ} {hdl : ℕ} (h : first hdls = some hdl) :
    hdl ∈ hdls ∧ ∀ hdl' ∈ hdls, hdl ≤ hdl' := by
  obtain ⟨hne, h⟩ := Option.dite_none_right_eq_some.mp h
  obtain rfl := Option.some.inj h
  exact ⟨hdls.min'_mem hne, fun hdl' => hdls.min'_le hdl'⟩

/-- There is no first handle if there are none. -/
theorem first_eq_none {hdls : Finset ℕ} (h : first hdls = none) : hdls = ∅ := by
  rw [first, dite_eq_right_iff] at h
  exact Finset.not_nonempty_iff_eq_empty.mp fun hne => absurd (h hne) (by simp)

namespace Loop

/-- The loop is about to serve the first of the handles, or over if there is none. -/
def before (data : String) (hdls : Finset ℕ) : Loop :=
  match first hdls with
  | some hdl => .send data hdl
  | none => .idle

/-- The element that the iterator is at. -/
def element : Loop → Option ℕ
  | .idle => none
  | .send _ hdl | .next _ hdl => some hdl

/-- The text that is being sent. -/
def data : Loop → Option String
  | .idle => none
  | .send data _ | .next data _ => some data

/-- The iterator is at the first of the handles. -/
theorem element_before (data : String) (hdls : Finset ℕ) :
    (before data hdls).element = first hdls := by
  rw [before]
  split
  next h => rw [h]; rfl
  next h => rw [h]; rfl

/-- The loop goes on with the same text. -/
theorem eq_of_mem_data_before {data data' : String} {hdls : Finset ℕ}
    (h : data' ∈ (before data hdls).data) : data' = data := by
  rw [before] at h
  split at h
  · exact (Option.some.inj h).symm
  · cases h

/-- The loop serves a handle only if it is the first. -/
theorem before_eq_send_iff {data data' : String} {hdls : Finset ℕ} {hdl : ℕ} :
    before data hdls = .send data' hdl ↔ data = data' ∧ first hdls = some hdl := by
  rw [before]
  split
  next h => simp [h]
  next h => simp [h]

end Loop

namespace WebSocketService

/-- After the constructor. -/
def init : WebSocketService where
  connections := ∅
  clients _ := none
  sent := []
  loop := .idle
  ended := none

/-- `echo_server.send` on the handle does not throw. -/
def isOpen (w : WebSocketService) (hdl : ℕ) : Bool :=
  (w.clients hdl).any fun con => con.state = .opened

/-- The handles that the loop has still to come to. -/
def pending (w : WebSocketService) : Finset ℕ :=
  match w.loop with
  | .idle => ∅
  | .send _ hdl => w.connections.filter (hdl ≤ ·)
  | .next _ hdl => w.connections.filter (hdl < ·)

/-- The texts that have passed the handle. -/
def due (w : WebSocketService) (hdl : ℕ) : List String :=
  if hdl ∈ w.pending then w.sent.dropLast else w.sent

/-- `send`, up to the first step of the iterator. -/
def send (w : WebSocketService) (data : String) : WebSocketService :=
  { w with
    sent := w.sent ++ [data]
    loop := .before data w.connections }

/-- The next step of the loop. -/
def advance (w : WebSocketService) : WebSocketService :=
  match w.loop with
  | .idle => w
  | .send data hdl =>
      if hdl ∈ w.connections then
        match (w.clients hdl).filter fun con => con.state = .opened with
        | some con =>
            { w with
              clients := Function.update w.clients hdl (some (con.receive data))
              loop := .next data hdl }
        | none => { w with ended := some .thrown }
      -- `con` refers to an element that has been erased
      else { w with ended := some .undefined }
  | .next data hdl =>
      if hdl ∈ w.connections then
        { w with loop := .before data (w.connections.filter (hdl < ·)) }
      else { w with ended := some .undefined }

/-- A handler runs, or a connection stops being open. The open handler runs once for a handle, and
the close handler for a connection that has stopped being open. -/
def handle (w : WebSocketService) : ConnectionEvent → Option WebSocketService
  | .opened hdl =>
      if w.clients hdl = none then
        -- whether the loop comes to the new element is seen when it is in the set
        let inserted := { w with connections := insert hdl w.connections }
        some { inserted with
          clients := Function.update w.clients hdl
            (some ⟨.opened, (inserted.due hdl).length, []⟩) }
      else none
  | .closing hdl =>
      ((w.clients hdl).filter fun con => con.state = .opened).map fun con =>
        { w with clients := Function.update w.clients hdl (some { con with state := .closing }) }
  | .closed hdl =>
      ((w.clients hdl).filter fun con => con.state = .closing).map fun con =>
        { w with
          connections := w.connections.erase hdl
          clients := Function.update w.clients hdl (some { con with state := .closed }) }

/-! ### What a step can do -/

/-- All that a step of the loop can do. -/
inductive Advance (w : WebSocketService) : WebSocketService → Prop where
  | idle (loop : w.loop = .idle) : Advance w w
  | receive (data : String) (hdl : ℕ) (con : Connection) (loop : w.loop = .send data hdl)
      (mem : hdl ∈ w.connections) (client : w.clients hdl = some con)
      (state : con.state = .opened) :
      Advance w { w with
        clients := Function.update w.clients hdl (some (con.receive data))
        loop := .next data hdl }
  | throw (data : String) (hdl : ℕ) (loop : w.loop = .send data hdl)
      (closed : w.isOpen hdl = false) : Advance w { w with ended := some .thrown }
  | increment (data : String) (hdl : ℕ) (loop : w.loop = .next data hdl)
      (mem : hdl ∈ w.connections) :
      Advance w { w with loop := .before data (w.connections.filter (hdl < ·)) }
  | erased (hdl : ℕ) (element : w.loop.element = some hdl) (mem : hdl ∉ w.connections) :
      Advance w { w with ended := some .undefined }

/-- A step of the loop is one of these. -/
theorem advance_cases (w : WebSocketService) : w.Advance w.advance := by
  rw [advance]
  split
  next loop => exact .idle loop
  next data hdl loop =>
    split_ifs with mem
    · split
      next con hcon =>
        obtain ⟨client, state⟩ := Option.filter_eq_some_iff.mp hcon
        exact .receive data hdl con loop mem client (of_decide_eq_true state)
      next hnone =>
        refine .throw data hdl loop ?_
        rw [isOpen]
        cases client : w.clients hdl with
        | none => rfl
        | some con => simpa [client, Option.filter_eq_none_iff] using hnone
    · exact .erased hdl (by rw [loop]; rfl) mem
  next data hdl loop =>
    split_ifs with mem
    · exact .increment data hdl loop mem
    · exact .erased hdl (by rw [loop]; rfl) mem

/-- All that the handlers can do. -/
inductive Handling (w : WebSocketService) : ConnectionEvent → WebSocketService → Prop where
  | opened (hdl : ℕ) (fresh : w.clients hdl = none) (joined : ℕ)
      (due : joined = ({ w with connections := insert hdl w.connections }.due hdl).length) :
      Handling w (.opened hdl) { w with
        connections := insert hdl w.connections
        clients := Function.update w.clients hdl (some ⟨.opened, joined, []⟩) }
  | closing (hdl : ℕ) (con : Connection) (client : w.clients hdl = some con)
      (state : con.state = .opened) :
      Handling w (.closing hdl)
        { w with clients := Function.update w.clients hdl (some { con with state := .closing }) }
  | closed (hdl : ℕ) (con : Connection) (client : w.clients hdl = some con)
      (state : con.state = .closing) :
      Handling w (.closed hdl) { w with
        connections := w.connections.erase hdl
        clients := Function.update w.clients hdl (some { con with state := .closed }) }

/-- A run of a handler is one of these. -/
theorem handle_cases {w w' : WebSocketService} {e : ConnectionEvent} (h : w.handle e = some w') :
    w.Handling e w' := by
  cases e with
  | opened hdl =>
      obtain ⟨fresh, h⟩ := Option.ite_none_right_eq_some.mp h
      obtain rfl := Option.some.inj h
      exact .opened hdl fresh _ rfl
  | closing hdl =>
      obtain ⟨con, hcon, rfl⟩ := Option.map_eq_some_iff.mp h
      obtain ⟨client, state⟩ := Option.filter_eq_some_iff.mp hcon
      exact .closing hdl con client (of_decide_eq_true state)
  | closed hdl =>
      obtain ⟨con, hcon, rfl⟩ := Option.map_eq_some_iff.mp h
      obtain ⟨client, state⟩ := Option.filter_eq_some_iff.mp hcon
      exact .closed hdl con client (of_decide_eq_true state)

/-- The loop does not call `send` again. -/
theorem sent_advance (w : WebSocketService) : w.advance.sent = w.sent := by
  have hcases := w.advance_cases
  generalize w.advance = w' at hcases
  cases hcases <;> rfl

/-- The handlers do not call `send`. -/
theorem sent_handle {w w' : WebSocketService} {e : ConnectionEvent} (h : w.handle e = some w') :
    w'.sent = w.sent := by
  cases handle_cases h <;> rfl

/-! ## What a connection receives -/

/-- The iterator is at an element of the set. -/
def Valid (w : WebSocketService) : Prop := ∀ hdl ∈ w.loop.element, hdl ∈ w.connections

/-- The handles in `connections` are those of the connections that are not closed. A connection has
received texts one after another from the first that came to it. While it is registered and the loop
is in order, it has received all of them. -/
structure Delivered (w : WebSocketService) : Prop where
  registered : ∀ hdl, hdl ∈ w.connections ↔ ∃ con, w.clients hdl = some con ∧ con.state ≠ .closed
  element : ∀ hdl ∈ w.loop.element, w.clients hdl ≠ none
  data : ∀ data ∈ w.loop.data, w.sent.getLast? = some data
  received : ∀ hdl con, w.clients hdl = some con →
    con.joined ≤ w.sent.length ∧ con.received <+: w.sent.drop con.joined
  complete : w.ended = none → w.Valid → ∀ hdl con, w.clients hdl = some con →
    con.state ≠ .closed →
    con.joined ≤ (w.due hdl).length ∧ con.received = (w.due hdl).drop con.joined

/-- There are no connections yet. -/
theorem delivered_init : init.Delivered where
  registered hdl := by simp [init]
  element hdl hmem := by simp [init, Loop.element] at hmem
  data data hmem := by simp [init, Loop.data] at hmem
  received hdl con hcon := by simp [init] at hcon
  complete _ _ hdl con hcon := by simp [init] at hcon

variable {w w' : WebSocketService}

/-- All but the last text at most have not passed yet. -/
theorem due_length_le (w : WebSocketService) (hdl : ℕ) : (w.due hdl).length ≤ w.sent.length := by
  rw [due]
  split_ifs
  · rw [List.length_dropLast]
    exact Nat.sub_le ..
  · exact le_rfl

/-- The loop that stands before the first of an end section of the set has the section to come. -/
theorem pending_before {data : String} {hdls : Finset ℕ} (hloop : w.loop = .before data hdls)
    (hsubset : hdls ⊆ w.connections)
    (hupward : ∀ hdl ∈ hdls, ∀ hdl' ∈ w.connections, hdl ≤ hdl' → hdl' ∈ hdls) :
    w.pending = hdls := by
  rw [pending, hloop, Loop.before]
  cases hfirst : first hdls with
  | none => exact (first_eq_none hfirst).symm
  | some hdl =>
      obtain ⟨hmem, hleast⟩ := first_eq_some hfirst
      ext hdl'
      rw [Finset.mem_filter]
      exact ⟨fun h => hupward hdl hmem hdl' h.1 h.2, fun h => ⟨hsubset h, hleast hdl' h⟩⟩

namespace Delivered

/-- What is complete stays so while the loop has the same way to go to the handle. -/
theorem complete_of (hs : w.Delivered) (halive : w.ended = none) (hvalid : w.Valid) {hdl : ℕ}
    {con : Connection} (hclient : w.clients hdl = some con) (hstate : con.state ≠ .closed)
    (hpending : hdl ∈ w'.pending ↔ hdl ∈ w.pending) (hsent : w'.sent = w.sent) :
    con.joined ≤ (w'.due hdl).length ∧ con.received = (w'.due hdl).drop con.joined := by
  have hdue : w'.due hdl = w.due hdl := by rw [due, due, hsent, if_congr hpending rfl rfl]
  rw [hdue]
  exact hs.complete halive hvalid hdl con hclient hstate

/-- A new text has to come to every registered connection. -/
theorem send (hs : w.Delivered) (halive : w.ended = none) (hidle : w.loop = .idle)
    (data : String) : (w.send data).Delivered := by
  have hpending : (w.send data).pending = w.connections :=
    pending_before rfl Finset.Subset.rfl fun _ _ _ hmem _ => hmem
  have hvalid : w.Valid := fun hdl hmem => by simp [hidle, Loop.element] at hmem
  have hdue : ∀ hdl, w.due hdl = w.sent := fun hdl => by simp [due, pending, hidle]
  refine ⟨hs.registered, fun hdl hmem => ?_, fun data' hmem => ?_, fun hdl con hcon => ?_,
    fun _ _ hdl con hcon hstate => ?_⟩
  · have hmem' : hdl ∈ first w.connections := by rwa [← Loop.element_before data]
    obtain ⟨con, hcon, -⟩ := (hs.registered hdl).mp (first_eq_some hmem').1
    have hclient : (w.send data).clients hdl = some con := hcon
    simp [hclient]
  · rw [Loop.eq_of_mem_data_before hmem]
    exact List.getLast?_concat
  · obtain ⟨hjoined, hprefix⟩ := hs.received hdl con hcon
    refine ⟨hjoined.trans (by simp [WebSocketService.send]), hprefix.trans ?_⟩
    rw [WebSocketService.send, List.drop_append_of_le_length hjoined]
    exact List.prefix_append ..
  · -- the new text has still to come to every registered connection
    have hmem : hdl ∈ (w.send data).pending := by
      rw [hpending]
      exact (hs.registered hdl).mpr ⟨con, hcon, hstate⟩
    have hsame : (w.send data).due hdl = w.due hdl := by
      rw [hdue, due, if_pos hmem]
      exact List.dropLast_concat
    rw [hsame]
    exact hs.complete halive hvalid hdl con hcon hstate

/-- A connection is served. -/
theorem receive (hs : w.Delivered) (halive : w.ended = none) {data : String} {hdl : ℕ}
    {con : Connection} (hloop : w.loop = .send data hdl) (hmem : hdl ∈ w.connections)
    (hclient : w.clients hdl = some con) (hstate : con.state = .opened) :
    Delivered { w with
      clients := Function.update w.clients hdl (some (con.receive data))
      loop := .next data hdl } := by
  have helement : w.loop.element = some hdl := by rw [hloop]; rfl
  have hvalid : w.Valid := fun hdl' hmem' => by
    obtain rfl := Option.some.inj (helement.symm.trans hmem')
    exact hmem
  have hpending : hdl ∈ w.pending := by simp [pending, hloop, hmem]
  have hlast : w.sent.getLast? = some data := hs.data data (by rw [hloop]; rfl)
  obtain ⟨hjoined, hreceived⟩ := hs.complete halive hvalid hdl con hclient (by simp [hstate])
  rw [due, if_pos hpending] at hjoined hreceived
  -- with this text the connection has everything that was sent
  have hall : (con.receive data).received = w.sent.drop con.joined := by
    rw [← List.dropLast_append_getLast? data hlast, List.drop_append_of_le_length hjoined,
      ← hreceived]
    rfl
  have hle : con.joined ≤ w.sent.length := (hs.received hdl con hclient).1
  refine ⟨fun hdl' => ?_, fun hdl' hmem' => ?_, fun data' hmem' => ?_, fun hdl' con' hcon' => ?_,
    fun _ _ hdl' con' hcon' hstate' => ?_⟩
  · rw [hs.registered]
    rcases eq_or_ne hdl' hdl with rfl | hne
    · simp [hclient, Connection.receive]
    · simp [Function.update_of_ne hne]
  · obtain rfl := Option.some.inj hmem'
    simp
  · obtain rfl := Option.some.inj hmem'
    exact hlast
  · rcases eq_or_ne hdl' hdl with rfl | hne
    · obtain rfl : con.receive data = con' := by simpa using hcon'
      exact ⟨hle, hall ▸ List.prefix_rfl⟩
    · exact hs.received hdl' con' (by simpa [Function.update_of_ne hne] using hcon')
  · rcases eq_or_ne hdl' hdl with rfl | hne
    · obtain rfl : con.receive data = con' := by simpa using hcon'
      rw [due, if_neg (by simp [pending])]
      exact ⟨hle, hall⟩
    · refine hs.complete_of halive hvalid (by simpa [Function.update_of_ne hne] using hcon') hstate'
        ?_ rfl
      simp only [pending, hloop, Finset.mem_filter, lt_iff_le_and_ne, and_iff_left hne.symm]

/-- The iterator goes on. -/
theorem increment (hs : w.Delivered) {data : String} {hdl : ℕ} (hloop : w.loop = .next data hdl)
    (hmem : hdl ∈ w.connections) :
    Delivered { w with loop := .before data (w.connections.filter (hdl < ·)) } := by
  have hpending : { w with loop := .before data (w.connections.filter (hdl < ·)) }.pending =
      w.connections.filter (hdl < ·) :=
    pending_before rfl (Finset.filter_subset ..) fun a ha b hb hab =>
      Finset.mem_filter.mpr ⟨hb, lt_of_lt_of_le (Finset.mem_filter.mp ha).2 hab⟩
  have hsame : w.pending = w.connections.filter (hdl < ·) := by rw [pending, hloop]
  have hvalid : w.Valid := fun hdl' hmem' => by
    obtain rfl : hdl = hdl' := by simpa [hloop, Loop.element] using hmem'
    exact hmem
  refine ⟨hs.registered, fun hdl' hmem' => ?_, fun data' hmem' => ?_, hs.received,
    fun halive _ hdl' con hcon hstate => ?_⟩
  · have hfirst : hdl' ∈ first (w.connections.filter (hdl < ·)) := by
      rwa [← Loop.element_before data]
    have hmem := (Finset.mem_filter.mp (first_eq_some hfirst).1).1
    obtain ⟨con, hcon, -⟩ := (hs.registered hdl').mp hmem
    have hclient : w.clients hdl' = some con := hcon
    simp [hclient]
  · rw [Loop.eq_of_mem_data_before hmem']
    exact hs.data data (by rw [hloop]; rfl)
  · rw [due, hpending, ← hsame]
    exact hs.complete halive hvalid hdl' con hcon hstate

/-- The process ends. -/
theorem ended (hs : w.Delivered) (ending : Ending) :
    Delivered { w with ended := some ending } where
  registered := hs.registered
  element := hs.element
  data := hs.data
  received := hs.received
  complete halive := by simp at halive

/-- A step of the loop serves one connection, goes on to the next one or ends the process. -/
theorem advance (hs : w.Delivered) (halive : w.ended = none) : w.advance.Delivered := by
  have hcases := w.advance_cases
  generalize w.advance = w' at hcases
  cases hcases with
  | idle => exact hs
  | receive data hdl con loop mem client state => exact hs.receive halive loop mem client state
  | throw | erased => exact hs.ended _
  | increment data hdl loop mem => exact hs.increment loop mem

/-- A new connection is owed what comes to it from now on: if the loop has still to pass it, that
includes the text on its way. -/
theorem opened (hs : w.Delivered) {hdl joined : ℕ} (hfresh : w.clients hdl = none)
    (hjoined : joined = ({ w with connections := insert hdl w.connections }.due hdl).length) :
    Delivered { w with
      connections := insert hdl w.connections
      clients := Function.update w.clients hdl (some ⟨.opened, joined, []⟩) } := by
  -- the iterator is at an older connection
  have hne : ∀ {hdl'}, hdl' ∈ w.loop.element → hdl' ≠ hdl := fun hmem heq =>
    hs.element _ hmem (heq ▸ hfresh)
  have hle : joined ≤ w.sent.length := hjoined ▸ due_length_le _ hdl
  refine ⟨fun hdl' => ?_, fun hdl' hmem => ?_, hs.data, fun hdl' con hcon => ?_,
    fun halive hvalid hdl' con hcon hstate => ?_⟩
  · rcases eq_or_ne hdl' hdl with rfl | hother
    · simp
    · simp [hother, hs.registered]
  · simpa [Function.update_of_ne (hne hmem)] using hs.element hdl' hmem
  · rcases eq_or_ne hdl' hdl with rfl | hother
    · obtain rfl : (⟨.opened, joined, []⟩ : Connection) = con := by simpa using hcon
      exact ⟨hle, List.nil_prefix⟩
    · exact hs.received hdl' con (by simpa [Function.update_of_ne hother] using hcon)
  · rcases eq_or_ne hdl' hdl with rfl | hother
    · obtain rfl : (⟨.opened, joined, []⟩ : Connection) = con := by simpa using hcon
      refine ⟨hjoined.le, (List.drop_eq_nil_of_le ?_).symm⟩
      exact hjoined.ge
    · have hvalid' : w.Valid := fun hdl₀ hmem =>
        (Finset.mem_insert.mp (hvalid hdl₀ hmem)).resolve_left (hne hmem)
      refine hs.complete_of halive hvalid' (by simpa [Function.update_of_ne hother] using hcon)
        hstate ?_ rfl
      simp only [pending]
      split <;> simp [hother]

/-- A connection changes its state, and is erased if it is closed. -/
theorem set_state (hs : w.Delivered) {hdl : ℕ} {con : Connection}
    (hclient : w.clients hdl = some con) (hopen : con.state ≠ .closed) (state : ConnectionState)
    {connections : Finset ℕ}
    (hmem : ∀ hdl', hdl' ∈ connections ↔ hdl' ∈ w.connections ∧ (hdl' = hdl → state ≠ .closed)) :
    Delivered { w with
      connections
      clients := Function.update w.clients hdl (some { con with state }) } := by
  refine ⟨fun hdl' => ?_, fun hdl' hmem' => ?_, hs.data, fun hdl' con' hcon' => ?_,
    fun halive hvalid hdl' con' hcon' hstate => ?_⟩
  · rw [hmem, hs.registered]
    rcases eq_or_ne hdl' hdl with rfl | hother
    · simp [hclient, hopen]
    · simp [hother]
  · rcases eq_or_ne hdl' hdl with rfl | hother
    · simp
    · simpa [Function.update_of_ne hother] using hs.element hdl' hmem'
  · rcases eq_or_ne hdl' hdl with rfl | hother
    · obtain rfl : { con with state } = con' := by simpa using hcon'
      exact hs.received hdl' con hclient
    · exact hs.received hdl' con' (by simpa [Function.update_of_ne hother] using hcon')
  · have hvalid' : w.Valid := fun hdl₀ hmem₀ => ((hmem hdl₀).mp (hvalid hdl₀ hmem₀)).1
    have hkeeps : hdl' = hdl → state ≠ .closed := by
      rintro rfl
      obtain rfl : { con with state } = con' := by simpa using hcon'
      exact hstate
    have hstays : hdl' ∈ connections ↔ hdl' ∈ w.connections :=
      (hmem hdl').trans (and_iff_left hkeeps)
    have hkept : hdl' ∈ { w with
        connections
        clients := Function.update w.clients hdl (some { con with state }) }.pending ↔
        hdl' ∈ w.pending := by
      simp only [pending]
      split <;> simp [hstays]
    rcases eq_or_ne hdl' hdl with heq | hother
    · subst heq
      obtain rfl : { con with state } = con' := by simpa using hcon'
      have hsame := hs.complete_of halive hvalid' hclient hopen hkept rfl
      exact hsame
    · exact hs.complete_of halive hvalid' (by simpa [Function.update_of_ne hother] using hcon')
        hstate hkept rfl

/-- The handlers neither take a text away nor leave one out. -/
theorem handle (hs : w.Delivered) {e : ConnectionEvent} (h : w.handle e = some w') :
    w'.Delivered := by
  cases handle_cases h with
  | opened hdl fresh joined due => exact hs.opened fresh due
  | closing hdl con client state =>
      exact hs.set_state client (by simp [state]) .closing (by simp)
  | closed hdl con client state =>
      refine hs.set_state client (by simp [state]) .closed fun hdl' => ?_
      rw [Finset.mem_erase]
      simp [and_comm]

end Delivered

/-! ## When the process survives -/

/-- The process is alive, and the next step of the loop does not end it. -/
def Secure (w : WebSocketService) : Prop := w.ended = none ∧ w.advance.ended = none

/-- The handle that the next increment leads to. -/
def following (w : WebSocketService) : Option ℕ :=
  match w.loop with
  | .idle | .send _ _ => none
  | .next _ hdl => first (w.connections.filter (hdl < ·))

/-- No connection stops being open when the loop is about to serve it, and none is erased when the
iterator is at it. -/
def Undisturbed (w : WebSocketService) : ConnectionEvent → Prop
  | .opened _ => True
  | .closing hdl => ∀ data, w.loop ≠ .send data hdl
  | .closed hdl => w.loop.element ≠ some hdl

/-- The loop is secure where the next operation has what it needs: `echo_server.send` an open
connection, and either of them an element of the set. -/
theorem secure_iff : w.Secure ↔
    w.ended = none ∧ w.Valid ∧ ∀ data hdl, w.loop = .send data hdl → w.isOpen hdl = true := by
  refine and_congr_right fun halive => ?_
  have hcases := w.advance_cases
  generalize w.advance = w' at hcases
  cases hcases with
  | idle loop =>
      refine iff_of_true halive ⟨fun hdl hmem => ?_, fun data hdl hloop => ?_⟩
      · simp [loop, Loop.element] at hmem
      · simp [loop] at hloop
  | receive data hdl con loop mem client state =>
      refine iff_of_true halive ⟨fun hdl' hmem => ?_, fun data' hdl' hloop => ?_⟩
      · obtain rfl : hdl = hdl' := by simpa [loop, Loop.element] using hmem
        exact mem
      · obtain ⟨-, rfl⟩ : data = data' ∧ hdl = hdl' := by simpa [loop] using hloop
        simp [isOpen, client, state]
  | throw data hdl loop closed =>
      refine iff_of_false (by simp) fun h => ?_
      rw [h.2 data hdl loop] at closed
      cases closed
  | increment data hdl loop mem =>
      refine iff_of_true halive ⟨fun hdl' hmem => ?_, fun data' hdl' hloop => ?_⟩
      · obtain rfl : hdl = hdl' := by simpa [loop, Loop.element] using hmem
        exact mem
      · simp [loop] at hloop
  | erased hdl element mem => exact iff_of_false (by simp) fun h => mem (h.1 hdl element)

/-- Between two loops there is nothing to go wrong. -/
theorem secure_of_idle (halive : w.ended = none) (hidle : w.loop = .idle) : w.Secure := by
  refine ⟨halive, ?_⟩
  rw [advance, hidle]
  exact halive

/-- Before the first of some registered handles the loop is secure if that connection is open. -/
theorem secure_before_iff {data : String} {hdls : Finset ℕ} (hloop : w.loop = .before data hdls)
    (halive : w.ended = none) (hsubset : hdls ⊆ w.connections) :
    w.Secure ↔ ∀ hdl ∈ first hdls, w.isOpen hdl = true := by
  have hvalid : w.Valid := fun hdl hmem => by
    rw [hloop, Loop.element_before] at hmem
    exact hsubset (first_eq_some hmem).1
  rw [secure_iff, and_iff_right halive, and_iff_right hvalid]
  simp only [hloop, Loop.before_eq_send_iff]
  exact ⟨fun h hdl hmem => h data hdl ⟨rfl, hmem⟩, fun h _ hdl ⟨_, hmem⟩ => h hdl hmem⟩

/-- A new loop is secure if the first registered connection is open. -/
theorem secure_send_iff (halive : w.ended = none) (data : String) :
    (w.send data).Secure ↔ ∀ hdl ∈ first w.connections, w.isOpen hdl = true :=
  secure_before_iff (w := w.send data) rfl halive Finset.Subset.rfl

/-- After an increment the loop is secure if the connection that it comes to is open. -/
theorem Secure.advance_iff (h : w.Secure) :
    w.advance.Secure ↔ ∀ hdl ∈ w.following, w.isOpen hdl = true := by
  obtain ⟨halive, hnext⟩ := h
  have hcases := w.advance_cases
  generalize w.advance = w' at hcases hnext ⊢
  cases hcases with
  | idle loop =>
      exact iff_of_true (secure_of_idle halive loop) (by simp [following, loop])
  | receive data hdl con loop mem client state =>
      refine iff_of_true (secure_iff.mpr ⟨halive, fun hdl' hmem => ?_, by simp⟩) ?_
      · obtain rfl := Option.some.inj hmem
        exact mem
      · simp [following, loop]
  | throw | erased => simp at hnext
  | increment data hdl loop mem =>
      have hfollowing : w.following = first (w.connections.filter (hdl < ·)) := by
        rw [following, loop]
      rw [hfollowing]
      exact secure_before_iff rfl halive (Finset.filter_subset ..)

/-- A handler that runs in between. -/
theorem Secure.handle_iff (h : w.Secure) {e : ConnectionEvent} (he : w.handle e = some w') :
    w'.Secure ↔ w.Undisturbed e := by
  obtain ⟨halive, hvalid, hopen⟩ := secure_iff.mp h
  rw [secure_iff]
  cases handle_cases he with
  | opened hdl fresh joined due =>
      refine iff_of_true ⟨halive, fun hdl' hmem => Finset.mem_insert_of_mem (hvalid hdl' hmem),
        fun data hdl' hloop => ?_⟩ trivial
      have hother : hdl' ≠ hdl := by
        rintro rfl
        simpa [isOpen, fresh] using hopen data hdl' hloop
      simpa [isOpen, Function.update_of_ne hother] using hopen data hdl' hloop
  | closing hdl con client state =>
      rw [and_iff_right halive, and_iff_right (by exact hvalid)]
      refine ⟨fun h data hloop => by simpa [isOpen] using h data hdl hloop,
        fun h data hdl' hloop => ?_⟩
      have hother : hdl' ≠ hdl := by
        rintro rfl
        exact h data hloop
      simpa [isOpen, Function.update_of_ne hother] using hopen data hdl' hloop
  | closed hdl con client state =>
      refine ⟨fun h heq => ?_, fun h => ⟨halive, fun hdl' hmem => ?_, fun data hdl' hloop => ?_⟩⟩
      · simpa using h.2.1 hdl heq
      · have hother : hdl' ≠ hdl := by
          rintro rfl
          exact h hmem
        exact Finset.mem_erase_of_ne_of_mem hother (hvalid hdl' hmem)
      · have hother : hdl' ≠ hdl := by
          rintro rfl
          exact h (by rw [hloop]; rfl)
        simpa [isOpen, Function.update_of_ne hother] using hopen data hdl' hloop

/-- No handler makes good what has gone wrong. -/
theorem Delivered.secure_of_handle (hs : w.Delivered) {e : ConnectionEvent}
    (he : w.handle e = some w') (h : w'.Secure) : w.Secure := by
  obtain ⟨halive, hvalid, hopen⟩ := secure_iff.mp h
  rw [secure_iff]
  cases handle_cases he with
  | opened hdl fresh joined due =>
      -- the iterator is at a connection that was opened before
      have hother : ∀ hdl' ∈ w.loop.element, hdl' ≠ hdl := fun hdl' hmem heq =>
        hs.element hdl' hmem (heq ▸ fresh)
      refine ⟨halive, fun hdl' hmem =>
        (Finset.mem_insert.mp (hvalid hdl' hmem)).resolve_left (hother hdl' hmem),
        fun data hdl' hloop => ?_⟩
      have hne := hother hdl' (by rw [hloop]; rfl)
      simpa [isOpen, Function.update_of_ne hne] using hopen data hdl' hloop
  | closing hdl con client state =>
      refine ⟨halive, hvalid, fun data hdl' hloop => ?_⟩
      rcases eq_or_ne hdl' hdl with rfl | hother
      · simp [isOpen, client, state]
      · simpa [isOpen, Function.update_of_ne hother] using hopen data hdl' hloop
  | closed hdl con client state =>
      refine ⟨halive, fun hdl' hmem => Finset.mem_of_mem_erase (hvalid hdl' hmem),
        fun data hdl' hloop => ?_⟩
      rcases eq_or_ne hdl' hdl with rfl | hother
      · simpa [isOpen] using hopen data hdl' hloop
      · simpa [isOpen, Function.update_of_ne hother] using hopen data hdl' hloop

end WebSocketService

end CsiFirmware.Webserver
