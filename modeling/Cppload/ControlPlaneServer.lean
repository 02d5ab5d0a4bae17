import Cppload.ControlPlaneHistory

/-!
# The accept thread of the control plane

`HttpServer` accepts and answers on one thread, one connection after the other.  The
acceptor is switched to non-blocking before each `accept`, so that `running_` is looked at
again every ten milliseconds, and back to blocking before a connection is served.  `stop`
clears `running_`, closes the acceptor and joins the thread.

Both switches throw if the acceptor has been closed, and so does the reading of some
bodies; nothing catches an exception of this thread, so that it ends the process.  The
request is read and the response written without a time limit, on a socket that blocks:
both calls end only when the client has sent or taken enough, or the connection breaks.
Calls of the acceptor are taken as indivisible; a second `start` of a server that runs is
left out.
-/

namespace Cppload.Platform

open Transition

/-- Where the accept thread is. -/
inductive AcceptPc where
  | absent
  | check
  | arm
  | accept
  | rest
  | disarm
  | read
  | handle (message : Message)
  | write (response : HttpResponse)
  | finished

/-- Where the thread that calls `start` and `stop` is. -/
inductive StopPc where
  | idle
  | closing
  | joining
  deriving DecidableEq, Repr

inductive AcceptOutcome where
  | connection
  | wouldBlock
  | failed
  deriving DecidableEq, Repr

/-- `accepted` counts the connections; `history` has the requests that were handled, with
the number of their connection, and `sent` the responses that were written. -/
structure HttpServer where
  plane : ControlPlane
  running : Bool
  isOpen : Bool
  thread : AcceptPc
  control : StopPc
  terminated : Bool
  accepted : ℕ
  history : List (ℕ × Message × HttpResponse)
  sent : List (ℕ × HttpResponse)

namespace HttpServer

inductive Action where
  | start
  | stop
  | close
  | join
  | thread
  | accept (outcome : AcceptOutcome)
  | read (message : Option Message)
  | handle
  | write (succeeds : Bool)

def new (counter : UInt64) : HttpServer where
  plane := .new counter
  running := false
  isOpen := true
  thread := .absent
  control := .idle
  terminated := false
  accepted := 0
  history := []
  sent := []

/-- The connection that is being served. -/
def connection (server : HttpServer) : ℕ :=
  server.accepted - 1

/-- An exception leaves the accept thread. -/
def terminate (server : HttpServer) : HttpServer :=
  { server with terminated := true }

/-- The operations of `accept_loop` whose outcome is not up to the system or the client. -/
def threadStep (server : HttpServer) : Option HttpServer :=
  match server.thread with
  | .check => some { server with thread := if server.running then .arm else .finished }
  | .arm =>
      some (if server.isOpen then { server with thread := .accept } else server.terminate)
  | .rest => some { server with thread := .check }
  | .disarm =>
      some (if server.isOpen then { server with thread := .read } else server.terminate)
  | _ => none

def acceptStep (server : HttpServer) (outcome : AcceptOutcome) : Option HttpServer :=
  match server.thread, outcome with
  | .accept, .connection =>
      if server.isOpen then
        some { server with thread := .disarm, accepted := server.accepted + 1 }
      else none
  | .accept, .wouldBlock => if server.isOpen then some { server with thread := .rest } else none
  | .accept, .failed => some { server with thread := .check }
  | _, _ => none

/-- `http::read`, which gives up on an error. -/
def readStep (server : HttpServer) (message : Option Message) : Option HttpServer :=
  match server.thread, message with
  | .read, some message => some { server with thread := .handle message }
  | .read, none => some { server with thread := .check }
  | _, _ => none

def handleStep (parse : String → Option Json) (server : HttpServer) : Option HttpServer :=
  match server.thread with
  | .handle message =>
      match server.plane.serve parse message with
      | none => some server.terminate
      | some (plane, response) =>
          some { server with
            plane := plane
            thread := .write response
            history := server.history ++ [(server.connection, message, response)] }
  | _ => none

def writeStep (server : HttpServer) (succeeds : Bool) : Option HttpServer :=
  match server.thread with
  | .write response =>
      some { server with
        thread := .check
        sent := if succeeds then server.sent ++ [(server.connection, response)]
          else server.sent }
  | _ => none

/-- The thread has ended or was never made. -/
def ended (server : HttpServer) : Bool :=
  match server.thread with
  | .absent | .finished => true
  | _ => false

def controlStep (server : HttpServer) : Action → Option HttpServer
  | .start =>
      match server.control, server.thread with
      | .idle, .absent => some { server with running := true, thread := .check }
      | _, _ => none
  | .stop =>
      if server.control = .idle then some { server with running := false, control := .closing }
      else none
  | .close =>
      if server.control = .closing then
        some { server with isOpen := false, control := .joining }
      else none
  | .join =>
      if server.control = .joining ∧ server.ended = true then
        some { server with thread := .absent, control := .idle }
      else none
  | _ => none

def step (parse : String → Option Json) (server : HttpServer) (action : Action) :
    Option HttpServer :=
  if server.terminated then none
  else
    match action with
    | .thread => server.threadStep
    | .accept outcome => server.acceptStep outcome
    | .read message => server.readStep message
    | .handle => server.handleStep parse
    | .write succeeds => server.writeStep succeeds
    | action => server.controlStep action

/-! ## What a step does -/

/-- What the accept thread does next ends the process. -/
def Throws (parse : String → Option Json) (server : HttpServer) : Prop :=
  (server.thread = .arm ∨ server.thread = .disarm) ∧ server.isOpen = false ∨
    ∃ message, server.thread = .handle message ∧ server.plane.serve parse message = none

/-- All that can happen, with what it takes. -/
inductive Move (parse : String → Option Json) (server : HttpServer) : HttpServer → Prop
  | started (there : server.thread = .absent) (calm : server.control = .idle) :
      Move parse server { server with running := true, thread := .check }
  | stopping (calm : server.control = .idle) :
      Move parse server { server with running := false, control := .closing }
  | closed (cleared : server.control = .closing) :
      Move parse server { server with isOpen := false, control := .joining }
  | joined (waits : server.control = .joining) (ended : server.ended = true) :
      Move parse server { server with thread := .absent, control := .idle }
  | leaves (there : server.thread = .check) (cleared : server.running = false) :
      Move parse server { server with thread := .finished }
  | enters (there : server.thread = .check) (runs : server.running = true) :
      Move parse server { server with thread := .arm }
  | armed (there : server.thread = .arm) (listens : server.isOpen = true) :
      Move parse server { server with thread := .accept }
  | connected (there : server.thread = .accept) (listens : server.isOpen = true) :
      Move parse server { server with thread := .disarm, accepted := server.accepted + 1 }
  | blocked (there : server.thread = .accept) (listens : server.isOpen = true) :
      Move parse server { server with thread := .rest }
  | failed (there : server.thread = .accept) :
      Move parse server { server with thread := .check }
  | rested (there : server.thread = .rest) :
      Move parse server { server with thread := .check }
  | disarmed (there : server.thread = .disarm) (listens : server.isOpen = true) :
      Move parse server { server with thread := .read }
  | received (message : Message) (there : server.thread = .read) :
      Move parse server { server with thread := .handle message }
  | unread (there : server.thread = .read) :
      Move parse server { server with thread := .check }
  | handled (message : Message) (plane : ControlPlane) (response : HttpResponse)
      (there : server.thread = .handle message)
      (served : server.plane.serve parse message = some (plane, response)) :
      Move parse server { server with
        plane := plane
        thread := .write response
        history := server.history ++ [(server.connection, message, response)] }
  | written (response : HttpResponse) (succeeds : Bool)
      (there : server.thread = .write response) :
      Move parse server { server with
        thread := .check
        sent := if succeeds then server.sent ++ [(server.connection, response)]
          else server.sent }
  | thrown (cause : server.Throws parse) : Move parse server server.terminate

variable {parse : String → Option Json} {server next last : HttpServer} {action : Action}
  {start : UInt64} {actions : List Action}

theorem move_of_threadStep (taken : server.threadStep = some next) : Move parse server next := by
  unfold threadStep at taken
  split at taken
  · rename_i there
    cases taken
    split
    · rename_i runs
      exact .enters there runs
    · rename_i cleared
      exact .leaves there (by simpa using cleared)
  · rename_i there
    cases taken
    split
    · rename_i listens
      exact .armed there listens
    · rename_i shut
      exact .thrown (.inl ⟨.inl there, by simpa using shut⟩)
  · rename_i there
    cases taken
    exact .rested there
  · rename_i there
    cases taken
    split
    · rename_i listens
      exact .disarmed there listens
    · rename_i shut
      exact .thrown (.inl ⟨.inr there, by simpa using shut⟩)
  · cases taken

theorem move_of_acceptStep {outcome : AcceptOutcome}
    (taken : server.acceptStep outcome = some next) : Move parse server next := by
  unfold acceptStep at taken
  split at taken
  · rename_i there
    split at taken
    · rename_i listens
      cases taken
      exact .connected there listens
    · cases taken
  · rename_i there
    split at taken
    · rename_i listens
      cases taken
      exact .blocked there listens
    · cases taken
  · rename_i there
    cases taken
    exact .failed there
  · cases taken

theorem move_of_readStep {message : Option Message}
    (taken : server.readStep message = some next) : Move parse server next := by
  unfold readStep at taken
  split at taken
  · rename_i message there
    cases taken
    exact .received message there
  · rename_i there
    cases taken
    exact .unread there
  · cases taken

theorem move_of_handleStep (taken : server.handleStep parse = some next) :
    Move parse server next := by
  unfold handleStep at taken
  split at taken
  · rename_i message there
    split at taken
    · rename_i thrown
      cases taken
      exact .thrown (.inr ⟨message, there, thrown⟩)
    · rename_i plane response served
      cases taken
      exact .handled message plane response there served
  · cases taken

theorem move_of_writeStep {succeeds : Bool} (taken : server.writeStep succeeds = some next) :
    Move parse server next := by
  unfold writeStep at taken
  split at taken
  · rename_i response there
    cases taken
    exact .written response succeeds there
  · cases taken

theorem move_of_controlStep (taken : server.controlStep action = some next) :
    Move parse server next := by
  unfold controlStep at taken
  split at taken
  · split at taken
    · rename_i calm there
      cases taken
      exact .started there calm
    · cases taken
  · split at taken
    · rename_i calm
      cases taken
      exact .stopping calm
    · cases taken
  · split at taken
    · rename_i cleared
      cases taken
      exact .closed cleared
    · cases taken
  · split at taken
    · rename_i waits
      cases taken
      exact .joined waits.1 waits.2
    · cases taken
  · cases taken

/-- Every step is one of the moves, and none is made after an exception. -/
theorem move_of_step (taken : server.step parse action = some next) :
    server.terminated = false ∧ Move parse server next := by
  unfold step at taken
  split at taken
  · cases taken
  · rename_i alive
    refine ⟨by simpa using alive, ?_⟩
    split at taken
    · exact move_of_threadStep taken
    · exact move_of_acceptStep taken
    · exact move_of_readStep taken
    · exact move_of_handleStep taken
    · exact move_of_writeStep taken
    · exact move_of_controlStep taken

/-! ## Requests are served one after the other -/

/-- A connection is there whose request has not been handled yet. -/
def inHand (server : HttpServer) : Bool :=
  match server.thread with
  | .disarm | .read | .handle _ => true
  | _ => false

/-- The response that a client is to get, with the number of its connection. -/
def reply (entry : ℕ × Message × HttpResponse) : ℕ × HttpResponse :=
  (entry.1, entry.2.2)

structure Sound (parse : String → Option Json) (start : UInt64) (server : HttpServer) :
    Prop where
  served : trace (ControlPlane.serve parse) (.new start)
    (server.history.map fun entry => entry.2.1) =
      some (server.plane, server.history.map fun entry => entry.2.2)
  numbered : (server.history.map Prod.fst).Pairwise (· < ·)
  counted : ∀ entry ∈ server.history, entry.1 < server.accepted
  current : server.inHand = true →
    0 < server.accepted ∧ ∀ entry ∈ server.history, entry.1 < server.connection
  sent : server.sent.Sublist (server.history.map reply)
  unsent : ∀ response, server.thread = .write response →
    ∃ earlier message, server.history = earlier ++ [(server.connection, message, response)] ∧
      server.sent.Sublist (earlier.map reply)
  cause : server.terminated = true → server.Throws parse

namespace Sound

theorem new (start : UInt64) : Sound parse start (HttpServer.new start) where
  served := rfl
  numbered := .nil
  counted := by simp [HttpServer.new]
  current := by simp [HttpServer.new, inHand]
  sent := .slnil
  unsent := by simp [HttpServer.new]
  cause := by simp [HttpServer.new]

/-- A move that neither accepts a connection nor serves a request. -/
theorem quiet (sound : Sound parse start server) (plane : next.plane = server.plane)
    (history : next.history = server.history) (sent : next.sent = server.sent)
    (accepted : next.accepted = server.accepted)
    (inHand : next.inHand = true → server.inHand = true)
    (writes : ∀ response, next.thread = .write response → server.thread = .write response)
    (alive : next.terminated = false) : Sound parse start next where
  served := by rw [history, plane]; exact sound.served
  numbered := by rw [history]; exact sound.numbered
  counted := by rw [history, accepted]; exact sound.counted
  current := by
    intro holds
    unfold connection
    rw [history, accepted]
    exact sound.current (inHand holds)
  sent := by rw [sent, history]; exact sound.sent
  unsent := by
    intro response there
    unfold connection
    rw [sent, history, accepted]
    exact sound.unsent response (writes response there)
  cause := by
    rw [alive]
    intro impossible
    cases impossible

theorem connected (sound : Sound parse start server) (alive : server.terminated = false) :
    Sound parse start { server with thread := .disarm, accepted := server.accepted + 1 } where
  served := sound.served
  numbered := sound.numbered
  counted := fun entry member => (sound.counted entry member).trans (Nat.lt_succ_self _)
  current := fun _ => ⟨Nat.succ_pos _, sound.counted⟩
  sent := sound.sent
  unsent := by simp
  cause := by simp [alive]

theorem handled {message : Message} {plane : ControlPlane} {response : HttpResponse}
    (sound : Sound parse start server) (alive : server.terminated = false)
    (there : server.thread = .handle message)
    (served : server.plane.serve parse message = some (plane, response)) :
    Sound parse start { server with
      plane := plane
      thread := .write response
      history := server.history ++ [(server.connection, message, response)] } := by
  obtain ⟨positive, before⟩ := sound.current (by simp [inHand, there])
  refine ⟨?_, ?_, ?_, by simp [inHand], ?_, ?_, by simp [alive]⟩
  · simp only [List.map_append, List.map_cons, List.map_nil]
    exact trace_concat sound.served served
  · simp only [List.map_append, List.map_cons, List.map_nil]
    rw [List.pairwise_append]
    refine ⟨sound.numbered, List.pairwise_singleton _ _, ?_⟩
    intro number member other single
    obtain ⟨entry, known, rfl⟩ := List.mem_map.mp member
    rw [List.mem_singleton.mp single]
    exact before entry known
  · intro entry member
    rcases List.mem_append.mp member with old | new
    · exact sound.counted entry old
    · rw [List.mem_singleton.mp new]
      exact Nat.sub_lt positive Nat.one_pos
  · simp only [List.map_append]
    exact sound.sent.trans (List.sublist_append_left _ _)
  · intro found same
    cases same
    exact ⟨server.history, message, rfl, sound.sent⟩

theorem written {response : HttpResponse} {succeeds : Bool}
    (sound : Sound parse start server) (alive : server.terminated = false)
    (there : server.thread = .write response) :
    Sound parse start { server with
      thread := .check
      sent := if succeeds then server.sent ++ [(server.connection, response)]
        else server.sent } := by
  obtain ⟨earlier, message, grown, before⟩ := sound.unsent response there
  refine ⟨sound.served, sound.numbered, sound.counted, by simp [inHand], ?_, by simp,
    by simp [alive]⟩
  dsimp only
  split
  · rw [grown, List.map_append]
    exact before.append (.refl _)
  · exact sound.sent

theorem move (sound : Sound parse start server) (alive : server.terminated = false)
    (move : Move parse server next) : Sound parse start next := by
  cases move with
  | stopping | closed => exact sound.quiet rfl rfl rfl rfl id (fun _ => id) alive
  | started | joined | leaves | enters | armed | blocked | failed | rested | unread =>
      exact sound.quiet rfl rfl rfl rfl (by simp [inHand]) (by simp) alive
  | disarmed there | received message there =>
      exact sound.quiet rfl rfl rfl rfl (by simp [inHand, there]) (by simp) alive
  | connected => exact sound.connected alive
  | handled message plane response there served => exact sound.handled alive there served
  | written response succeeds there => exact sound.written alive there
  | thrown cause =>
      exact ⟨sound.served, sound.numbered, sound.counted, sound.current, sound.sent,
        sound.unsent, fun _ => cause⟩

end Sound

theorem sound_of_reaches (reachable : Reaches (step parse) Unrestricted (.new start) server) :
    Sound parse start server := by
  refine reachable.invariant (Sound parse start) (.new start) ?_
  intro before action after sound _ taken
  obtain ⟨alive, move⟩ := move_of_step taken
  exact sound.move alive move

end HttpServer

/-- The request is no POST with a JSON body that its handler cannot read. -/
def Message.Harmless (parse : String → Option Json) (message : Message) : Prop :=
  message.verb = .post → ∀ json ∈ parse message.body, message.route.Readable json

theorem ControlPlane.serve_eq_none_iff {parse : String → Option Json} {plane : ControlPlane}
    {message : Message} : plane.serve parse message = none ↔ ¬message.Harmless parse := by
  have returns := Route.handle_returns_iff plane.repository (plane.stamp message) message.route
    message.verb (parse message.body)
  have routed : Platform.route parse plane.repository
      ⟨message.verb, extractPath message.target, message.body, plane.stamp message⟩ =
    message.route.handle plane.repository (plane.stamp message) message.verb
      (parse message.body) := rfl
  unfold Message.Harmless serve
  rw [← returns, routed]
  split
  · rename_i exception left handled
    simp [handled]
  · rename_i response left handled
    simp [handled]

namespace HttpServer

variable {parse : String → Option Json} {server next last : HttpServer} {action : Action}
  {start : UInt64} {actions : List Action}

/-- In every interleaving the handled requests and their responses are a sequential run of
the control plane, in the order of their connections.  Each connection has at most one of
them and is sent no other response than its own.  The process is ended only by a request
that is not harmless, or by a closing of the acceptor just before its mode is switched. -/
theorem reachable_serves_in_order
    (reachable : Reaches (step parse) Unrestricted (.new start) server) :
    trace (ControlPlane.serve parse) (.new start)
        (server.history.map fun entry => entry.2.1) =
      some (server.plane, server.history.map fun entry => entry.2.2) ∧
    (server.history.map Prod.fst).Pairwise (· < ·) ∧
    server.sent.Sublist (server.history.map reply) ∧
    (server.terminated = true →
      (server.thread = .arm ∨ server.thread = .disarm) ∧ server.isOpen = false ∨
        ∃ message, server.thread = .handle message ∧ ¬message.Harmless parse) := by
  have sound := sound_of_reaches reachable
  refine ⟨sound.served, sound.numbered, sound.sent, ?_⟩
  intro ended
  rcases sound.cause ended with switched | ⟨message, there, thrown⟩
  · exact .inl switched
  · exact .inr ⟨message, there, ControlPlane.serve_eq_none_iff.mp thrown⟩

/-- A project is created, and `stop` closes the acceptor when the thread has just seen
that it is to go on. -/
def closedTooEarly : List Action :=
  [.start, .thread, .thread, .accept .connection, .thread,
    .read (some ControlPlane.shopProject), .handle, .write true,
    .thread, .stop, .close, .thread]

theorem reachable_serves_in_order_closedTooEarly :
    ∃ server, run (step ControlPlane.shopBodies) (.new 0) closedTooEarly = some server ∧
      server.terminated = true ∧ server.isOpen = false ∧ server.history.length = 1 ∧
      (server.history.map Prod.fst).Pairwise (· < ·) ∧
      server.sent.Sublist (server.history.map reply) := by
  have executes : (run (step ControlPlane.shopBodies) (.new 0) closedTooEarly).map
      (fun server => (server.terminated, server.isOpen, server.history.length)) =
        some (true, false, 1) := by
    decide +kernel
  obtain ⟨server, taken, shape⟩ := Option.map_eq_some_iff.mp executes
  simp only [Prod.mk.injEq] at shape
  obtain ⟨-, numbered, sent, -⟩ := reachable_serves_in_order (reaches_of_run taken)
  exact ⟨server, taken, shape.1, shape.2.1, shape.2.2, numbered, sent⟩

/-! ## Shutting down -/

/-- The requests that may still be handled once the server is being stopped. -/
def due (server : HttpServer) : ℕ :=
  match server.thread with
  | .arm | .accept | .disarm => if server.isOpen then 1 else 0
  | .read | .handle _ => 1
  | _ => 0

/-- The acceptor is closed or about to be closed. -/
def Closing (server : HttpServer) : Prop :=
  server.isOpen = false ∨ server.running = false ∧ server.control = .closing

theorem due_le_one (server : HttpServer) : server.due ≤ 1 := by
  unfold due
  split
  · split <;> decide
  · split <;> decide
  · split <;> decide
  · exact le_refl 1
  · exact le_refl 1
  · exact Nat.zero_le 1

theorem Closing.move (closing : server.Closing) (move : Move parse server next) :
    next.Closing ∧ next.history.length + next.due ≤ server.history.length + server.due := by
  cases move with
  | started there calm =>
      refine ⟨?_, by simp [due]⟩
      rcases closing with shut | ⟨-, other⟩
      · exact .inl shut
      · rw [calm] at other
        cases other
  | stopping calm =>
      refine ⟨?_, le_refl _⟩
      rcases closing with shut | ⟨-, other⟩
      · exact .inl shut
      · rw [calm] at other
        cases other
  | closed =>
      refine ⟨.inl rfl, Nat.add_le_add_left ?_ _⟩
      unfold due
      dsimp only
      split <;> simp
  | joined waits ended =>
      refine ⟨?_, by simp [due]⟩
      rcases closing with shut | ⟨-, other⟩
      · exact .inl shut
      · rw [waits] at other
        cases other
  | leaves there cleared => exact ⟨closing, by simp [due]⟩
  | enters there runs =>
      rcases closing with shut | ⟨cleared, -⟩
      · exact ⟨.inl shut, by simp [due, shut]⟩
      · rw [runs] at cleared
        cases cleared
  | armed there listens => exact ⟨closing, by simp [due, there]⟩
  | connected there listens => exact ⟨closing, by simp [due, there]⟩
  | blocked there listens | failed there | rested there | unread there =>
      exact ⟨closing, by simp [due]⟩
  | disarmed there listens => exact ⟨closing, by simp [due, there, listens]⟩
  | received message there => exact ⟨closing, by simp [due, there]⟩
  | handled message plane response there served => exact ⟨closing, by simp [due, there]⟩
  | written response succeeds there => exact ⟨closing, by simp [due]⟩
  | thrown cause => exact ⟨closing, le_refl _⟩

theorem Closing.run (closing : server.Closing)
    (executes : run (step parse) server actions = some last) :
    last.history.length + last.due ≤ server.history.length + server.due := by
  induction actions generalizing server with
  | nil =>
      cases executes
      exact le_refl _
  | cons action rest ih =>
      rw [run_cons, Option.bind_eq_some_iff] at executes
      obtain ⟨middle, taken, remaining⟩ := executes
      obtain ⟨kept, bounded⟩ := closing.move (move_of_step taken).2
      exact (ih kept remaining).trans bounded

/-- However the two threads interleave, and even if the server is started again, at most
one request is handled after `stop` has cleared `running_`. -/
theorem at_most_one_after_stop (stops : server.step parse .stop = some next)
    (executes : run (step parse) next actions = some last) :
    last.history.length ≤ server.history.length + 1 := by
  have cleared : next.Closing ∧ next.history = server.history := by
    simp only [step, controlStep] at stops
    split at stops
    · cases stops
    · split at stops
      · cases stops
        exact ⟨.inr ⟨rfl, rfl⟩, rfl⟩
      · cases stops
  have bounded := cleared.1.run executes
  have single := next.due_le_one
  rw [cleared.2] at bounded
  omega

/-- The thread is about to accept when `stop` clears `running_`. -/
def beforeLastRequest : List Action :=
  [.start, .thread, .thread]

def lastRequest : List Action :=
  [.accept .connection, .thread, .read (some ControlPlane.shopProject),
    .handle, .close, .write true]

theorem at_most_one_after_stop_lastRequest :
    ∃ server next last,
      run (step ControlPlane.shopBodies) (.new 0) beforeLastRequest = some server ∧
      server.step ControlPlane.shopBodies .stop = some next ∧
      run (step ControlPlane.shopBodies) next lastRequest = some last ∧
      last.history.length = 1 ∧ last.history.length ≤ server.history.length + 1 := by
  have executes : ((run (step ControlPlane.shopBodies) (.new 0) beforeLastRequest).bind
      fun server => (server.step ControlPlane.shopBodies .stop).bind fun next =>
        (run (step ControlPlane.shopBodies) next lastRequest).map fun last =>
          last.history.length) = some 1 := by
    decide +kernel
  obtain ⟨server, begun, rest⟩ := Option.bind_eq_some_iff.mp executes
  obtain ⟨next, stops, more⟩ := Option.bind_eq_some_iff.mp rest
  obtain ⟨last, ended, length⟩ := Option.map_eq_some_iff.mp more
  exact ⟨server, next, last, begun, stops, ended, length, at_most_one_after_stop stops ended⟩

/-- The steps that are left before the thread can be joined, the joining included. -/
def work (server : HttpServer) : ℕ :=
  if server.terminated then 0
  else
    match server.thread with
    | .arm | .disarm | .absent | .finished => 1
    | .check => 2
    | .accept | .rest | .write _ => 3
    | .handle _ => 4
    | .read => 5

/-- `stop` waits for the accept thread. -/
structure Joining (server : HttpServer) : Prop where
  waits : server.control = .joining
  cleared : server.running = false
  shut : server.isOpen = false

/-- `running_` and the acceptor agree with where `stop` is. -/
structure Controlled (server : HttpServer) : Prop where
  cleared : server.control ≠ .idle → server.running = false
  shut : server.control = .joining → server.isOpen = false

theorem Controlled.move (controlled : server.Controlled) (move : Move parse server next) :
    next.Controlled := by
  have ⟨cleared, shut⟩ := controlled
  cases move with
  | started there calm => exact ⟨by simp [calm], by simp [calm]⟩
  | stopping calm => exact ⟨fun _ => rfl, by simp⟩
  | closed closing => exact ⟨fun _ => cleared (by simp [closing]), fun _ => rfl⟩
  | joined => exact ⟨by simp, by simp⟩
  | leaves | enters | armed | connected | blocked | failed | rested | disarmed | received
  | unread | handled | written | thrown => exact ⟨cleared, shut⟩

theorem joining_of_reaches (reachable : Reaches (step parse) Unrestricted (.new start) server)
    (waits : server.control = .joining) : server.Joining := by
  have controlled : server.Controlled := by
    refine reachable.invariant Controlled ⟨by simp [new], by simp [new]⟩ ?_
    intro before action after controlled _ taken
    exact controlled.move (move_of_step taken).2
  exact ⟨waits, controlled.cleared (by simp [waits]), controlled.shut waits⟩

/-- A move of a server that is being stopped is the joining or brings it nearer. -/
theorem Joining.move (joining : server.Joining) (alive : server.terminated = false)
    (move : Move parse server next) :
    next.control = .idle ∨ next.Joining ∧ next.work < server.work := by
  have ⟨waits, cleared, shut⟩ := joining
  cases move with
  | started there calm | stopping calm =>
      rw [waits] at calm
      cases calm
  | closed closing =>
      rw [waits] at closing
      cases closing
  | joined => exact .inl rfl
  | enters there runs =>
      rw [cleared] at runs
      cases runs
  | armed there listens | connected there listens | blocked there listens
  | disarmed there listens =>
      rw [shut] at listens
      cases listens
  | leaves there | failed there | rested there | unread there =>
      exact .inr ⟨⟨waits, cleared, shut⟩, by simp [work, alive, there]⟩
  | received message there => exact .inr ⟨⟨waits, cleared, shut⟩, by simp [work, alive, there]⟩
  | handled message plane response there =>
      exact .inr ⟨⟨waits, cleared, shut⟩, by simp [work, alive, there]⟩
  | written response succeeds there =>
      exact .inr ⟨⟨waits, cleared, shut⟩, by simp [work, alive, there]⟩
  | thrown cause =>
      refine .inr ⟨⟨waits, cleared, shut⟩, ?_⟩
      have some_left : 0 < server.work := by
        unfold work
        rw [alive]
        rcases cause with ⟨there | there, -⟩ | ⟨message, there, -⟩ <;> simp [there]
      simpa [work, terminate] using some_left

theorem work_pos (alive : server.terminated = false) : 0 < server.work := by
  unfold work
  rw [alive]
  cases server.thread <;> simp

theorem work_le_five (server : HttpServer) : server.work ≤ 5 := by
  unfold work
  split
  · exact Nat.zero_le 5
  · cases server.thread <;> simp

/-- A run of a server that is being stopped: `stop` returns before its work is used up,
or the work that is left pays for the steps. -/
theorem Joining.run (joining : server.Joining)
    (executes : run (step parse) server actions = some last) :
    (∃ count ≤ server.work, ∃ middle,
      run (step parse) server (actions.take count) = some middle ∧ middle.control = .idle) ∨
      actions.length + last.work ≤ server.work := by
  induction actions generalizing server with
  | nil =>
      cases executes
      exact .inr (by simp)
  | cons action rest ih =>
      rw [run_cons, Option.bind_eq_some_iff] at executes
      obtain ⟨next, taken, remaining⟩ := executes
      obtain ⟨alive, move⟩ := move_of_step taken
      rcases joining.move alive move with returned | ⟨still, less⟩
      · exact .inl ⟨1, work_pos alive, next, by simp [run_cons, taken], returned⟩
      · rcases ih still remaining with ⟨count, within, middle, reached, returned⟩ | bounded
        · refine .inl ⟨count + 1, by omega, middle, ?_, returned⟩
          simpa [run_cons, taken] using reached
        · exact .inr (by rw [List.length_cons]; omega)

/-- The thread is in `http::read` or `http::write`. -/
def awaitsClient (server : HttpServer) : Bool :=
  match server.thread with
  | .read | .write _ => true
  | _ => false

/-- A read or a write ends. -/
def Action.ofClient : Action → Bool
  | .read _ | .write _ => true
  | _ => false

/-- Unless the thread waits for a client, it or `stop` can go on by itself. -/
theorem Joining.enabled (joining : server.Joining) (alive : server.terminated = false)
    (unawaited : server.awaitsClient = false) :
    ∃ action next, action.ofClient = false ∧ server.step parse action = some next := by
  have ⟨waits, cleared, shut⟩ := joining
  cases there : server.thread with
  | absent | finished =>
      exact ⟨.join, _, rfl,
        by simp [HttpServer.step, alive, controlStep, waits, ended, there]; rfl⟩
  | check | arm | rest | disarm =>
      exact ⟨.thread, _, rfl, by simp [HttpServer.step, alive, threadStep, there]; rfl⟩
  | accept =>
      exact ⟨.accept .failed, _, rfl,
        by simp [HttpServer.step, alive, acceptStep, there]; rfl⟩
  | handle message =>
      cases served : server.plane.serve parse message with
      | none | some =>
          exact ⟨.handle, _, rfl,
            by simp [HttpServer.step, alive, handleStep, there, served]; rfl⟩
  | read | write => simp [awaitsClient, there] at unawaited

/-- While the thread waits for a client, nothing else can happen. -/
theorem Joining.awaiting (joining : server.Joining) (awaits : server.awaitsClient = true)
    (taken : server.step parse action = some next) : action.ofClient = true := by
  have waits := joining.waits
  unfold HttpServer.step at taken
  split at taken
  · cases taken
  · unfold awaitsClient at awaits
    cases action with
    | read | write => rfl
    | start | stop | close => simp [controlStep, waits] at taken
    | join | thread | accept | handle =>
        split at awaits
        all_goals
          simp_all [controlStep, ended, threadStep, acceptStep, handleStep]

/-- Once `stop` has closed the acceptor it returns within five steps of the two threads and
the client, unless an exception ends the process.  The only thing it can have to wait for is
the client whose request is being read or whose response is being written, and until that
client goes on or its connection breaks nothing else can happen. -/
theorem stop_waits_for_client
    (reachable : Reaches (step parse) Unrestricted (.new start) server)
    (waits : server.control = .joining) :
    (∀ actions last, run (step parse) server actions = some last → 5 < actions.length →
      ∃ count ≤ 5, ∃ middle, run (step parse) server (actions.take count) = some middle ∧
        middle.control = .idle) ∧
    (server.terminated = true ∨ server.awaitsClient = true ∨
      ∃ action next, action.ofClient = false ∧ server.step parse action = some next) ∧
    (server.awaitsClient = true → ∀ action next, server.step parse action = some next →
      action.ofClient = true) := by
  have joining := joining_of_reaches reachable waits
  have bound := server.work_le_five
  refine ⟨?_, ?_, ?_⟩
  · intro actions last executes long
    rcases joining.run executes with ⟨count, within, returned⟩ | bounded
    · exact ⟨count, within.trans bound, returned⟩
    · omega
  · by_cases ended : server.terminated = true
    · exact .inl ended
    · by_cases awaits : server.awaitsClient = true
      · exact .inr (.inl awaits)
      · exact .inr (.inr (joining.enabled (by simpa using ended) (by simpa using awaits)))
  · intro awaits action next taken
    exact joining.awaiting awaits taken

/-- `stop` after a connection was accepted on which nothing is sent. -/
def silentClient : List Action :=
  [.start, .thread, .thread, .accept .connection, .thread, .stop, .close]

/-- `stop` after a response was made that nobody takes. -/
def idleClient : List Action :=
  [.start, .thread, .thread, .accept .connection, .thread,
    .read (some ControlPlane.shopProject), .handle, .stop, .close]

theorem stop_waits_for_client_silentClient :
    [silentClient, idleClient].Forall fun actions =>
      ∃ server, run (step ControlPlane.shopBodies) (.new 0) actions = some server ∧
        server.control = .joining ∧
        ∀ action next, server.step ControlPlane.shopBodies action = some next →
          action.ofClient = true := by
  have waiting : ∀ actions ∈ [silentClient, idleClient],
      (run (step ControlPlane.shopBodies) (.new 0) actions).map
        (fun server => (server.control, server.awaitsClient)) = some (.joining, true) := by
    decide +kernel
  refine List.forall_iff_forall_mem.mpr fun actions member => ?_
  obtain ⟨server, executes, seen⟩ := Option.map_eq_some_iff.mp (waiting actions member)
  simp only [Prod.mk.injEq] at seen
  exact ⟨server, executes, seen.1,
    (stop_waits_for_client (reaches_of_run executes) seen.1).2.2 seen.2⟩

end HttpServer

end Cppload.Platform
