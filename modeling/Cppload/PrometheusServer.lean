import Cppload.TransitionSystem
import Cppload.Roster

/-!
# The threads of the embedded Prometheus server

Without prometheus-cpp the exporter serves `/metrics` itself.  One thread runs the
accept handlers; every accepted connection is served by a thread of its own, which is
put into `handler_threads_`.  `stop` ends the accept thread, takes the vector and joins
what it finds there.  The calls of `start` and `stop` come from one thread.  What the
operating system reports about a pending accept is left open, so it may also report a
connection after the acceptor was closed.

A connection's thread is blocked in `http::read` until its client has sent a request, and in
`http::write` until the client has taken the response; either call also ends when the
connection breaks.  When that happens is left open as well.  `SO_RCVTIMEO` does not bound it:
a synchronous read of Asio that times out waits for the socket again.
-/

namespace Cppload.Prometheus

open Transition

def kMaxConnections : ℕ :=
  100

/-- Where `thread_` is: between two handlers, or in the handler of an accept, of which
it has read `active_connections_`, counted the connection, or made the thread. -/
inductive AcceptPc where
  | absent
  | waiting
  | accepted
  | checked
  | reserved
  | spawned (index : ℕ)
  | continuing
  | exited
  deriving DecidableEq, Repr

/-- A thread that serves one connection: blocked in `http::read` or in `http::write`, or
past `handle_request` and before the `fetch_sub`. -/
inductive HandlerPc where
  | reading
  | writing
  | served
  | finished
  deriving DecidableEq, Repr

/-- Where the call of `stop` is. -/
inductive ControlPc where
  | ready
  | closing
  | stopping
  | joiningThread
  | swapping
  | joining (rest : List ℕ)
  deriving DecidableEq, Repr

/-- `pending` are the accept operations whose handler has not run yet; `handlers` are
all threads ever made for a connection. -/
structure Server where
  running : Bool
  stopped : Bool
  pending : ℕ
  thread : AcceptPc
  handlers : List HandlerPc
  handlerThreads : List ℕ
  activeConnections : ℕ
  control : ControlPc
  deriving DecidableEq, Repr

/-- How far `start` comes. -/
inductive StartOutcome where
  | bindFails
  | threadFails
  | succeeds
  deriving DecidableEq, Repr

inductive Server.Action where
  | start (outcome : StartOutcome)
  | stop
  | control
  | complete (failed : Bool)
  | thread
  | client (index : ℕ) (failed : Bool)
  | handler (index : ℕ)
  deriving DecidableEq, Repr

namespace Server

def new : Server where
  running := false
  stopped := false
  pending := 0
  thread := .absent
  handlers := []
  handlerThreads := []
  activeConnections := 0
  control := .ready

def start (server : Server) (outcome : StartOutcome) : Server :=
  if server.running then server
  else
    match outcome with
    | .bindFails => { server with running := false }
    | .threadFails =>
        { server with stopped := false, pending := server.pending + 1, running := false }
    | .succeeds =>
        { server with
          stopped := false
          running := true
          pending := server.pending + 1
          thread := .waiting }

/-- The next operation of `stop`; a join waits until its thread has ended. -/
def controlStep (server : Server) : Option Server :=
  match server.control with
  | .ready => none
  | .closing => some { server with control := .stopping }
  | .stopping => some { server with stopped := true, control := .joiningThread }
  | .joiningThread =>
      match server.thread with
      | .exited | .absent => some { server with thread := .absent, control := .swapping }
      | _ => none
  | .swapping =>
      some { server with control := .joining server.handlerThreads, handlerThreads := [] }
  | .joining (index :: rest) =>
      if server.handlers[index]? = some .finished then
        some { server with control := .joining rest }
      else none
  | .joining [] => some { server with control := .ready }

/-- The next operation of the accept thread. -/
def threadStep (server : Server) : Option Server :=
  match server.thread with
  | .absent | .exited => none
  | .waiting =>
      -- `run` returns when the context is stopped or has no work left.
      if server.stopped ∨ server.pending = 0 then some { server with thread := .exited }
      else none
  | .accepted =>
      if kMaxConnections ≤ server.activeConnections then
        some { server with thread := .continuing }
      else some { server with thread := .checked }
  | .checked =>
      some { server with
        activeConnections := server.activeConnections + 1, thread := .reserved }
  | .reserved =>
      some { server with
        handlers := server.handlers ++ [.reading]
        thread := .spawned server.handlers.length }
  | .spawned index =>
      some { server with
        handlerThreads := server.handlerThreads ++ [index], thread := .continuing }
  | .continuing =>
      if server.running then
        some { server with pending := server.pending + 1, thread := .waiting }
      else some { server with thread := .waiting }

/-- The accept thread is handed the result of a pending accept. -/
def complete (server : Server) (failed : Bool) : Option Server :=
  if server.thread = .waiting ∧ server.stopped = false ∧ server.pending ≠ 0 then
    some { server with
      pending := server.pending - 1
      thread := if failed then .continuing else .accepted }
  else none

/-- A blocked read or write of a connection ends.  There is no response to a request that
could not be read. -/
def client (server : Server) (index : ℕ) (failed : Bool) : Option Server :=
  match server.handlers[index]? with
  | some .reading =>
      some { server with
        handlers := server.handlers.set index (if failed then .served else .writing) }
  | some .writing => some { server with handlers := server.handlers.set index .served }
  | _ => none

def handlerStep (server : Server) (index : ℕ) : Option Server :=
  match server.handlers[index]? with
  | some .served =>
      some { server with
        handlers := server.handlers.set index .finished
        activeConnections := server.activeConnections - 1 }
  | _ => none

def step (server : Server) : Action → Option Server
  | .start outcome => if server.control = .ready then some (server.start outcome) else none
  | .stop =>
      if server.control = .ready then
        if server.running then some { server with running := false, control := .closing }
        else some server
      else none
  | .control => server.controlStep
  | .complete failed => server.complete failed
  | .thread => server.threadStep
  | .client index failed => server.client index failed
  | .handler index => server.handlerStep index

end Server

/-! ### What holds in every interleaving -/

/-- One for a thread that still has to leave `active_connections_`. -/
def HandlerPc.counted : HandlerPc → ℕ
  | .finished => 0
  | _ => 1

/-- One for a connection that is counted and has no thread yet. -/
def AcceptPc.counted : AcceptPc → ℕ
  | .reserved => 1
  | _ => 0

/-- One for a connection that is about to be counted. -/
def AcceptPc.entering : AcceptPc → ℕ
  | .checked => 1
  | _ => 0

/-- The thread that is made and not yet in the vector. -/
def AcceptPc.toPush : AcceptPc → List ℕ
  | .spawned index => [index]
  | _ => []

/-- The threads that `stop` still has to join. -/
def ControlPc.toJoin : ControlPc → List ℕ
  | .joining rest => rest
  | _ => []

/-- `stop` has joined the accept thread. -/
def ControlPc.pastThread : ControlPc → Bool
  | .swapping | .joining _ => true
  | _ => false

/-- The unfinished threads are among those that somebody holds, and only threads that were
made are held. -/
def Owned (handlers : List HandlerPc) (held : List ℕ) : Prop :=
  (∀ index handler, handlers[index]? = some handler → handler ≠ .finished → index ∈ held) ∧
    ∀ index ∈ held, index < handlers.length

namespace Owned

variable {handlers : List HandlerPc} {held others : List ℕ} {index : ℕ}

theorem congr (owned : Owned handlers held) (same : ∀ index, index ∈ others ↔ index ∈ held) :
    Owned handlers others := by
  simpa only [Owned, same] using owned

theorem made (owned : Owned handlers held) :
    Owned (handlers ++ [.reading]) (held ++ [handlers.length]) := by
  constructor
  · intro index handler found unfinished
    rcases Roster.getElem?_concat_cases found with old | ⟨rfl, -⟩
    · exact List.mem_append_left _ (owned.1 index handler old unfinished)
    · exact List.mem_append_right _ List.mem_cons_self
  · intro index member
    rw [List.length_append, List.length_singleton]
    rcases List.mem_append.mp member with old | last
    · exact Nat.lt_succ_of_lt (owned.2 index old)
    · exact Nat.lt_succ_of_le (List.mem_singleton.mp last).le

/-- A thread that has ended need not be held any longer. -/
theorem joined {before rest after : List ℕ}
    (owned : Owned handlers (before ++ (index :: rest) ++ after))
    (ended : handlers[index]? = some .finished) : Owned handlers (before ++ rest ++ after) := by
  constructor
  · intro other handler found unfinished
    have different : other ≠ index := by
      rintro rfl
      rw [ended] at found
      exact unfinished (Option.some.inj found).symm
    simpa [different] using owned.1 other handler found unfinished
  · intro other member
    refine owned.2 other ?_
    simp only [List.mem_append, List.mem_cons] at member ⊢
    exact member.imp_left (·.imp_right .inr)

theorem set {before after : HandlerPc} (owned : Owned handlers held)
    (found : handlers[index]? = some before) (unfinished : before ≠ .finished) :
    Owned (handlers.set index after) held := by
  constructor
  · intro other handler foundOther pending
    rcases Roster.getElem?_set_cases foundOther with ⟨rfl, -⟩ | ⟨-, old⟩
    · exact owned.1 _ _ found unfinished
    · exact owned.1 other handler old pending
  · simpa only [List.length_set] using owned.2

end Owned

namespace Server

/-- Every connection is counted while it has an unfinished thread; every unfinished
thread is in the vector, in the hands of `stop`, or about to be put into the vector.  The
context is stopped before its thread is joined. -/
structure Sound (server : Server) : Prop where
  counted : server.activeConnections =
    (server.handlers.map HandlerPc.counted).sum + server.thread.counted
  within : server.activeConnections + server.thread.entering ≤ kMaxConnections
  owned : Owned server.handlers
    (server.handlerThreads ++ server.control.toJoin ++ server.thread.toPush)
  quiet : server.control = .ready → server.running = false →
    server.thread = .absent ∧ server.handlerThreads = []
  notRunning : server.control ≠ .ready → server.running = false
  halted : server.control = .joiningThread → server.stopped = true
  pastThread : server.control.pastThread = true → server.thread = .absent
  emptied : ∀ rest, server.control = .joining rest → server.handlerThreads = []

variable {server next : Server}

theorem new_sound : new.Sound where
  counted := rfl
  within := by decide
  owned := by simp [Owned, new, ControlPc.toJoin, AcceptPc.toPush]
  quiet _ _ := ⟨rfl, rfl⟩
  notRunning := by simp [new]
  halted := by simp [new]
  pastThread := by simp [new, ControlPc.pastThread]
  emptied rest := by simp [new]

theorem Sound.start (sound : server.Sound) (idle : server.control = .ready)
    (outcome : StartOutcome) : (server.start outcome).Sound := by
  have counted := sound.counted
  have within := sound.within
  have owned := sound.owned
  have halted (restarted : Bool) : server.control = .joiningThread → restarted = true := by
    simp [idle]
  cases flag : server.running with
  | true => simpa only [Server.start, flag, if_true] using sound
  | false =>
      have quiet := sound.quiet idle flag
      simp only [Server.start, flag, Bool.false_eq_true, if_false]
      cases outcome with
      | bindFails | threadFails =>
          exact ⟨counted, within, owned, fun _ _ => quiet, fun _ => rfl, halted _,
            sound.pastThread, sound.emptied⟩
      | succeeds =>
          rw [quiet.1] at counted within owned
          exact ⟨counted, within, owned, (fun _ off => by cases off),
            fun busy => absurd idle busy, halted _, (fun past => by simp [idle,
              ControlPc.pastThread] at past), sound.emptied⟩

theorem Sound.beginStop (sound : server.Sound) (idle : server.control = .ready) :
    ({ server with running := false, control := .closing } : Server).Sound := by
  have owned := sound.owned
  rw [idle] at owned
  exact ⟨sound.counted, sound.within, owned, (fun later => by cases later), fun _ => rfl,
    (fun later => by cases later), (fun later => by cases later), fun _ later => by cases later⟩

theorem Sound.control (sound : server.Sound) (taken : server.controlStep = some next) :
    next.Sound := by
  have counted := sound.counted
  have within := sound.within
  have owned := sound.owned
  unfold controlStep at taken
  split at taken
  · cases taken
  all_goals
    rename_i phase
    rw [phase] at owned
    have off := sound.notRunning (by simp [phase])
  · cases taken
    exact ⟨counted, within, owned, (fun later => by cases later), fun _ => off,
      (fun later => by cases later), (fun later => by cases later), fun _ later => by cases later⟩
  · cases taken
    exact ⟨counted, within, owned, (fun later => by cases later), fun _ => off, fun _ => rfl,
      (fun later => by cases later), fun _ later => by cases later⟩
  · split at taken
    all_goals try cases taken
    all_goals
      rename_i ended
      rw [ended] at counted within owned
      exact ⟨counted, within, owned, (fun later => by cases later), fun _ => off,
        (fun later => by cases later), fun _ => rfl, fun _ later => by cases later⟩
  all_goals have absent := sound.pastThread (by simp [phase, ControlPc.pastThread])
  · cases taken
    refine ⟨counted, within, owned.congr fun index => ?_, (fun later => by cases later),
      fun _ => off, (fun later => by cases later), fun _ => absent, fun _ _ => rfl⟩
    simp [ControlPc.toJoin]
  · have empty := sound.emptied _ phase
    split at taken
    · rename_i ended
      cases taken
      exact ⟨counted, within, owned.joined ended, (fun later => by cases later), fun _ => off,
        (fun later => by cases later), fun _ => absent, fun _ _ => empty⟩
    · cases taken
  · have empty := sound.emptied _ phase
    cases taken
    exact ⟨counted, within, owned, fun _ _ => ⟨absent, empty⟩, fun busy => absurd rfl busy,
      (fun later => by cases later), (fun later => by cases later), fun _ later => by cases later⟩

/-- A step of the accept thread leaves the caller of `stop` alone. -/
theorem Sound.of_thread {thread : AcceptPc} {pending active : ℕ} {handlers : List HandlerPc}
    {threads : List ℕ} (sound : server.Sound) (present : server.thread ≠ .absent)
    (counted : active = (handlers.map HandlerPc.counted).sum + thread.counted)
    (within : active + thread.entering ≤ kMaxConnections)
    (owned : Owned handlers (threads ++ server.control.toJoin ++ thread.toPush)) :
    ({ server with
        pending := pending, thread := thread, handlers := handlers,
        handlerThreads := threads, activeConnections := active } : Server).Sound where
  counted := counted
  within := within
  owned := owned
  quiet idle off := absurd (sound.quiet idle off).1 present
  notRunning := sound.notRunning
  halted := sound.halted
  pastThread past := absurd (sound.pastThread past) present
  emptied rest phase :=
    absurd (sound.pastThread (by simp [show server.control = _ from phase, ControlPc.pastThread]))
      present

theorem Sound.thread (sound : server.Sound) (taken : server.threadStep = some next) :
    next.Sound := by
  have counted := sound.counted
  have within := sound.within
  have owned := sound.owned
  unfold threadStep at taken
  split at taken
  all_goals
    rename_i pc
    try cases taken
  all_goals
    have present : server.thread ≠ .absent := by simp [pc]
    rw [pc] at counted within owned
  · split at taken
    · cases taken
      exact sound.of_thread present counted within owned
    · cases taken
  · split at taken
    · cases taken
      exact sound.of_thread present counted within owned
    · rename_i room
      cases taken
      refine sound.of_thread present counted ?_ owned
      simp only [AcceptPc.entering]
      omega
  · refine sound.of_thread present ?_ within owned
    rw [counted]
    rfl
  · refine sound.of_thread present ?_ within ?_
    · rw [counted, List.map_append, List.sum_append]
      rfl
    · change Owned server.handlers (server.handlerThreads ++ server.control.toJoin ++ []) at owned
      rw [List.append_nil] at owned
      exact owned.made
  · refine sound.of_thread present counted within (owned.congr fun index => ?_)
    simp only [AcceptPc.toPush, List.mem_append, List.not_mem_nil, or_false]
    tauto
  · split at taken
    all_goals
      cases taken
      exact sound.of_thread present counted within owned

theorem Sound.complete {failed : Bool} (sound : server.Sound)
    (taken : server.complete failed = some next) : next.Sound := by
  unfold Server.complete at taken
  split at taken
  · rename_i ready
    have present : server.thread ≠ .absent := by simp [ready.1]
    have counted := sound.counted
    have within := sound.within
    have owned := sound.owned
    rw [ready.1] at counted within owned
    cases taken
    cases failed
    all_goals exact sound.of_thread present counted within owned
  · cases taken

/-- A connection's thread goes on, and is counted as long as it has not finished. -/
theorem Sound.of_handler {index active : ℕ} {before after : HandlerPc} (sound : server.Sound)
    (found : server.handlers[index]? = some before) (unfinished : before ≠ .finished)
    (counted : active + before.counted = server.activeConnections + after.counted)
    (fewer : after.counted ≤ before.counted) :
    ({ server with
        handlers := server.handlers.set index after
        activeConnections := active } : Server).Sound where
  counted := by
    have sum := Roster.sum_map_set HandlerPc.counted found after
    have total := sound.counted
    dsimp only
    omega
  within := by
    have within := sound.within
    dsimp only
    omega
  owned := sound.owned.set found unfinished
  quiet := sound.quiet
  notRunning := sound.notRunning
  halted := sound.halted
  pastThread := sound.pastThread
  emptied := sound.emptied

theorem Sound.client {index : ℕ} {failed : Bool} (sound : server.Sound)
    (taken : server.client index failed = some next) : next.Sound := by
  unfold Server.client at taken
  split at taken
  · rename_i found
    cases taken
    cases failed
    all_goals exact sound.of_handler found (by simp) rfl le_rfl
  · rename_i found
    cases taken
    exact sound.of_handler found (by simp) rfl le_rfl
  · cases taken

theorem Sound.handler {index : ℕ} (sound : server.Sound)
    (taken : server.handlerStep index = some next) : next.Sound := by
  unfold handlerStep at taken
  split at taken
  · rename_i found
    have one : HandlerPc.served.counted ≤ (server.handlers.map HandlerPc.counted).sum :=
      List.single_le_sum (fun _ _ => Nat.zero_le _) _
        (List.mem_map_of_mem (List.mem_of_getElem? found))
    have total := sound.counted
    cases taken
    refine sound.of_handler found (by simp) ?_ (Nat.zero_le _)
    simp only [HandlerPc.counted] at one ⊢
    omega
  · cases taken

theorem Sound.step {action : Action} (sound : server.Sound)
    (taken : server.step action = some next) : next.Sound := by
  cases action with
  | start outcome =>
      simp only [Server.step] at taken
      split at taken
      · rename_i idle
        cases taken
        exact sound.start idle outcome
      · cases taken
  | stop =>
      simp only [Server.step] at taken
      split at taken
      · rename_i idle
        split at taken
        · cases taken
          exact sound.beginStop idle
        · cases taken
          exact sound
      · cases taken
  | control => exact sound.control taken
  | complete failed => exact sound.complete taken
  | thread => exact sound.thread taken
  | client index failed => exact sound.client taken
  | handler index => exact sound.handler taken

theorem Sound.all_finished (sound : server.Sound) (idle : server.control = .ready)
    (off : server.running = false) : ∀ handler ∈ server.handlers, handler = .finished := by
  obtain ⟨absent, empty⟩ := sound.quiet idle off
  intro handler member
  obtain ⟨index, found⟩ := List.mem_iff_getElem?.mp member
  by_contra unfinished
  have mine := sound.owned.1 index handler found unfinished
  simp [absent, empty, idle, AcceptPc.toPush, ControlPc.toJoin] at mine

theorem reaches_sound (reaches : Reaches step Unrestricted new server) : server.Sound :=
  reaches.invariant Sound new_sound fun _ _ _ sound _ taken => sound.step taken

/-- In every interleaving, with `start` and `stop` called from one thread, at most a hundred
connections are being served at a time, and when `stop` has returned neither the accept
thread nor any thread that serves a connection is left: nothing refers to the server any
more. -/
theorem nothing_outlives_stop (reaches : Reaches step Unrestricted new server) :
    server.activeConnections ≤ kMaxConnections ∧
      (server.handlers.map HandlerPc.counted).sum ≤ kMaxConnections ∧
      (server.control = .ready → server.running = false →
        server.thread = .absent ∧ server.activeConnections = 0 ∧
          ∀ handler ∈ server.handlers, handler = .finished) := by
  have sound := reaches_sound reaches
  have counted := sound.counted
  have within := sound.within
  refine ⟨by omega, by omega, fun idle off => ?_⟩
  obtain ⟨absent, -⟩ := sound.quiet idle off
  have finished := sound.all_finished idle off
  refine ⟨absent, ?_, finished⟩
  rw [counted, absent]
  refine Nat.add_eq_zero_iff.mpr ⟨List.sum_eq_zero fun amount listed => ?_, rfl⟩
  obtain ⟨handler, member, rfl⟩ := List.mem_map.mp listed
  rw [finished handler member]
  rfl

/-- A connection is served, and another one is accepted while `stop` closes the acceptor. -/
def lateConnection : List Action :=
  [Action.start .succeeds, Action.complete false] ++ List.replicate 5 Action.thread ++
  [Action.stop, Action.control, Action.complete false, Action.client 0 false] ++
  List.replicate 5 Action.thread ++
  [Action.control, Action.thread, Action.control, Action.control, Action.client 0 false,
    Action.handler 0, Action.control, Action.client 1 true, Action.handler 1, Action.control,
    Action.control]

theorem nothing_outlives_stop_lateConnection :
    ∃ server, Reaches step Unrestricted new server ∧ server.control = .ready ∧
      server.running = false ∧ server.handlers.length = 2 ∧ server.thread = .absent ∧
      server.activeConnections = 0 := by
  have figures : (run step new lateConnection).map
      (fun server => (server.control, server.running, server.handlers.length)) =
      some (.ready, false, 2) := by
    decide +kernel
  obtain ⟨server, executes, figuresEq⟩ := Option.map_eq_some_iff.mp figures
  simp only [Prod.mk.injEq] at figuresEq
  obtain ⟨idle, off, two⟩ := figuresEq
  have reaches := reaches_of_run executes
  obtain ⟨absent, uncounted, -⟩ := (nothing_outlives_stop reaches).2.2 idle off
  exact ⟨server, reaches, idle, off, two, absent, uncounted⟩

end Server

/-! ### `stop` returns -/

/-- The operations a thread still has to do for the connection it serves. -/
def HandlerPc.work : HandlerPc → ℕ
  | .reading => 3
  | .writing => 2
  | .served => 1
  | .finished => 0

/-- What the handler of an accept still has to do, with the work it leaves to others. -/
def AcceptPc.work : AcceptPc → ℕ
  | .accepted => 10
  | .checked => 9
  | .reserved => 8
  | .spawned _ => 4
  | .continuing => 2
  | .waiting => 1
  | .exited | .absent => 0

def ControlPc.work : ControlPc → ℕ
  | .ready => 0
  | .closing => 5
  | .stopping => 4
  | .joiningThread => 3
  | .swapping => 2
  | .joining rest => rest.length + 1

namespace Server

variable {server next : Server}

/-- What is left to do until `stop` returns. -/
def work (server : Server) : ℕ :=
  11 * server.pending + server.thread.work + (server.handlers.map HandlerPc.work).sum +
    server.handlerThreads.length + server.control.work

/-- A call of `stop` is in progress. -/
def Stopping (server : Server) (_ : Action) : Prop :=
  server.control ≠ .ready

instance (server : Server) (action : Action) : Decidable (server.Stopping action) :=
  inferInstanceAs (Decidable (_ ≠ _))

theorem work_control (taken : server.controlStep = some next) : next.work < server.work := by
  unfold controlStep at taken
  cases phase : server.control with
  | ready => simp [phase] at taken
  | closing | stopping =>
      simp only [phase] at taken
      cases taken
      simp [work, phase, ControlPc.work]
  | joiningThread =>
      simp only [phase] at taken
      split at taken
      all_goals try cases taken
      all_goals
        simp only [work, phase, ControlPc.work, AcceptPc.work]
        omega
  | swapping =>
      simp only [phase] at taken
      cases taken
      simp only [work, phase, ControlPc.work, List.length_nil]
      omega
  | joining rest =>
      cases rest with
      | nil =>
          simp only [phase] at taken
          cases taken
          simp [work, phase, ControlPc.work]
      | cons index rest =>
          simp only [phase] at taken
          split at taken
          · cases taken
            simp [work, phase, ControlPc.work]
          · cases taken

/-- The accept thread does not renew its operation once `running_` is false. -/
theorem work_thread (off : server.running = false) (taken : server.threadStep = some next) :
    next.work < server.work := by
  unfold threadStep at taken
  split at taken
  all_goals
    rename_i pc
    try cases taken
  · split at taken
    all_goals cases taken
    simp only [work, pc, AcceptPc.work]
    omega
  · split at taken
    all_goals
      cases taken
      simp only [work, pc, AcceptPc.work]
      omega
  · simp only [work, pc, AcceptPc.work]
    omega
  · simp only [work, pc, AcceptPc.work, List.map_append, List.sum_append, List.map_cons,
      List.map_nil, List.sum_cons, List.sum_nil, HandlerPc.work]
    omega
  · simp only [work, pc, AcceptPc.work, List.length_append, List.length_singleton]
    omega
  · simp only [off, Bool.false_eq_true, if_false] at taken
    cases taken
    simp only [work, pc, AcceptPc.work]
    omega

theorem work_complete {failed : Bool} (taken : server.complete failed = some next) :
    next.work < server.work := by
  unfold complete at taken
  split at taken
  · rename_i ready
    cases taken
    obtain ⟨waiting, -, pending⟩ := ready
    cases failed
    all_goals
      simp only [work, waiting, AcceptPc.work, Bool.false_eq_true, if_false, if_true]
      omega
  · cases taken

theorem work_set {index active : ℕ} {before after : HandlerPc}
    (found : server.handlers[index]? = some before) (less : after.work < before.work) :
    ({ server with
        handlers := server.handlers.set index after
        activeConnections := active } : Server).work < server.work := by
  have sum := Roster.sum_map_set HandlerPc.work found after
  simp only [work]
  omega

theorem work_client {index : ℕ} {failed : Bool} (taken : server.client index failed = some next) :
    next.work < server.work := by
  unfold client at taken
  split at taken
  · rename_i found
    cases taken
    cases failed
    all_goals exact work_set found (by decide)
  · rename_i found
    cases taken
    exact work_set found (by decide)
  · cases taken

theorem work_handler {index : ℕ} (taken : server.handlerStep index = some next) :
    next.work < server.work := by
  unfold handlerStep at taken
  split at taken
  · rename_i found
    cases taken
    exact work_set found (by decide)
  · cases taken

theorem work_step {action : Action} (sound : server.Sound) (stopping : server.control ≠ .ready)
    (taken : server.step action = some next) : next.work < server.work := by
  cases action with
  | start outcome =>
      simp only [step, if_neg stopping] at taken
      cases taken
  | stop =>
      simp only [step, if_neg stopping] at taken
      cases taken
  | control => exact work_control taken
  | complete failed => exact work_complete taken
  | thread => exact work_thread (sound.notRunning stopping) taken
  | client index failed => exact work_client taken
  | handler index => exact work_handler taken

/-- The accept thread of a stopped context can go on until it has ended. -/
theorem threadStep_isSome (stopped : server.stopped = true) (absent : server.thread ≠ .absent)
    (exited : server.thread ≠ .exited) : server.threadStep.isSome = true := by
  unfold threadStep
  cases pc : server.thread with
  | absent => exact absurd pc absent
  | exited => exact absurd pc exited
  | waiting => simp [stopped]
  | accepted => simp only [apply_ite, Option.isSome_some, ite_self]
  | checked => rfl
  | reserved => rfl
  | spawned index => rfl
  | continuing => simp only [apply_ite, Option.isSome_some, ite_self]

/-- The thread is blocked in `http::read` or `http::write`. -/
def AwaitsClient (server : Server) (index : ℕ) : Prop :=
  server.handlers[index]? = some .reading ∨ server.handlers[index]? = some .writing

/-- Nobody but its client moves a thread that waits for it, nor the `stop` that joins it. -/
theorem AwaitsClient.unmoved {index : ℕ} {rest : List ℕ} {action : Action}
    (awaits : server.AwaitsClient index) (joins : server.control = .joining (index :: rest))
    (other : ∀ failed, action ≠ .client index failed) (taken : server.step action = some next) :
    next.control = server.control ∧ next.handlers[index]? = server.handlers[index]? := by
  have within : index < server.handlers.length := by
    rcases awaits with found | found <;> exact (List.getElem?_eq_some_iff.mp found).1
  cases action with
  | start outcome => simp [Server.step, joins] at taken
  | stop => simp [Server.step, joins] at taken
  | control =>
      rcases awaits with found | found <;>
        simp [Server.step, controlStep, joins, found] at taken
  | complete failed =>
      simp only [Server.step, complete] at taken
      split at taken
      · cases taken
        exact ⟨rfl, rfl⟩
      · cases taken
  | thread =>
      simp only [Server.step, threadStep] at taken
      repeat' split at taken
      all_goals cases taken
      all_goals refine ⟨rfl, ?_⟩
      all_goals first | rfl | exact List.getElem?_append_left within
  | client moved failed =>
      have different : moved ≠ index := fun same => other failed (same ▸ rfl)
      simp only [Server.step, client] at taken
      split at taken
      all_goals cases taken
      all_goals exact ⟨rfl, List.getElem?_set_ne different⟩
  | handler moved =>
      simp only [Server.step, handlerStep] at taken
      split at taken
      · rename_i served
        have different : moved ≠ index := by
          rintro rfl
          rcases awaits with found | found <;> simp [found] at served
        cases taken
        exact ⟨rfl, List.getElem?_set_ne different⟩
      · cases taken

/-- While `stop` is in progress, it can go on, or the thread it waits for can, or that
thread waits for its client. -/
theorem Sound.enabled (sound : server.Sound) (stopping : server.control ≠ .ready) :
    server.controlStep.isSome ∨
    (server.control = .joiningThread ∧ server.threadStep.isSome) ∨
    ∃ index rest, server.control = .joining (index :: rest) ∧
      ((server.handlerStep index).isSome ∨ server.AwaitsClient index) := by
  cases phase : server.control with
  | ready => exact absurd phase stopping
  | closing | stopping | swapping => exact .inl (by simp [controlStep, phase])
  | joiningThread =>
      by_cases absent : server.thread = .absent
      · exact .inl (by simp [controlStep, phase, absent])
      · by_cases exited : server.thread = .exited
        · exact .inl (by simp [controlStep, phase, exited])
        · exact .inr (.inl ⟨rfl, threadStep_isSome (sound.halted phase) absent exited⟩)
  | joining rest =>
      cases rest with
      | nil => exact .inl (by simp [controlStep, phase])
      | cons index rest =>
          have within : index < server.handlers.length :=
            sound.owned.2 index (by simp [phase, ControlPc.toJoin])
          have found := List.getElem?_eq_getElem within
          cases pc : server.handlers[index] with
          | finished => exact .inl (by simp [controlStep, phase, found, pc])
          | served =>
              exact .inr (.inr ⟨index, rest, rfl, .inl (by simp [handlerStep, found, pc])⟩)
          | reading => exact .inr (.inr ⟨index, rest, rfl, .inr (.inl (pc ▸ found))⟩)
          | writing => exact .inr (.inr ⟨index, rest, rfl, .inr (.inr (pc ▸ found))⟩)

/-- A call of `stop` can go on, or the thread it joins can, or it joins a connection's thread
that waits for its client, and then nobody else lets either of them go on.  The steps of all
threads and clients during the call are bounded when it begins: whatever the interleaving,
the steps taken and the work still left are at most the work at the beginning. -/
theorem stop_returns (reaches : Reaches step Unrestricted new server)
    (stopping : server.control ≠ .ready) :
    (server.controlStep.isSome ∨
      (server.control = .joiningThread ∧ server.threadStep.isSome) ∨
      ∃ index rest, server.control = .joining (index :: rest) ∧
        ((server.handlerStep index).isSome ∨
          server.AwaitsClient index ∧
            ∀ action next, server.step action = some next →
              (∀ failed, action ≠ .client index failed) →
              next.control = server.control ∧
                next.handlers[index]? = server.handlers[index]?)) ∧
      ∀ actions last, guardedRun step Stopping server actions = some last →
        actions.length + last.work ≤ server.work := by
  constructor
  · refine ((reaches_sound reaches).enabled stopping).imp_right (.imp_right ?_)
    rintro ⟨index, rest, joins, goes⟩
    refine ⟨index, rest, joins, goes.imp_right fun awaits => ⟨awaits, ?_⟩⟩
    exact fun action next taken other => awaits.unmoved joins other taken
  · intro actions
    clear stopping
    induction actions generalizing server with
    | nil =>
        intro last executes
        cases executes
        exact (Nat.zero_add _).le
    | cons action rest ih =>
        intro last executes
        unfold guardedRun at executes
        split at executes
        · rename_i stopping
          obtain ⟨next, taken, remaining⟩ := Option.bind_eq_some_iff.mp executes
          have less := work_step (reaches_sound reaches) stopping taken
          have bounded := ih (reaches.tail trivial taken) last remaining
          simp only [List.length_cons]
          omega
        · cases executes

/-- `stop` joins the first of two connections, whose client has not taken its response. -/
theorem stop_returns_lateConnection :
    ∃ server, Reaches step Unrestricted new server ∧
      server.control = .joining [0, 1] ∧ server.handlers = [.writing, .reading] ∧
      (∀ next, server.step (.client 1 true) = some next → next.control = .joining [0, 1]) ∧
      ∀ actions last, guardedRun step Stopping server actions = some last →
        actions.length ≤ 8 := by
  have figures : (run step new (lateConnection.take 20)).map
      (fun server => (server.control, server.handlers, server.work)) =
        some (.joining [0, 1], [.writing, .reading], 8) := by
    decide +kernel
  obtain ⟨server, executes, figuresEq⟩ := Option.map_eq_some_iff.mp figures
  simp only [Prod.mk.injEq] at figuresEq
  obtain ⟨phase, threads, eight⟩ := figuresEq
  have reaches := reaches_of_run executes
  have stopping : server.control ≠ .ready := by simp [phase]
  obtain ⟨goes, bounded⟩ := stop_returns reaches stopping
  refine ⟨server, reaches, phase, threads, fun next taken => ?_, fun actions last executes => ?_⟩
  · rcases goes with goes | ⟨joins, -⟩ | ⟨index, rest, joins, goes | ⟨-, unmoved⟩⟩
    · simp [controlStep, phase, threads] at goes
    · simp [phase] at joins
    · simp only [phase, ControlPc.joining.injEq, List.cons.injEq] at joins
      simp [handlerStep, threads, ← joins.1] at goes
    · simp only [phase, ControlPc.joining.injEq, List.cons.injEq] at joins
      rw [(unmoved _ next taken (by simp [← joins.1])).1, phase]
  · have most := bounded actions last executes
    omega

end Server

end Cppload.Prometheus
