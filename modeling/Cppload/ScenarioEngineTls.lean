import Cppload.ScenarioEngineMoves
import Cppload.UrlSchemes

/-!
# TLS and the base URL

Every request of a run is addressed by `resolve_url` from the one base URL.  A worker looks
at that URL only when it opens its client and when it makes a request, so that a run up to
its first request is the same for every base URL.
-/

namespace Cppload.Engine

open Transition

/-- What `parse_url` fills in. -/
def UrlParts.ofUrl (url : Text) : UrlParts where
  host := String.ofList (Url.parseUrl url).host
  port := String.ofList (Url.parseUrl url).port
  tls := (Url.parseUrl url).tls

/-- A plan for the base URL. -/
structure Plan.Targets (plan : Plan) (url : Text) : Prop where
  baseUrl : plan.baseUrl = .ofUrl url
  stoul : plan.stoul = fun text => Text.stoul text.toList

/-- What `resolve_url` finds for a step. -/
def Plan.resolved (plan : Plan) (stepTls : Bool) : Resolved :=
  resolveUrl plan.stoul plan.baseUrl stepTls

/-- The request is addressed by `resolve_url`. -/
def Plan.Addresses (plan : Plan) (request : Http11.Request) : Prop :=
  ∃ stepTls, request.host = (plan.resolved stepTls).host ∧
    request.port = (plan.resolved stepTls).port ∧
    request.useTls = (plan.resolved stepTls).useTls

/-! ## Every request is addressed by `resolve_url` -/

namespace Worker

variable {plan : Plan} {system after : System} {choice : Choice} {worker next : Worker}
variable {request : Http11.Request}

theorem choose_addresses (issues : (worker.choose plan system choice).2.pc = .issuing request) :
    plan.Addresses request := by
  unfold choose at issues
  split at issues
  · cases issues
  split at issues
  · cases issues
  · rename_i step _
    cases thrown : choice.throws with
    | some what => simp only [thrown, reduceCtorEq] at issues
    | none =>
        simp only [thrown, WorkerPc.issuing.injEq] at issues
        subst issues
        exact ⟨step.useTls, rfl, rfl, rfl⟩

theorem acquire_not_issuing {attempts : ℕ}
    (moved : worker.acquire plan system attempts = some (after, next)) :
    next.pc ≠ .issuing request := by
  obtain ⟨pool, _, result⟩ := Option.map_eq_some_iff.mp moved
  cases answer : (pool.acquire plan.endpoint.host plan.endpoint.port).1 with
  | some client =>
      simp only [answer] at result
      cases result
      exact opened_cases plan (· ≠ .issuing request) (by simp) (by simp)
  | none =>
      simp only [answer] at result
      cases result
      split <;> simp [goto]

theorem takeSlot_not_issuing (system : System) (worker : Worker) :
    (worker.takeSlot system).pc ≠ .issuing request := by
  unfold takeSlot
  split
  · simp [goto]
  split
  · simp
  · dsimp only
    split
    · split <;> simp
    · simp

theorem serve_not_issuing (moved : worker.serve system choice = some (after, next)) :
    next.pc ≠ .issuing request := by
  unfold serve at moved
  split at moved
  · cases moved
    simp [goto]
  · obtain ⟨issued, _, result⟩ := Option.bind_eq_some_iff.mp moved
    split at result <;> cases result
    simp [goto]

theorem handle_not_issuing (system : System) (choice : Choice) (worker : Worker) (index : ℕ) :
    (worker.handle system choice index).2.pc ≠ .issuing request := by
  unfold handle
  split <;> simp [goto]

/-- A worker comes to a request only by the choice of a step. -/
theorem move_addresses (moved : worker.move plan system choice = some (after, next))
    (issues : next.pc = .issuing request) : plan.Addresses request := by
  cases at_ : worker.pc with
  | choosing =>
      simp only [move, at_, Option.some.injEq] at moved
      apply @choose_addresses plan system choice worker
      rw [moved]
      exact issues
  | finished => simp only [move, at_, reduceCtorEq] at moved
  | acquiring attempts =>
      simp only [move, at_] at moved
      exact absurd issues (acquire_not_issuing moved)
  | deadlineTest =>
      simp only [move, at_] at moved
      cases moved
      exact absurd issues (takeSlot_not_issuing system worker)
  | serving =>
      simp only [move, at_] at moved
      exact absurd issues (serve_not_issuing moved)
  | handling index =>
      simp only [move, at_, Option.some.injEq] at moved
      have other := @handle_not_issuing request system choice worker index
      rw [moved] at other
      exact absurd issues other
  | creating =>
      simp only [move, at_] at moved
      cases moved
      simp only [goto] at issues
      split at issues
      · cases issues
      · split at issues
        · exact absurd issues (opened_cases plan (· ≠ .issuing request) (by simp) (by simp))
        · cases issues
  | issuing =>
      simp only [move, at_] at moved
      split at moved <;> cases moved
      · cases issues
      · dsimp only at issues
        split at issues <;> cases issues
  | failing | pacing | resolving | leaving | closing | unwinding | catching =>
      simp only [move, at_] at moved
      cases moved
      cases issues
  | _ =>
      simp only [move, at_] at moved
      cases moved
      simp only [goto] at issues
      split at issues <;> cases issues

/-- A step issues the request the worker has come to, or none. -/
theorem Moves.requests_addressed (moved : Moves plan system choice worker after next)
    (prepared : ∀ request, worker.pc = .issuing request → plan.Addresses request)
    (earlier : ∀ issued ∈ system.requests, plan.Addresses issued.request) :
    ∀ issued ∈ after.requests, plan.Addresses issued.request := by
  intro issued member
  cases moved with
  | issued at_ =>
      rcases List.mem_append.mp member with old | new
      · exact earlier issued old
      · rw [List.mem_singleton.mp new]
        exact prepared _ at_
  | answered at_ found =>
      rcases List.mem_or_eq_of_mem_set member with old | rfl
      · exact earlier issued old
      · have addressed := earlier _ (List.mem_of_getElem? found)
        exact addressed
  | @stored index at_ =>
      obtain ⟨position, located⟩ := List.mem_iff_getElem?.mp member
      rw [List.getElem?_modify] at located
      obtain ⟨old, found, rfl⟩ := Option.map_eq_some_iff.mp located
      have addressed := earlier old (List.mem_of_getElem? found)
      split <;> exact addressed
  | closed =>
      obtain ⟨pool, closedEq⟩ := closeGuard_eq plan system worker
      rw [closedEq] at member
      exact earlier issued member
  | _ => exact earlier issued member

end Worker

namespace System

variable {plan : Plan} {system after : System}

/-- All requests are addressed by `resolve_url`, those that were made and those that are
about to be. -/
structure Addressed (plan : Plan) (system : System) : Prop where
  requests : ∀ issued ∈ system.requests, plan.Addresses issued.request
  workers : ∀ worker ∈ system.workers, ∀ request, worker.pc = .issuing request →
    plan.Addresses request

theorem initial_addressed (plan : Plan) (outset : Outset) : Addressed plan (initial outset) where
  requests := by simp [initial]
  workers := by simp [initial]

theorem Addressed.mainMoves {main : Main} (addressed : Addressed plan system)
    (moved : MainMoves plan system main after) : Addressed plan after := by
  obtain ⟨requests, workers⟩ := addressed
  cases moved with
  | staged moved =>
      cases moved with
      | spawned =>
          refine ⟨requests, fun worker member request issues => ?_⟩
          rcases List.mem_append.mp member with old | new
          · exact workers worker old request issues
          · rw [List.mem_singleton.mp new, Worker.spawned] at issues
            simp only at issues
            split at issues <;> cases issues
      | _ => exact ⟨requests, workers⟩
  | _ => exact ⟨requests, workers⟩

theorem Addressed.step {action : Action} (addressed : Addressed plan system)
    (taken : system.step plan action = some after) : Addressed plan after := by
  cases action with
  | main => exact addressed.mainMoves (mainStep_moves taken)
  | worker index choice =>
      obtain ⟨worker, found, moved⟩ := Option.bind_eq_some_iff.mp taken
      obtain ⟨⟨behind, next⟩, stepped, rfl⟩ := Option.map_eq_some_iff.mp moved
      have moves := Worker.move_moves stepped
      have prepared := addressed.workers worker (List.mem_of_getElem? found)
      refine ⟨moves.requests_addressed prepared addressed.requests, ?_⟩
      intro other member request issues
      rcases List.mem_or_eq_of_mem_set member with old | rfl
      · rw [moves.framed.workers] at old
        exact addressed.workers other old request issues
      · exact Worker.move_addresses stepped issues
  | stop =>
      cases taken
      exact ⟨addressed.requests, addressed.workers⟩
  | stopIoc =>
      simp only [System.step] at taken
      split at taken <;> cases taken
      exact ⟨addressed.requests, addressed.workers⟩
  | tick now =>
      simp only [System.step] at taken
      split at taken <;> cases taken
      exact ⟨addressed.requests, addressed.workers⟩

theorem reaches_addressed {outset : Outset}
    (reached : Reaches (step plan) Unrestricted (initial outset) system) :
    Addressed plan system :=
  reached.invariant (Addressed plan) (initial_addressed plan outset)
    (fun _ _ _ addressed _ taken => addressed.step taken)

end System

/-! ## A run up to its first request -/

def Plan.redirect (plan : Plan) (baseUrl : UrlParts) (stoul : String → Option ℕ) : Plan :=
  { plan with baseUrl := baseUrl, stoul := stoul }

/-- The points at which a worker looks at the base URL. -/
def WorkerPc.looksAtUrl : WorkerPc → Bool
  | .resolving | .acquiring _ | .choosing | .closing _ | .unwinding _ => true
  | _ => false

theorem Worker.move_redirect {worker : Worker} (away : worker.pc.looksAtUrl = false) (plan : Plan)
    (baseUrl : UrlParts) (stoul : String → Option ℕ) (system : System) (choice : Choice) :
    worker.move (plan.redirect baseUrl stoul) system choice = worker.move plan system choice := by
  cases at_ : worker.pc with
  | resolving | acquiring | choosing | closing | unwinding =>
      rw [at_] at away
      cases away
  | creating =>
      simp only [move, at_]
      rfl
  | _ => simp only [move, at_]

namespace System

/-- The action is no step of a worker that looks at the base URL. -/
def keepsFromUrl (system : System) : Action → Bool
  | .worker index _ => system.workers[index]?.all fun worker => !worker.pc.looksAtUrl
  | _ => true

theorem step_redirect {system : System} {action : Action}
    (away : system.keepsFromUrl action = true) (plan : Plan) (baseUrl : UrlParts)
    (stoul : String → Option ℕ) :
    system.step (plan.redirect baseUrl stoul) action = system.step plan action := by
  cases action with
  | worker index choice =>
      simp only [step]
      cases found : system.workers[index]? with
      | none => rfl
      | some worker =>
          have pc : worker.pc.looksAtUrl = false := by
            simpa [keepsFromUrl, found] using away
          simp only [Option.bind_some, Worker.move_redirect pc]
  | _ => rfl

/-- As long as no worker looks at the base URL, a run is a run for every base URL. -/
theorem reaches_redirect {plan : Plan} {first last : System}
    (reached : Reaches (step plan) (fun state action => state.keepsFromUrl action = true)
      first last) (baseUrl : UrlParts) (stoul : String → Option ℕ) :
    Reaches (step (plan.redirect baseUrl stoul)) Unrestricted first last := by
  induction reached with
  | refl => exact Reaches.refl first
  | tail _ taken induction =>
      obtain ⟨action, away, stepped⟩ := taken
      exact induction.tail trivial ((step_redirect away plan baseUrl stoul).trans stepped)

/-- One stage without a deadline, with clients that are not pooled. -/
def unpooled : Plan :=
  ({ Config.probe [⟨0, 0, 1⟩] with protocol := "ws" } : Config).plan 0 100

theorem exists_choosing :
    ∃ system worker, Reaches (step unpooled)
        (fun state action => state.keepsFromUrl action = true) (initial .new) system ∧
      system.workers = [worker] ∧ worker.pc = .choosing ∧ worker.stepIx = 0 := by
  have evaluated : (guardedRun (step unpooled)
      (fun state action => state.keepsFromUrl action = true) (initial .new)
      (List.replicate 12 .main ++ List.replicate 5 (.worker 0 {}))).map
        (fun system => system.workers.map fun worker => (worker.pc, worker.stepIx)) =
      some [(.choosing, 0)] := by
    decide +kernel
  obtain ⟨system, executes, fields⟩ := Option.map_eq_some_iff.mp evaluated
  obtain ⟨worker, workers, state⟩ := List.map_eq_singleton_iff.mp fields
  obtain ⟨pc, stepIx⟩ := Prod.mk.inj state
  exact ⟨system, worker, reaches_of_guardedRun executes, workers, pc, stepIx⟩

theorem step_worker {plan : Plan} {system after : System} {worker next : Worker} {choice : Choice}
    (alone : system.workers = [worker])
    (moved : worker.move plan system choice = some (after, next)) :
    system.step plan (.worker 0 choice) = some { after with workers := [next] } := by
  have kept := (Worker.move_moves moved).framed.workers
  simp only [step, alone, List.getElem?_cons_zero, Option.bind_some, moved, Option.map_some, kept,
    List.set_cons_zero]

/-- For every base URL there is a run in which a request is made of a step that does not
ask for TLS itself. -/
theorem exists_request (baseUrl : UrlParts) (stoul : String → Option ℕ) :
    ∃ system issued, Reaches (step (unpooled.redirect baseUrl stoul)) Unrestricted
        (initial .new) system ∧
      issued ∈ system.requests ∧
      issued.request.useTls = ((unpooled.redirect baseUrl stoul).resolved false).useTls ∧
      issued.request.port = ((unpooled.redirect baseUrl stoul).resolved false).port := by
  obtain ⟨system, worker, reached, workers, pc, stepIx⟩ := exists_choosing
  generalize planEq : unpooled.redirect baseUrl stoul = plan
  have toChoice : Reaches (step plan) Unrestricted (initial .new) system :=
    planEq ▸ reaches_redirect reached baseUrl stoul
  obtain ⟨request, next, chosen, issuing, useTls, port⟩ : ∃ request next,
      worker.choose plan system {} = (system.noteError (plan.resolved false).error, next) ∧
        next.pc = .issuing request ∧ request.useTls = (plan.resolved false).useTls ∧
        request.port = (plan.resolved false).port := by
    subst planEq
    unfold Worker.choose
    rw [stepIx]
    exact ⟨_, _, rfl, rfl, rfl, rfl⟩
  have moved : worker.move plan system {} =
      some (system.noteError (plan.resolved false).error, next) := by
    simp only [Worker.move, pc, chosen]
  have toRequest := toChoice.tail trivial (step_worker workers moved)
  generalize afterEq : ({ system.noteError (plan.resolved false).error with
    workers := [next] } : System) = after at toRequest
  have alone : after.workers = [next] := by rw [← afterEq]
  have issued : next.move plan after {} = some (next.issue after {} request) := by
    simp only [Worker.move, issuing]
  refine ⟨_, _, toRequest.tail trivial (step_worker alone issued), List.mem_append_right _
    (List.mem_singleton_self _), useTls, port⟩

end System

/-! ## The port -/

/-- The text is read as the number of a port. -/
def ReadsPort (text : Text) (number : ℕ) : Prop :=
  Text.stoul text = some number ∧ number ≠ 0 ∧ number ≤ 65535

theorem resolveUrl_useTls (stoul : String → Option ℕ) (parts : UrlParts) (stepTls : Bool) :
    (resolveUrl stoul parts stepTls).useTls = (parts.tls || stepTls) := by
  unfold resolveUrl
  dsimp only
  split
  · rfl
  · split
    · rfl
    · split <;> rfl

section Port

variable {plan : Plan} {url : Text}

theorem Plan.Targets.useTls (targets : plan.Targets url) (stepTls : Bool) :
    (plan.resolved stepTls).useTls = ((Url.parseUrl url).tls || stepTls) := by
  rw [Plan.resolved, resolveUrl_useTls, targets.baseUrl]
  rfl

theorem Plan.Targets.port_of_reads (targets : plan.Targets url) {number : ℕ}
    (reads : ReadsPort (Url.parseUrl url).port number) (stepTls : Bool) :
    (plan.resolved stepTls).port = number := by
  obtain ⟨read, positive, small⟩ := reads
  have inside : ¬ (number = 0 ∨ 65535 < number) := by omega
  have given : (String.ofList (Url.parseUrl url).port).isEmpty = false := by
    cases empty : (Url.parseUrl url).port with
    | nil =>
        rw [empty] at read
        cases read
    | cons c rest => simp
  simp only [Plan.resolved, resolveUrl, targets.baseUrl, targets.stoul, UrlParts.ofUrl,
    String.toList_ofList, read, given, if_neg inside, Bool.false_eq_true, if_false]

theorem Plan.Targets.port_of_not_reads (targets : plan.Targets url)
    (secure : (Url.parseUrl url).tls = true)
    (unreadable : ∀ number, ¬ ReadsPort (Url.parseUrl url).port number) (stepTls : Bool) :
    (plan.resolved stepTls).port = 443 := by
  simp only [Plan.resolved, resolveUrl, targets.baseUrl, targets.stoul, UrlParts.ofUrl,
    String.toList_ofList, secure, Bool.true_or, if_true]
  split
  · rfl
  · cases read : Text.stoul (Url.parseUrl url).port with
    | none => rfl
    | some number =>
        have outside : number = 0 ∨ 65535 < number := by
          by_contra inside
          exact unreadable number ⟨read, by omega, by omega⟩
        simp only [if_pos outside]

theorem readsPort_default : ReadsPort (Url.defaultPort true) 443 :=
  ⟨by decide +kernel, by decide, by decide⟩

/-- The port of a secure URL is 443, unless another number is taken for it. -/
theorem Plan.Targets.port_eq_iff {scheme behind : Text} (secure : Url.isSecure scheme = true)
    (targets : plan.Targets (scheme ++ ':' :: '/' :: '/' :: behind)) (stepTls : Bool) :
    (plan.resolved stepTls).port = 443 ↔
      ∀ port number, Url.TakenPort (behind.takeWhile (· ≠ '/')) port → ReadsPort port number →
        number = 443 := by
  have parsed := Url.parseUrl_secure secure behind
  have tls : (Url.parseUrl (scheme ++ ':' :: '/' :: '/' :: behind)).tls = true := by
    rw [parsed]
    rfl
  by_cases taken : ∃ port, Url.TakenPort (behind.takeWhile (· ≠ '/')) port
  · obtain ⟨port, taken⟩ := taken
    have found : (Url.parseUrl (scheme ++ ':' :: '/' :: '/' :: behind)).port = port := by
      rw [parsed, Url.partsOf, Url.splitPath_fst]
      exact taken.splitHostPort_eq _
    constructor
    · intro standard other number taken reads
      have same : other = port := by
        rw [← found, parsed, Url.partsOf, Url.splitPath_fst]
        exact (taken.splitHostPort_eq _).symm
      rw [same, ← found] at reads
      rw [← standard, targets.port_of_reads reads]
    · intro only
      by_cases readable : ∃ number, ReadsPort port number
      · obtain ⟨number, reads⟩ := readable
        rw [targets.port_of_reads (found.symm ▸ reads), only port number taken reads]
      · rw [not_exists, ← found] at readable
        exact targets.port_of_not_reads tls readable stepTls
  · rw [not_exists] at taken
    have standard : (Url.parseUrl (scheme ++ ':' :: '/' :: '/' :: behind)).port =
        Url.defaultPort true := by
      rw [parsed, Url.partsOf, Url.splitPath_fst]
      exact Url.splitHostPort_of_not_taken taken _
    refine iff_of_true ?_ fun port number found => absurd found (taken port)
    exact targets.port_of_reads (standard.symm ▸ readsPort_default) stepTls

end Port

namespace System

/-- The requests of every run for the base URL with this scheme use TLS, and the standard
port if the URL gives no port. -/
def KeepsTls (scheme rest : Text) : Prop :=
  ∀ plan : Plan, plan.Targets (scheme ++ ':' :: rest) → ∀ outset system,
    Reaches (step plan) Unrestricted (initial outset) system → ∀ issued ∈ system.requests,
      issued.request.useTls = true ∧ (¬ Url.GivesPort rest → issued.request.port = 443)

/-- A URL whose scheme asks for TLS is not downgraded exactly if the scheme is written in
lower case and followed by two slashes, and no text is taken for another port number than
443 unless the URL gives a port. -/
theorem requests_tls_iff {scheme rest : Text} (asks : Url.AsksTls scheme) :
    KeepsTls scheme rest ↔
      scheme.map Char.toLower = scheme ∧ ∃ behind, rest = "//".toList ++ behind ∧
        (Url.GivesPort rest ∨ ∀ port number,
          Url.TakenPort (behind.takeWhile (· ≠ '/')) port → ReadsPort port number →
            number = 443) := by
  have noColon := asks.notMem_colon
  constructor
  · intro keeps
    obtain ⟨system, issued, reached, member, useTls, port⟩ :=
      exists_request (.ofUrl (scheme ++ ':' :: rest)) fun text => Text.stoul text.toList
    have targets : (unpooled.redirect (.ofUrl (scheme ++ ':' :: rest))
        fun text => Text.stoul text.toList).Targets (scheme ++ ':' :: rest) := ⟨rfl, rfl⟩
    obtain ⟨tls, standard⟩ := keeps _ targets _ system reached issued member
    rw [useTls, targets.useTls, Bool.or_false, Url.parseUrl_tls_iff noColon] at tls
    obtain ⟨secure, behind, rfl⟩ := tls
    refine ⟨asks.isSecure_iff.mp secure, behind, rfl, ?_⟩
    by_cases given : Url.GivesPort ("//".toList ++ behind)
    · exact Or.inl given
    · right
      rw [port] at standard
      exact (targets.port_eq_iff secure false).mp (standard given)
  · rintro ⟨lower, behind, rfl, ports⟩ plan targets outset system reached issued member
    have secure := asks.isSecure_iff.mpr lower
    obtain ⟨stepTls, -, port, useTls⟩ := (reaches_addressed reached).requests issued member
    constructor
    · have tls := (Url.parseUrl_tls_iff noColon).mpr ⟨secure, ⟨behind, rfl⟩⟩
      rw [useTls, targets.useTls, tls, Bool.true_or]
    · intro noPort
      rw [port]
      exact (targets.port_eq_iff secure stepTls).mpr (ports.resolve_left noPort)

/-- A lower-case URL without a colon behind its scheme. -/
theorem requests_tls_lower : KeepsTls "wss".toList "//host/feed?at=12:30".toList := by
  have asks : Url.AsksTls "wss".toList := by
    unfold Url.AsksTls
    decide +kernel
  refine (requests_tls_iff asks).mpr ⟨by decide, "host/feed?at=12:30".toList, rfl, Or.inr ?_⟩
  intro port number taken
  have noColon : ':' ∉ "host/feed?at=12:30".toList.takeWhile (· ≠ '/') := by decide
  refine absurd ?_ noColon
  generalize "host/feed?at=12:30".toList.takeWhile (· ≠ '/') = hostPort at taken
  cases taken <;> simp

/-- An upper-case scheme is sent in clear to port 80, and a colon in a query is taken for
that of a port. -/
theorem requests_tls_upper :
    ¬ KeepsTls "HTTPS".toList "//host".toList ∧
      ¬ KeepsTls "https".toList "//host?at=12:30".toList := by
  constructor
  · intro keeps
    obtain ⟨system, issued, reached, member, useTls, -⟩ :=
      exists_request (.ofUrl "HTTPS://host".toList) fun text => Text.stoul text.toList
    have tls := (keeps _ ⟨rfl, rfl⟩ _ system reached issued member).1
    rw [useTls] at tls
    revert tls
    decide +kernel
  · intro keeps
    obtain ⟨system, issued, reached, member, -, port⟩ :=
      exists_request (.ofUrl "https://host?at=12:30".toList) fun text => Text.stoul text.toList
    have standard := (keeps _ ⟨rfl, rfl⟩ _ system reached issued member).2
    rw [port] at standard
    have noPort : ¬ Url.GivesPort "//host?at=12:30".toList := by
      rintro ⟨behind, user, host, number, split, authority, -⟩
      have whole : "//host?at=12:30".toList = "//".toList ++ "host?at=12:30".toList := rfl
      obtain rfl : "host?at=12:30".toList = behind :=
        List.append_cancel_left (whole.symm.trans split)
      have noColon : ':' ∉ Url.authorityOf "host?at=12:30".toList := by decide
      rw [authority] at noColon
      exact noColon (by simp)
    have other := standard noPort
    revert other
    decide +kernel

end System

end Cppload.Engine
