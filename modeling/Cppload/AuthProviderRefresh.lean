import Cppload.TransitionSystem
import Cppload.Roster
import Cppload.AuthProvider

/-!
# Workers that share an authentication provider

A worker of the engine prepares each request by `is_expired`, then `refresh_token`
if the answer was yes, then `apply_headers`.  Each of the three is one critical
section.  The second one does not look at the expiry again, so a worker that was
told that the token has expired asks for a new one even if another worker has got
one in the meantime; and that is the only way in which a token that is still valid
is replaced.
-/

namespace Cppload.Security

open Transition

/-- Where a worker is: between requests, told that the token has expired, or about
to call `apply_headers`. -/
inductive WorkerPc where
  | idle
  | expired
  | checked
  deriving DecidableEq, Repr

/-- A token request: when it was sent, and the expiry it led to if it succeeded. -/
structure Post where
  sent : ℤ
  expiry : Option ℤ
  deriving DecidableEq, Repr

/-- The clock readings of a critical section that may send a token request: at its
beginning, when the request is sent, and at its end. -/
structure Readings where
  now : ℤ
  sent : ℤ
  done : ℤ
  deriving DecidableEq, Repr

/-- The provider, the workers, and all token requests so far. -/
structure System where
  provider : AuthProvider
  clock : ℤ
  workers : List WorkerPc
  posts : List Post

inductive Action where
  | join
  | isExpired (index : ℕ) (now : ℤ)
  | refreshToken (index : ℕ) (readings : Readings) (reply : TokenReply)
  | applyHeaders (index : ℕ) (readings : Readings) (headers : Table String String)
      (reply : TokenReply)

/-- The record of a token request with the given result. -/
def Post.of (sent : ℤ) (result : Except TokenError Unit × AuthProvider) : Post where
  sent := sent
  expiry := if result.1.isOk then some result.2.tokenExpiry else none

namespace System

variable (parse : String → Option Json)

/-- The readings follow the clock and each other. -/
def InOrder (system : System) (readings : Readings) : Prop :=
  system.clock ≤ readings.now ∧ readings.now ≤ readings.sent ∧ readings.sent ≤ readings.done

instance (system : System) (readings : Readings) : Decidable (system.InOrder readings) :=
  inferInstanceAs (Decidable (_ ∧ _ ∧ _))

theorem InOrder.clock_le_done {system : System} {readings : Readings}
    (inOrder : system.InOrder readings) : system.clock ≤ readings.done :=
  inOrder.1.trans (inOrder.2.1.trans inOrder.2.2)

/-- The worker `index` moves on to `pc` at the time `now`. -/
def moved (system : System) (index : ℕ) (pc : WorkerPc) (now : ℤ) : System :=
  { system with workers := system.workers.set index pc, clock := now }

/-- The provider after a token request, which is put on record. -/
def posted (system : System) (sent : ℤ) (result : Except TokenError Unit × AuthProvider) :
    System :=
  { system with provider := result.2, posts := system.posts ++ [.of sent result] }

/-- The system right after the constructor of an OAuth2 provider. -/
def create (config : AuthConfig) (readings : Readings) (reply : TokenReply) :
    Option System :=
  if readings.now ≤ readings.sent ∧ readings.sent ≤ readings.done then
    match AuthProvider.create parse config reply readings.done with
    | .error _ => none
    | .ok provider =>
        some {
          provider := provider
          clock := readings.done
          workers := []
          posts :=
            if AuthProvider.fetchesAtStart config then
              [⟨readings.sent, some provider.tokenExpiry⟩]
            else [] }
  else none

def step (system : System) : Action → Option System
  | .join => some { system with workers := system.workers ++ [.idle] }
  | .isExpired index now =>
      if system.workers[index]? = some .idle ∧ system.clock ≤ now then
        some (system.moved index
          (if system.provider.isExpired now then .expired else .checked) now)
      else none
  | .refreshToken index readings reply =>
      if system.workers[index]? = some .expired ∧ system.InOrder readings then
        if system.provider.config.type = .oauth2 then
          some ((system.moved index .checked readings.done).posted readings.sent
            (system.provider.refreshToken parse reply readings.done))
        else some (system.moved index .checked readings.done)
      else none
  | .applyHeaders index readings headers reply =>
      if system.workers[index]? = some .checked ∧ system.InOrder readings then
        let after := (system.provider.applyHeaders parse headers reply readings.now
          readings.done).2
        if system.provider.config.type = .oauth2 ∧
            system.provider.tokenExpiry ≤ readings.now then
          some ((system.moved index .idle readings.done).posted readings.sent
            ((system.provider.fetchTokenLocked parse reply readings.done).1, after))
        else some { system.moved index .idle readings.done with provider := after }
      else none

/-- No token request succeeds while another worker is between its `is_expired` that
returned true and its `refresh_token`. -/
def Undisturbed (system : System) : Action → Prop
  | .refreshToken index readings reply =>
      (system.provider.fetchTokenLocked parse reply readings.done).1.isOk = true →
        ∀ other < system.workers.length, other ≠ index →
          system.workers[other]? ≠ some .expired
  | .applyHeaders index readings _ reply =>
      system.provider.isExpired readings.now = true →
        (system.provider.fetchTokenLocked parse reply readings.done).1.isOk = true →
          ∀ other < system.workers.length, other ≠ index →
            system.workers[other]? ≠ some .expired
  | _ => True

/-- Every token request was sent after the expiry of all tokens got before, and a
worker that was told so is right that the token has expired. -/
structure SingleFlight (system : System) : Prop where
  ordered : system.posts.Pairwise fun earlier later =>
    ∀ expiry ∈ earlier.expiry, expiry ≤ later.sent
  bounded : ∀ post ∈ system.posts, ∀ expiry ∈ post.expiry,
    expiry ≤ system.provider.tokenExpiry
  stale : ∀ index : ℕ, system.workers[index]? = some .expired →
    system.provider.tokenExpiry ≤ system.clock

end System

namespace AuthProvider

variable {provider : AuthProvider} {parse : String → Option Json}
  {headers : Table String String} {reply : TokenReply} {now done : ℤ}

theorem applyHeaders_of_expired (oauth2 : provider.config.type = .oauth2)
    (expired : provider.tokenExpiry ≤ now) :
    (provider.applyHeaders parse headers reply now done).2 =
      (provider.fetchTokenLocked parse reply done).2 := by
  simp only [applyHeaders, oauth2, getToken, expired, if_true]
  split <;> rfl

theorem applyHeaders_of_valid
    (valid : ¬(provider.config.type = .oauth2 ∧ provider.tokenExpiry ≤ now)) :
    (provider.applyHeaders parse headers reply now done).2 = provider := by
  unfold applyHeaders
  split
  · rfl
  · rfl
  · rename_i oauth2
    have notExpired : ¬ provider.tokenExpiry ≤ now := fun expired => valid ⟨oauth2, expired⟩
    simp only [getToken, notExpired, if_false]
    split <;> rfl
  · rfl
  · rfl

end AuthProvider

namespace System.SingleFlight

variable {parse : String → Option Json} {system : System}

theorem create {config : AuthConfig} {readings : Readings} {reply : TokenReply}
    (created : System.create parse config readings reply = some system) :
    system.SingleFlight := by
  unfold System.create at created
  split at created
  · split at created
    · cases created
    · cases created
      refine ⟨?_, ?_, by simp⟩
      · dsimp only
        split <;> simp
      · dsimp only
        split <;> simp
  · cases created

theorem join (flight : system.SingleFlight) :
    SingleFlight { system with workers := system.workers ++ [.idle] } where
  ordered := flight.ordered
  bounded := flight.bounded
  stale := by
    intro index found
    rcases Roster.getElem?_concat_cases found with old | ⟨-, new⟩
    · exact flight.stale index old
    · cases new

/-- A worker moves on and sends nothing.  If it is now told that the token has
expired, then that is so. -/
theorem moved (flight : system.SingleFlight) (index : ℕ) {pc : WorkerPc} {now : ℤ}
    (later : system.clock ≤ now)
    (told : pc = .expired → system.provider.tokenExpiry ≤ now) :
    (system.moved index pc now).SingleFlight where
  ordered := flight.ordered
  bounded := flight.bounded
  stale := by
    intro other found
    rcases Roster.getElem?_set_cases found with ⟨-, same⟩ | ⟨-, old⟩
    · exact told same.symm
    · exact (flight.stale other old).trans later

theorem ordered_concat (flight : system.SingleFlight) {sent : ℤ}
    (due : system.provider.tokenExpiry ≤ sent) (result : Except TokenError Unit × AuthProvider) :
    (system.posts ++ [Post.of sent result]).Pairwise
      fun earlier later => ∀ expiry ∈ earlier.expiry, expiry ≤ later.sent := by
  refine List.pairwise_append.mpr ⟨flight.ordered, List.pairwise_singleton _ _, ?_⟩
  intro post member last isLast expiry expires
  rw [List.mem_singleton.mp isLast]
  exact (flight.bounded post member expiry expires).trans due

theorem bounded_concat (flight : system.SingleFlight) {sent done : ℤ}
    {result : Except TokenError Unit × AuthProvider}
    (fetched : system.provider.Fetched done result)
    (due : system.provider.tokenExpiry ≤ done) :
    ∀ post ∈ system.posts ++ [Post.of sent result], ∀ expiry ∈ post.expiry,
      expiry ≤ result.2.tokenExpiry := by
  intro post member expiry expires
  rcases List.mem_append.mp member with old | new
  · have bounded := flight.bounded post old expiry expires
    cases outcome : result.1.isOk with
    | true =>
        have valid := fetched.lt_tokenExpiry outcome
        omega
    | false => exact bounded.trans (fetched.tokenExpiry_of_error outcome).ge
  · rw [List.mem_singleton.mp new] at expires
    cases outcome : result.1.isOk with
    | true =>
        simp only [Post.of, outcome, if_true, Option.mem_def, Option.some.injEq] at expires
        exact expires.ge
    | false => simp [Post.of, outcome] at expires

/-- A worker sends a token request after the token has expired.  Only if it fails may
another worker still be told that the token has expired. -/
theorem posted (flight : system.SingleFlight) (index : ℕ) {pc : WorkerPc}
    {readings : Readings} {result : Except TokenError Unit × AuthProvider}
    (fetched : system.provider.Fetched readings.done result) (inOrder : system.InOrder readings)
    (due : system.provider.tokenExpiry ≤ readings.sent) (told : pc ≠ .expired)
    (undisturbed : result.1.isOk = true → ∀ other < system.workers.length, other ≠ index →
      system.workers[other]? ≠ some .expired) :
    ((system.moved index pc readings.done).posted readings.sent result).SingleFlight := by
  obtain ⟨later, sentLater, doneLater⟩ := inOrder
  refine ⟨flight.ordered_concat due result,
    flight.bounded_concat fetched (due.trans doneLater), ?_⟩
  intro other found
  rcases Roster.getElem?_set_cases found with ⟨-, same⟩ | ⟨distinct, old⟩
  · exact absurd same.symm told
  · cases outcome : result.1.isOk with
    | true =>
        exact absurd old
          (undisturbed outcome other (List.getElem?_eq_some_iff.mp old).1 distinct)
    | false =>
        -- The expiry is still the one that this worker was told about.
        have same := fetched.tokenExpiry_of_error outcome
        have stale := flight.stale other old
        dsimp only [System.posted, System.moved]
        omega

theorem step {action : Action} {next : System} (flight : system.SingleFlight)
    (undisturbed : system.Undisturbed parse action)
    (taken : system.step parse action = some next) : next.SingleFlight := by
  cases action with
  | join =>
      cases taken
      exact flight.join
  | isExpired index now =>
      simp only [System.step] at taken
      split at taken
      · rename_i enabled
        cases taken
        apply flight.moved index enabled.2
        intro told
        by_contra valid
        simp [AuthProvider.isExpired, valid] at told
      · cases taken
  | refreshToken index readings reply =>
      simp only [System.step] at taken
      split at taken
      · rename_i enabled
        obtain ⟨told, inOrder⟩ := enabled
        split at taken
        · rename_i oauth2
          cases taken
          simp only [AuthProvider.refreshToken, oauth2, if_true]
          have due : system.provider.tokenExpiry ≤ readings.sent :=
            (flight.stale index told).trans (inOrder.1.trans inOrder.2.1)
          exact flight.posted index (AuthProvider.fetchTokenLocked_fetched _ _ _ _) inOrder due
            (by decide) undisturbed
        · cases taken
          exact flight.moved index inOrder.clock_le_done (by simp)
      · cases taken
  | applyHeaders index readings headers reply =>
      simp only [System.step] at taken
      split at taken
      · rename_i enabled
        obtain ⟨-, inOrder⟩ := enabled
        split at taken
        · rename_i expired
          cases taken
          rw [AuthProvider.applyHeaders_of_expired expired.1 expired.2]
          have told : system.provider.isExpired readings.now = true := by
            simp [AuthProvider.isExpired, expired]
          exact flight.posted index (AuthProvider.fetchTokenLocked_fetched _ _ _ _) inOrder
            (expired.2.trans inOrder.2.1) (by decide) (undisturbed told)
        · rename_i valid
          cases taken
          rw [AuthProvider.applyHeaders_of_valid valid]
          exact flight.moved index inOrder.clock_le_done (by simp)
      · cases taken

end System.SingleFlight

/-- When no token request succeeds while another worker is between its `is_expired`
that returned true and its `refresh_token`, every token request is sent at or after
the expiry of every token that was got before. -/
theorem System.reachable_single_flight (parse : String → Option Json) {config : AuthConfig}
    {readings : Readings} {reply : TokenReply} {first system : System}
    (created : System.create parse config readings reply = some first)
    (reachable : Reaches (System.step parse) (System.Undisturbed parse) first system) :
    system.posts.Pairwise fun earlier later =>
      ∀ expiry ∈ earlier.expiry, expiry ≤ later.sent := by
  have flight : system.SingleFlight := reachable.invariant SingleFlight (.create created)
    fun _ _ _ flight undisturbed taken => flight.step undisturbed taken
  exact flight.ordered

namespace System

instance (parse : String → Option Json) (system : System) :
    (action : Action) → Decidable (system.Undisturbed parse action)
  | .refreshToken index readings reply =>
      inferInstanceAs (Decidable (
        (system.provider.fetchTokenLocked parse reply readings.done).1.isOk = true →
          ∀ other < system.workers.length, other ≠ index →
            system.workers[other]? ≠ some .expired))
  | .applyHeaders index readings _ reply =>
      inferInstanceAs (Decidable (system.provider.isExpired readings.now = true →
        (system.provider.fetchTokenLocked parse reply readings.done).1.isOk = true →
          ∀ other < system.workers.length, other ≠ index →
            system.workers[other]? ≠ some .expired))
  | .join | .isExpired _ _ => .isTrue trivial

/-- A token of unspecified duration. -/
def tokenBody : String :=
  "\x7b\"access_token\":\"secret\"\x7d"

def parseToken (text : String) : Option Json :=
  if text = tokenBody then some (.object [("access_token", .string "secret")]) else none

/-- The seconds after the start, three times. -/
def readAt (seconds : ℤ) : Readings :=
  ⟨seconds * 1000000000, seconds * 1000000000, seconds * 1000000000⟩

def oauth2Config : AuthConfig where
  type := .oauth2
  clientId := "id"
  clientSecret := "key"
  tokenEndpoint := "auth:8080/token"

/-- The endpoint answers with a token. -/
def granted : TokenReply :=
  .ok ⟨200, tokenBody⟩

/-- One worker finds the token expired and gets a new one, then the other checks. -/
theorem reachable_single_flight_in_turn :
    ∃ first system : System,
      System.create parseToken oauth2Config (readAt 0) granted = some first ∧
      Reaches (System.step parseToken) (System.Undisturbed parseToken) first system ∧
      system.posts.map Post.sent = [0, 4000000000000] ∧
      system.posts.Pairwise fun earlier later =>
        ∀ expiry ∈ earlier.expiry, expiry ≤ later.sent := by
  have evaluated :
      ((System.create parseToken oauth2Config (readAt 0) granted).bind fun first =>
        (guardedRun (System.step parseToken) (System.Undisturbed parseToken) first
          [.join, .join, .isExpired 0 4000000000000,
            .refreshToken 0 (readAt 4000) granted, .isExpired 1 4001000000000,
            .applyHeaders 0 (readAt 4002) ∅ granted,
            .applyHeaders 1 (readAt 4003) ∅ granted]).map
          fun system => system.posts.map Post.sent) = some [0, 4000000000000] := by
    decide +kernel
  obtain ⟨first, created, rest⟩ := Option.bind_eq_some_iff.mp evaluated
  obtain ⟨system, executes, sent⟩ := Option.map_eq_some_iff.mp rest
  have reaches := reaches_of_guardedRun executes
  exact ⟨first, system, created, reaches, sent,
    reachable_single_flight parseToken created reaches⟩

/-- Both workers are told that the token has expired; the second one replaces the
token that the first one has just got. -/
theorem token_requested_twice :
    ∃ first system : System,
      System.create parseToken oauth2Config (readAt 0) granted = some first ∧
      Reaches (System.step parseToken) Unrestricted first system ∧
      system.posts = [⟨0, some 3540000000000⟩, ⟨4000000000000, some 7540000000000⟩,
        ⟨4001000000000, some 7541000000000⟩] := by
  have evaluated :
      ((System.create parseToken oauth2Config (readAt 0) granted).bind fun first =>
        (run (System.step parseToken) first
          [.join, .join, .isExpired 0 4000000000000, .isExpired 1 4000000000000,
            .refreshToken 0 (readAt 4000) granted,
            .refreshToken 1 (readAt 4001) granted]).map System.posts) =
      some [⟨0, some 3540000000000⟩, ⟨4000000000000, some 7540000000000⟩,
        ⟨4001000000000, some 7541000000000⟩] := by
    decide +kernel
  obtain ⟨first, created, rest⟩ := Option.bind_eq_some_iff.mp evaluated
  obtain ⟨system, executes, posts⟩ := Option.map_eq_some_iff.mp rest
  exact ⟨first, system, created, reaches_of_run executes, posts⟩

end System

end Cppload.Security
