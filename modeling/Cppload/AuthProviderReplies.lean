import Cppload.AuthProvider

/-!
# What the provider makes of a token reply

`fetch_token_locked` assigns the token before it reads `expires_in`, and reads `expires_in`
as an `int`.  A reply with a token and an unreadable `expires_in` therefore leaves a new
token with the old expiry, and a lifetime that is not an `int` is taken modulo `2 ^ 32`.
-/

namespace Cppload.Security.AuthProvider

variable {provider : AuthProvider} {parse : String → Option Json} {reply : TokenReply}
variable {fields : List (String × Json)} {token : String} {now : ℤ}

/-- The endpoint accepts the request, and the body is an object that names a token. -/
def NamesToken (parse : String → Option Json) (reply : TokenReply)
    (fields : List (String × Json)) (token : String) : Prop :=
  ∃ response, reply = .ok response ∧ 200 ≤ response.status ∧ response.status < 300 ∧
    parse response.body = some (.object fields) ∧
    fields.lookup "access_token" = some (.string token) ∧ token ≠ ""

/-- The lifetime is there, but it is no number. -/
def UnreadableLifetime (fields : List (String × Json)) : Prop :=
  ∃ value, fields.lookup "expires_in" = some value ∧ (∀ number, value ≠ .number number) ∧
    ∀ flag, value ≠ .bool flag

theorem expiresIn_cases (fields : List (String × Json)) :
    (UnreadableLifetime fields ∧ expiresIn (.object fields) = .error .typeError) ∨
      ¬ UnreadableLifetime fields ∧ ∃ seconds, expiresIn (.object fields) = .ok seconds := by
  unfold UnreadableLifetime expiresIn
  cases found : fields.lookup "expires_in" with
  | none => simp [found]
  | some value => cases value <;> simp [found]

theorem NamesToken.fetch_of_error (names : NamesToken parse reply fields token)
    {error : JsonError} (failed : expiresIn (.object fields) = .error error)
    (provider : AuthProvider) (now : ℤ) :
    provider.fetchTokenLocked parse reply now =
      (.error .authParseError, { provider with currentToken := token }) := by
  obtain ⟨response, rfl, low, high, parsed, named, nonempty⟩ := names
  have accepted : ¬ (response.status < 200 ∨ 300 ≤ response.status) := by omega
  simp only [fetchTokenLocked, if_neg accepted, parsed, takeToken, Json.value, named,
    Json.getString, if_neg nonempty, failed]

theorem NamesToken.fetch_of_ok (names : NamesToken parse reply fields token) {seconds : ℤ}
    (read : expiresIn (.object fields) = .ok seconds) (provider : AuthProvider) (now : ℤ) :
    provider.fetchTokenLocked parse reply now =
      (.ok (), { provider with
        currentToken := token
        tokenExpiry := now + validSeconds seconds * 1000000000 }) := by
  obtain ⟨response, rfl, low, high, parsed, named, nonempty⟩ := names
  have accepted : ¬ (response.status < 200 ∨ 300 ≤ response.status) := by omega
  simp only [fetchTokenLocked, if_neg accepted, parsed, takeToken, Json.value, named,
    Json.getString, if_neg nonempty, read]

/-- A reply that names no token changes nothing. -/
theorem fetch_of_not_names (unnamed : ∀ fields token, ¬ NamesToken parse reply fields token)
    (provider : AuthProvider) (now : ℤ) :
    ∃ error, provider.fetchTokenLocked parse reply now = (.error error, provider) := by
  unfold fetchTokenLocked
  split
  · exact ⟨_, rfl⟩
  · rename_i response
    split
    · exact ⟨_, rfl⟩
    · rename_i accepted
      split
      · exact ⟨_, rfl⟩
      · rename_i json parsed
        unfold takeToken
        cases read : json.value "access_token" "" with
        | error _ => exact ⟨_, rfl⟩
        | ok token =>
            by_cases empty : token = ""
            · exact ⟨_, if_pos empty⟩
            · exfalso
              cases json with
              | object fields =>
                  refine unnamed fields token
                    ⟨response, rfl, by omega, by omega, parsed, ?_, empty⟩
                  cases found : fields.lookup "access_token" with
                  | none =>
                      simp only [Json.value, found, Except.ok.injEq] at read
                      exact absurd read.symm empty
                  | some field =>
                      simp only [Json.value, found] at read
                      cases field <;> simp_all [Json.getString]
              | null | bool | number | string | array => cases read

/-! ## Failures -/

/-- A failed request leaves token and expiry, a successful one takes both from the reply. -/
def Atomic (provider : AuthProvider) (parse : String → Option Json) (reply : TokenReply)
    (now : ℤ) : Prop :=
  match provider.fetchTokenLocked parse reply now with
  | (.error _, after) =>
      after.currentToken = provider.currentToken ∧ after.tokenExpiry = provider.tokenExpiry
  | (.ok (), after) =>
      ∃ fields token seconds, NamesToken parse reply fields token ∧
        expiresIn (.object fields) = .ok seconds ∧ after.currentToken = token ∧
        after.tokenExpiry = now + validSeconds seconds * 1000000000

/-- A refresh is atomic, except that of a reply with an unreadable lifetime the token is
kept. -/
theorem fetchTokenLocked_atomic_iff (provider : AuthProvider) (parse : String → Option Json)
    (reply : TokenReply) (now : ℤ) :
    provider.Atomic parse reply now ↔
      ∀ fields token, NamesToken parse reply fields token → UnreadableLifetime fields →
        token = provider.currentToken := by
  by_cases named : ∃ fields token, NamesToken parse reply fields token
  · obtain ⟨fields, token, names⟩ := named
    have same : ∀ others other, NamesToken parse reply others other →
        others = fields ∧ other = token := by
      rintro others other ⟨_, rfl, -, -, parsed, found, -⟩
      obtain ⟨_, answered, -, -, parsedAs, foundAs, -⟩ := names
      cases answered
      obtain rfl := Json.object.inj (Option.some.inj (parsed.symm.trans parsedAs))
      exact ⟨rfl, Json.string.inj (Option.some.inj (found.symm.trans foundAs))⟩
    rcases expiresIn_cases fields with ⟨unreadable, failed⟩ | ⟨readable, seconds, read⟩
    · have fetched := names.fetch_of_error failed provider now
      simp only [Atomic, fetched, and_true]
      constructor
      · intro kept others other namesOther _
        rw [(same others other namesOther).2, kept]
      · exact fun kept => kept fields token names unreadable
    · have fetched := names.fetch_of_ok read provider now
      refine iff_of_true ?_ ?_
      · simp only [Atomic, fetched]
        exact ⟨fields, token, seconds, names, read, rfl, rfl⟩
      · intro others other namesOther unreadable
        rw [(same others other namesOther).1] at unreadable
        exact absurd unreadable readable
  · simp only [not_exists] at named
    obtain ⟨error, fetched⟩ := fetch_of_not_names named provider now
    refine iff_of_true ?_ fun fields token names => absurd names (named fields token)
    simp only [Atomic, fetched, and_self]

/-- A token whose lifetime is a text. -/
def tornBody : String :=
  "\x7b\"access_token\":\"second\",\"expires_in\":\"3600\"\x7d"

def parseTorn (text : String) : Option Json :=
  if text = tornBody then
    some (.object [("access_token", .string "second"), ("expires_in", .string "3600")])
  else none

/-- The request fails and the token is replaced. -/
theorem fetchTokenLocked_torn :
    fetchTokenLocked ⟨{ type := .oauth2 }, "first", 7⟩ parseTorn (.ok ⟨200, tornBody⟩) 5 =
      (.error .authParseError, ⟨{ type := .oauth2 }, "second", 7⟩) := by
  rfl

/-! ## Lifetimes -/

/-- The lifetime that a reply states, or the one that it is given without. -/
def LifetimeIs (fields : List (String × Json)) (seconds : ℤ) : Prop :=
  fields.lookup "expires_in" = some (.number seconds) ∨
    fields.lookup "expires_in" = none ∧ seconds = kDefaultTokenExpirySec

/-- A time that the clock can hold. -/
def Representable (time : ℤ) : Prop :=
  -2 ^ 63 ≤ time ∧ time < 2 ^ 63

/-- When a token has expired that was got at `now`. -/
def exactExpiry (now seconds : ℤ) : ℤ :=
  now + max (seconds - kExpiryMarginSec) 1 * 1000000000

theorem bmod_eq_self_iff (value : ℤ) :
    value.bmod (2 ^ 32) = value ↔ -2 ^ 31 ≤ value ∧ value < 2 ^ 31 := by
  constructor
  · intro same
    have low := Int.le_bmod (x := value) (m := 2 ^ 32) (by decide)
    have high := Int.bmod_lt (x := value) (m := 2 ^ 32) (by decide)
    rw [same] at low high
    omega
  · intro inside
    apply Int.bmod_eq_of_le_mul_two <;> push_cast <;> omega

theorem LifetimeIs.expiresIn_eq {seconds : ℤ} (lifetime : LifetimeIs fields seconds) :
    expiresIn (.object fields) = .ok (seconds.bmod (2 ^ 32)) := by
  rcases lifetime with stated | ⟨absent, rfl⟩
  · simp [expiresIn, stated, toInt32]
  · simp only [expiresIn, absent]
    rfl

/-- A token reply is taken over with the exact expiry. -/
structure Exact (provider : AuthProvider) (parse : String → Option Json) (reply : TokenReply)
    (fields : List (String × Json)) (now seconds : ℤ) : Prop where
  succeeds : (provider.fetchTokenLocked parse reply now).1 = .ok ()
  expiry : (provider.fetchTokenLocked parse reply now).2.tokenExpiry = exactExpiry now seconds
  /-- `expires_in` is not narrowed. -/
  read : expiresIn (.object fields) = .ok seconds
  /-- The margin is subtracted without overflow. -/
  difference : (seconds - kExpiryMarginSec).bmod (2 ^ 32) = seconds - kExpiryMarginSec

/-- The expiry is exact for the lifetimes from which the margin can be subtracted as an
`int`. -/
theorem tokenExpiry_exact_iff {parse : String → Option Json} {reply : TokenReply}
    {fields : List (String × Json)} {token : String} {seconds : ℤ}
    (names : NamesToken parse reply fields token) (lifetime : LifetimeIs fields seconds)
    (provider : AuthProvider) (now : ℤ) :
    (Representable (exactExpiry now seconds) →
        provider.Exact parse reply fields now seconds) ↔
      (Representable (exactExpiry now seconds) →
        -2 ^ 31 + 60 ≤ seconds ∧ seconds < 2 ^ 31) := by
  refine imp_congr_right fun _ => ?_
  have read := lifetime.expiresIn_eq
  have fetched := names.fetch_of_ok read provider now
  constructor
  · intro exact
    have narrow := (bmod_eq_self_iff seconds).mp (Except.ok.inj (read.symm.trans exact.read))
    have margin := (bmod_eq_self_iff _).mp exact.difference
    rw [kExpiryMarginSec] at margin
    omega
  · intro inside
    have narrow := (bmod_eq_self_iff seconds).mpr (by omega)
    have margin : (seconds - kExpiryMarginSec).bmod (2 ^ 32) = seconds - kExpiryMarginSec := by
      rw [bmod_eq_self_iff, kExpiryMarginSec]
      omega
    rw [narrow] at fetched read
    refine ⟨by rw [fetched], ?_, read, margin⟩
    rw [fetched]
    simp only [validSeconds, margin, exactExpiry]

def lifetimeBody (seconds : ℤ) : String :=
  "\x7b\"access_token\":\"secret\",\"expires_in\":" ++ toString seconds ++ "\x7d"

def parseLifetime (seconds : ℤ) (text : String) : Option Json :=
  if text = lifetimeBody seconds then
    some (.object [("access_token", .string "secret"), ("expires_in", .number seconds)])
  else none

def accepted (seconds : ℤ) : TokenReply :=
  .ok ⟨200, lifetimeBody seconds⟩

/-- The longest lifetime that is read. -/
theorem tokenExpiry_exact_longest :
    (new { type := .oauth2 }).Exact (parseLifetime 2147483647) (accepted 2147483647)
      [("access_token", .string "secret"), ("expires_in", .number (2147483647 : ℤ))] 0
      2147483647 := by
  have names : NamesToken (parseLifetime 2147483647) (accepted 2147483647)
      [("access_token", .string "secret"), ("expires_in", .number (2147483647 : ℤ))] "secret" :=
    ⟨⟨200, lifetimeBody 2147483647⟩, rfl, by decide, by decide, if_pos rfl, rfl, by decide⟩
  exact (tokenExpiry_exact_iff names (Or.inl rfl) (new { type := .oauth2 }) 0).mpr
    (fun _ => by decide) ⟨by decide, by decide⟩

/-- A lifetime of 136 years and the shortest `int`: 1 second in place of 136 years, and 68
years in place of 1 second. -/
theorem tokenExpiry_inexact :
    Representable (exactExpiry 0 (2 ^ 32)) ∧
      exactExpiry 0 (2 ^ 32) = 4294967236000000000 ∧
      (fetchTokenLocked (new { type := .oauth2 }) (parseLifetime (2 ^ 32))
        (accepted (2 ^ 32)) 0).2.tokenExpiry = 1000000000 ∧
      Representable (exactExpiry 0 (-2 ^ 31)) ∧
      exactExpiry 0 (-2 ^ 31) = 1000000000 ∧
      (fetchTokenLocked (new { type := .oauth2 }) (parseLifetime (-2 ^ 31))
        (accepted (-2 ^ 31)) 0).2.tokenExpiry = 2147483588000000000 := by
  unfold Representable
  decide +kernel

end Cppload.Security.AuthProvider
