import Cppload.Table
import Cppload.JsonAccess

/-!
# The authentication provider

`AuthProvider` keeps the token of an OAuth2 client and the time until which it may
be used.  `fetch_token_locked` sends the token request and takes over the reply;
`refresh_token` calls it always, `get_token` only when the token has expired.  Both
hold the mutex from beginning to end.

The reply of the token endpoint, the parsing of its body and the clock readings are
arguments.  Times are nanoseconds.
-/

namespace Cppload.Security

/-- The members of `Err` that a token request can end with. -/
inductive TokenError where
  | dnsFailure
  | connectionRefused
  | connectionTimeout
  | readError
  | writeError
  | tlsHandshakeFailed
  | authInvalidGrant
  | authInvalidClient
  | authServerError
  | authParseError
  deriving DecidableEq, Repr

inductive AuthType where
  | none
  | apiKey
  | bearerToken
  | oauth2
  | mtls
  deriving DecidableEq, Repr

/-- `AuthConfig`, without the paths of certificates. -/
structure AuthConfig where
  type : AuthType := .none
  apiKey : String := ""
  token : String := ""
  clientId : String := ""
  clientSecret : String := ""
  tokenEndpoint : String := ""
  deriving DecidableEq, Repr

structure TokenResponse where
  status : ℕ
  body : String
  deriving DecidableEq, Repr

/-- What `do_sync_post` returns. -/
abbrev TokenReply :=
  Except TokenError TokenResponse

def kDefaultTokenExpirySec : ℤ :=
  3600

def kExpiryMarginSec : ℤ :=
  60

/-- The conversion of a JSON number to `int`: the fraction is cut off and the low 32
bits remain.  For a fraction outside the range of `int` the source leaves the result
open. -/
def toInt32 (value : ℚ) : ℤ :=
  (value.num.tdiv value.den).bmod (2 ^ 32)

/-- `j.value("expires_in", kDefaultTokenExpirySec)`. -/
def expiresIn : Json → Except JsonError ℤ
  | .object fields =>
      match fields.lookup "expires_in" with
      | none => .ok kDefaultTokenExpirySec
      | some (.number value) => .ok (toInt32 value)
      | some (.bool value) => .ok (if value then 1 else 0)
      | some _ => .error .typeError
  | _ => .error .typeError

/-- How long a token may be used: the difference of two `int`s, at least one
second. -/
def validSeconds (expiresIn : ℤ) : ℤ :=
  max ((expiresIn - kExpiryMarginSec).bmod (2 ^ 32)) 1

structure AuthProvider where
  config : AuthConfig
  currentToken : String
  tokenExpiry : ℤ
  deriving DecidableEq, Repr

namespace AuthProvider

/-- The provider before its constructor has fetched a token; the clock starts with
the epoch. -/
def new (config : AuthConfig) : AuthProvider where
  config := config
  currentToken := ""
  tokenExpiry := 0

def refusal (status : ℕ) : TokenError :=
  if status = 401 then .authInvalidClient
  else if status = 400 then .authInvalidGrant
  else .authServerError

variable (provider : AuthProvider)

/-- The part of `fetch_token_locked` inside `try`.  The token is taken over before
`expires_in` is read. -/
def takeToken (json : Json) (now : ℤ) : Except TokenError Unit × AuthProvider :=
  match json.value "access_token" "" with
  | .error _ => (.error .authParseError, provider)
  | .ok token =>
      if token = "" then (.error .authInvalidGrant, provider)
      else
        match expiresIn json with
        | .error _ => (.error .authParseError, { provider with currentToken := token })
        | .ok seconds =>
            (.ok (), { provider with
              currentToken := token
              tokenExpiry := now + validSeconds seconds * 1000000000 })

/-- `fetch_token_locked`, with the clock reading at its end. -/
def fetchTokenLocked (parse : String → Option Json) (reply : TokenReply) (now : ℤ) :
    Except TokenError Unit × AuthProvider :=
  match reply with
  | .error error => (.error error, provider)
  | .ok response =>
      if response.status < 200 ∨ 300 ≤ response.status then
        (.error (refusal response.status), provider)
      else
        match parse response.body with
        | none => (.error .authParseError, provider)
        | some json => provider.takeToken json now

def isExpired (now : ℤ) : Bool :=
  provider.config.type = .oauth2 && decide (provider.tokenExpiry ≤ now)

/-- `refresh_token`, which sends a request only for an OAuth2 client. -/
def refreshToken (parse : String → Option Json) (reply : TokenReply) (now : ℤ) :
    Except TokenError Unit × AuthProvider :=
  if provider.config.type = .oauth2 then provider.fetchTokenLocked parse reply now
  else (.ok (), provider)

/-- `get_token`, with the clock readings at its beginning and at the end of the
request it may send.  After a failure the token stays what it was; it may be
empty. -/
def getToken (parse : String → Option Json) (reply : TokenReply) (now done : ℤ) :
    String × AuthProvider :=
  if provider.tokenExpiry ≤ now then
    let fetched := (provider.fetchTokenLocked parse reply done).2
    (fetched.currentToken, fetched)
  else (provider.currentToken, provider)

def applyHeaders (parse : String → Option Json) (headers : Table String String)
    (reply : TokenReply) (now done : ℤ) : Table String String × AuthProvider :=
  match provider.config.type with
  | .apiKey => (AList.insert "X-API-Key" provider.config.apiKey headers, provider)
  | .bearerToken =>
      (AList.insert "Authorization" ("Bearer " ++ provider.config.token) headers, provider)
  | .oauth2 =>
      let result := provider.getToken parse reply now done
      if result.1 = "" then (headers, result.2)
      else (AList.insert "Authorization" ("Bearer " ++ result.1) headers, result.2)
  | .mtls => (AList.insert "X-SSL-Cert" "mtls" headers, provider)
  | .none => (headers, provider)

/-- The constructor asks for a token. -/
def fetchesAtStart (config : AuthConfig) : Bool :=
  config.type = .oauth2 && config.tokenEndpoint ≠ ""

/-- The constructor, which throws when it cannot get the first token. -/
def create (parse : String → Option Json) (config : AuthConfig) (reply : TokenReply)
    (now : ℤ) : Except TokenError AuthProvider :=
  if fetchesAtStart config then
    match (new config).fetchTokenLocked parse reply now with
    | (.error error, _) => .error error
    | (.ok (), provider) => .ok provider
  else .ok (new config)

end AuthProvider

theorem one_le_validSeconds (seconds : ℤ) : 1 ≤ validSeconds seconds :=
  le_max_right _ _

namespace AuthProvider

/-- What a token request can do to the provider.  A reply with a token and an
unreadable `expires_in` is a failure, but its token is kept. -/
inductive Fetched (provider : AuthProvider) (now : ℤ) :
    Except TokenError Unit × AuthProvider → Prop
  | refused (error : TokenError) : Fetched provider now (.error error, provider)
  | unreadable (token : String) :
      Fetched provider now (.error .authParseError, { provider with currentToken := token })
  | taken (token : String) (seconds : ℤ) :
      Fetched provider now (.ok (), { provider with
        currentToken := token
        tokenExpiry := now + validSeconds seconds * 1000000000 })

theorem takeToken_fetched (provider : AuthProvider) (json : Json) (now : ℤ) :
    provider.Fetched now (provider.takeToken json now) := by
  unfold takeToken
  split
  · exact .refused _
  · split
    · exact .refused _
    · split
      · exact .unreadable _
      · exact .taken _ _

theorem fetchTokenLocked_fetched (provider : AuthProvider) (parse : String → Option Json)
    (reply : TokenReply) (now : ℤ) :
    provider.Fetched now (provider.fetchTokenLocked parse reply now) := by
  unfold fetchTokenLocked
  split
  · exact .refused _
  · split
    · exact .refused _
    · split
      · exact .refused _
      · exact provider.takeToken_fetched _ now

namespace Fetched

variable {provider : AuthProvider} {now : ℤ} {result : Except TokenError Unit × AuthProvider}

/-- A request that fails leaves the expiry as it was. -/
theorem tokenExpiry_of_error (fetched : provider.Fetched now result)
    (failed : result.1.isOk = false) : result.2.tokenExpiry = provider.tokenExpiry := by
  cases fetched with
  | refused error => rfl
  | unreadable token => rfl
  | taken token seconds => cases failed

/-- A request that succeeds makes the token valid for at least a second. -/
theorem lt_tokenExpiry (fetched : provider.Fetched now result)
    (succeeded : result.1.isOk = true) : now < result.2.tokenExpiry := by
  cases fetched with
  | refused error => cases succeeded
  | unreadable token => cases succeeded
  | taken token seconds =>
      have positive := one_le_validSeconds seconds
      dsimp only
      omega

end Fetched

end AuthProvider

end Cppload.Security
