import Cppload.PercentEncoding
import Cppload.UrlParse

/-!
# The token request

`fetch_token_locked` posts a form with the credentials of the client to the token
endpoint.  The credentials are arbitrary bytes; `url_encode` keeps them from being taken
for separators of the form.
-/

namespace Cppload.Security

open Percent

/-- The bytes of a text of the source. -/
def ascii (text : String) : List UInt8 :=
  text.toList.map fun c => c.toNat.toUInt8

/-- The bytes that `url_encode` copies. -/
def isUnreserved (byte : UInt8) : Bool :=
  isAlnum byte || byte = 45 || byte = 95 || byte = 46 || byte = 126

/-- `core::url_encode`. -/
def urlEncode (value : List UInt8) : List UInt8 :=
  encode isUnreserved value

/-- `body`. -/
def tokenRequestBody (clientId clientSecret : List UInt8) : List UInt8 :=
  ascii "grant_type=client_credentials" ++ ascii "&client_id=" ++ urlEncode clientId ++
    ascii "&client_secret=" ++ urlEncode clientSecret

/-- The arguments of `do_sync_post`. -/
structure TokenPost where
  host : Text
  port : Text
  path : Text
  body : List UInt8
  contentType : String
  tls : Bool
  deriving DecidableEq, Repr

/-- The request that `fetch_token_locked` makes. -/
def tokenPost (tokenEndpoint : Text) (clientId clientSecret : List UInt8) : TokenPost :=
  let url := Url.parseUrl tokenEndpoint
  { host := url.host
    port := url.port
    path := url.path
    body := tokenRequestBody clientId clientSecret
    contentType := "application/x-www-form-urlencoded"
    tls := url.tls }

/-- The pairs that the token endpoint is to read. -/
def tokenPairs (clientId clientSecret : List UInt8) : List (List UInt8 × List UInt8) :=
  [(ascii "grant_type", ascii "client_credentials"), (ascii "client_id", clientId),
    (ascii "client_secret", clientSecret)]

/-- The body is the form of the pairs: their names need no encoding. -/
theorem tokenRequestBody_eq_form (clientId clientSecret : List UInt8) :
    tokenRequestBody clientId clientSecret =
      form isUnreserved (tokenPairs clientId clientSecret) := by
  have grant : field isUnreserved (ascii "grant_type", ascii "client_credentials") =
      ascii "grant_type=client_credentials" := by
    decide +kernel
  have id : encode isUnreserved (ascii "client_id") = ascii "client_id" :=
    encode_eq_self (by decide +kernel)
  have secret : encode isUnreserved (ascii "client_secret") = ascii "client_secret" :=
    encode_eq_self (by decide +kernel)
  have idMark : ascii "&client_id=" = 38 :: (ascii "client_id" ++ [61]) := by
    decide +kernel
  have secretMark : ascii "&client_secret=" = 38 :: (ascii "client_secret" ++ [61]) := by
    decide +kernel
  simp only [form, tokenPairs, List.map_cons, List.map_nil, grant]
  simp only [field, id, secret, tokenRequestBody, urlEncode, idMark, secretMark]
  simp [List.intercalate, List.intersperse]

/-- The token endpoint reads exactly the credentials, whatever bytes they are made of:
`url_encode` is undone by decoding, and writes unreserved characters and escapes only. -/
theorem tokenPost_injection_free (tokenEndpoint : Text) (clientId clientSecret : List UInt8) :
    decodeForm (tokenPost tokenEndpoint clientId clientSecret).body =
      some [(ascii "grant_type", ascii "client_credentials"), (ascii "client_id", clientId),
        (ascii "client_secret", clientSecret)] ∧
    (∀ bytes, decode (urlEncode bytes) = some bytes) ∧
    ∀ bytes, Encoded isUnreserved (urlEncode bytes) := by
  refine ⟨?_, fun bytes => decode_encode rfl bytes, fun bytes => encoded_encode bytes⟩
  change decodeForm (tokenRequestBody clientId clientSecret) = some (tokenPairs _ _)
  rw [tokenRequestBody_eq_form]
  exact decodeForm_form rfl rfl rfl (List.cons_ne_nil _ _)

/-- A secret made of separators. -/
example :
    tokenRequestBody (ascii "a&b") (ascii "=%") =
      ascii "grant_type=client_credentials&client_id=a%26b&client_secret=%3D%25" := by
  decide +kernel

end Cppload.Security
