import Cppload.JsonAccess
import Cppload.SanitizePath
import Cppload.Table
import Cppload.UrlParse

/-!
# The vault client

`get_secret` and `get_secret_map` send the same request and read the same part of the reply.
The first converts one member to a string, the second all of them, so that a member which is
no string makes the second fail.

The transport is an argument: what is received for a request at each attempt.
-/

namespace Cppload.Vault

/-- The members of `Err` with which a secret is refused. -/
inductive VaultError where
  | dnsFailure
  | connectionRefused
  | connectionTimeout
  | tlsHandshakeFailed
  | writeError
  | readError
  | invalidConfig
  | parseError
  | vaultNotFound
  | vaultPermissionDenied
  | vaultTokenInvalid
  | vaultServerError
  | unknown
  deriving DecidableEq, Repr

structure VaultConfig where
  address : Text := "http://127.0.0.1:8200".toList
  token : String := ""
  enginePath : Text := "secret".toList
  timeoutSeconds : ℕ := 5

/-- The arguments of `do_request` for a `GET` without a body. -/
structure VaultRequest where
  host : Text
  port : Text
  target : Text
  headers : Table String String
  timeoutSeconds : ℕ
  tls : Bool

structure VaultResponse where
  status : ℕ
  body : String
  deriving DecidableEq, Repr

/-- A client with its transport, which is asked with the number of the attempt, and the
parser of replies. -/
structure VaultClient where
  config : VaultConfig
  doRequestOnce : VaultRequest → ℕ → Except VaultError VaultResponse
  parse : String → Option Json

def checkResponse (response : VaultResponse) : Except VaultError ℕ :=
  let code := response.status
  if 200 ≤ code ∧ code < 300 then .ok code
  else if code = 429 then .error .vaultServerError
  else if code = 404 then .error .vaultNotFound
  else if code = 403 then .error .vaultPermissionDenied
  else if code = 401 then .error .vaultTokenInvalid
  else if 500 ≤ code then .error .vaultServerError
  else .error .unknown

def kMaxAttempts : ℕ :=
  3

/-- What a call of `do_request` returns, after how many attempts and how much sleep. -/
structure Retried where
  result : Except VaultError VaultResponse
  attempts : ℕ
  sleptMs : ℕ

/-- The loop of `do_request` with so many attempts left. -/
def retryFrom (once : ℕ → Except VaultError VaultResponse) : ℕ → Retried
  | 0 => ⟨.error .vaultServerError, 0, 0⟩
  | left + 1 =>
      let attempt := kMaxAttempts - (left + 1)
      match once attempt with
      | .error error => ⟨.error error, 1, 0⟩
      | .ok response =>
          if response.status ≠ 429 then ⟨.ok response, 1, 0⟩
          else
            let later := retryFrom once left
            ⟨later.result, later.attempts + 1,
              later.sleptMs + if attempt + 1 < kMaxAttempts then 100 * 2 ^ attempt else 0⟩

def retry (once : ℕ → Except VaultError VaultResponse) : Retried :=
  retryFrom once kMaxAttempts

namespace VaultClient

variable (client : VaultClient)

def doRequest (request : VaultRequest) : Except VaultError VaultResponse :=
  (retry (client.doRequestOnce request)).result

def secretRequest (path : Text) : VaultRequest :=
  let url := Url.parseUrl client.config.address
  { host := url.host
    port := url.port
    target := Core.apiPath client.config.enginePath path
    headers := AList.singleton "X-Vault-Token" client.config.token
    timeoutSeconds := client.config.timeoutSeconds
    tls := url.tls }

/-- What `get_secret` and `get_secret_map` have in common: all but what they make of the
`data` in the reply. -/
def readSecret {Value : Type} (path : Text) (take : Json → Except VaultError Value) :
    Except VaultError Value :=
  if path = [] then .error .invalidConfig
  else
    match client.doRequest (client.secretRequest path) with
    | .error error => .error error
    | .ok response =>
        match checkResponse response with
        | .error error => .error error
        | .ok _ =>
            match client.parse response.body with
            | none => .error .parseError
            | some json =>
                match (json.field? "data").bind (Json.field? "data") with
                | none => .error .parseError
                | some data => take data

/-- `data[key].get<std::string>()`, if it is there. -/
def takeMember (key : String) (data : Json) : Except VaultError String :=
  match data.field? key with
  | none => .error .vaultNotFound
  | some field =>
      match field.getString with
      | .error _ => .error .parseError
      | .ok text => .ok text

/-- The loop over the members. -/
def readMembers : List (String × Json) → Table String String →
    Except JsonError (Table String String)
  | [], result => .ok result
  | (key, field) :: rest, result =>
      match field.getString with
      | .error error => .error error
      | .ok text => readMembers rest (AList.insert key text result)

def takeMembers (data : Json) : Except VaultError (Table String String) :=
  match data with
  | .object fields =>
      match readMembers (Json.members fields) ∅ with
      | .error _ => .error .parseError
      | .ok result => .ok result
  | _ => .ok ∅

def getSecret (path : Text) (key : String) : Except VaultError String :=
  client.readSecret path (takeMember key)

def getSecretMap (path : Text) : Except VaultError (Table String String) :=
  client.readSecret path takeMembers

/-! ## The two conversions -/

theorem exists_readMembers_iff {members : List (String × Json)} {table : Table String String} :
    (∃ result, readMembers members table = .ok result) ↔
      ∀ member ∈ members, member.2.isString = true := by
  induction members generalizing table with
  | nil => simp [readMembers]
  | cons member members induction =>
      obtain ⟨key, field⟩ := member
      cases field with
      | string text => simp [readMembers, Json.getString, Json.isString, induction]
      | null | bool | number | array | object => simp [readMembers, Json.getString, Json.isString]

/-- The map has the values that are found under the keys. -/
theorem lookup_readMembers {members : List (String × Json)} {table result : Table String String}
    (read : readMembers members table = .ok result) (distinct : (members.map Prod.fst).Nodup)
    (key text : String) :
    result.lookup key = some text ↔
      (key, .string text) ∈ members ∨
        key ∉ members.map Prod.fst ∧ table.lookup key = some text := by
  induction members generalizing table with
  | nil =>
      cases read
      simp
  | cons member members induction =>
      obtain ⟨other, field⟩ := member
      rw [List.map_cons, List.nodup_cons] at distinct
      cases field with
      | string value =>
          rw [induction read distinct.2]
          by_cases same : key = other
          · subst same
            have absent (value : Json) : (key, value) ∉ members :=
              fun member => distinct.1 (List.mem_map.mpr ⟨_, member, rfl⟩)
            simp [absent, distinct.1, eq_comm]
          · simp [same, AList.lookup_insert_ne same]
      | null | bool | number | array | object => cases read

/-! ## Agreement -/

/-- The endpoint answers the request for the path with this `data`. -/
def Holds (client : VaultClient) (path : Text) (data : Json) : Prop :=
  path ≠ [] ∧ ∃ response json outer,
    client.doRequest (client.secretRequest path) = .ok response ∧
      200 ≤ response.status ∧ response.status < 300 ∧ client.parse response.body = some json ∧
      json.field? "data" = some outer ∧ outer.field? "data" = some data

variable {client : VaultClient} {path : Text} {data : Json}

theorem Holds.readSecret_eq (holds : client.Holds path data) {Value : Type}
    (take : Json → Except VaultError Value) : client.readSecret path take = take data := by
  obtain ⟨named, response, json, outer, answered, low, high, parsed, found, inside⟩ := holds
  have accepted : checkResponse response = .ok response.status := if_pos ⟨low, high⟩
  simp only [readSecret, if_neg named, answered, accepted, parsed, found, Option.bind_some, inside]

/-- Without `data` no reader succeeds. -/
theorem exists_holds {Value : Type} {take : Json → Except VaultError Value} {value : Value}
    (read : client.readSecret path take = .ok value) :
    ∃ data, client.Holds path data ∧ take data = .ok value := by
  unfold readSecret at read
  split at read
  · cases read
  rename_i named
  split at read
  · cases read
  rename_i response answered
  split at read
  · cases read
  rename_i code accepted
  split at read
  · cases read
  rename_i json parsed
  split at read
  · cases read
  rename_i data found
  obtain ⟨outer, outside, inside⟩ := Option.bind_eq_some_iff.mp found
  have success : 200 ≤ response.status ∧ response.status < 300 := by
    by_contra refused
    simp only [checkResponse, if_neg refused] at accepted
    split_ifs at accepted
  exact ⟨data, ⟨named, response, json, outer, answered, success.1, success.2, parsed, outside,
    inside⟩, read⟩

theorem takeMember_eq_ok_iff {key text : String} :
    takeMember key data = .ok text ↔ data.field? key = some (.string text) := by
  unfold takeMember
  cases found : data.field? key with
  | none => simp
  | some field => cases field <;> simp [Json.getString]

/-- The map is there if all members are strings. -/
theorem takeMembers_eq_ok_iff {key text : String} :
    (∃ map, takeMembers data = .ok map ∧ map.lookup key = some text) ↔
      data.field? key = some (.string text) ∧
        ∀ other field, data.field? other = some field → field.isString = true := by
  cases data with
  | object fields =>
      have strings : (∀ member ∈ Json.members fields, member.2.isString = true) ↔
          ∀ other field, fields.lookup other = some field → field.isString = true := by
        constructor
        · intro all other field found
          exact all (other, field) (Json.mem_members_iff.mpr found)
        · rintro all ⟨other, field⟩ member
          exact all other field (Json.mem_members_iff.mp member)
      simp only [Json.field?, ← strings]
      constructor
      · rintro ⟨map, taken, found⟩
        simp only [takeMembers] at taken
        split at taken
        · cases taken
        · rename_i result read
          cases taken
          rw [lookup_readMembers read (Json.nodup_members fields)] at found
          refine ⟨?_, exists_readMembers_iff.mp ⟨_, read⟩⟩
          simpa [Json.mem_members_iff] using found
      · rintro ⟨found, all⟩
        obtain ⟨result, read⟩ := (@exists_readMembers_iff (Json.members fields) ∅).mpr all
        refine ⟨result, by simp only [takeMembers, read], ?_⟩
        rw [lookup_readMembers read (Json.nodup_members fields)]
        exact Or.inl (Json.mem_members_iff.mpr found)
  | null | bool | number | string | array =>
      refine iff_of_false ?_ (by simp [Json.field?])
      rintro ⟨map, taken, found⟩
      cases taken
      cases found

/-- The two readers agree about a secret, unless it is a string and another member is
not. -/
theorem getSecret_iff_getSecretMap_iff (client : VaultClient) (path : Text) (key : String) :
    (∀ text, client.getSecret path key = .ok text ↔
        ∃ map, client.getSecretMap path = .ok map ∧ map.lookup key = some text) ↔
      ∀ data text, client.Holds path data → data.field? key = some (.string text) →
        ∀ other field, data.field? other = some field → field.isString = true := by
  constructor
  · intro agree data text holds found
    have read : client.getSecret path key = .ok text := by
      rw [getSecret, holds.readSecret_eq, takeMember_eq_ok_iff]
      exact found
    obtain ⟨map, readMap, inMap⟩ := (agree text).mp read
    rw [getSecretMap, holds.readSecret_eq] at readMap
    exact (takeMembers_eq_ok_iff.mp ⟨map, readMap, inMap⟩).2
  · intro strings text
    constructor
    · intro read
      obtain ⟨data, holds, taken⟩ := exists_holds read
      rw [takeMember_eq_ok_iff] at taken
      rw [getSecretMap, holds.readSecret_eq, takeMembers_eq_ok_iff]
      exact ⟨taken, strings data text holds taken⟩
    · rintro ⟨map, readMap, inMap⟩
      obtain ⟨data, holds, taken⟩ := exists_holds readMap
      rw [getSecret, holds.readSecret_eq, takeMember_eq_ok_iff]
      exact (takeMembers_eq_ok_iff.mp ⟨map, taken, inMap⟩).1

def mixedBody : String :=
  "\x7b\"data\":\x7b\"data\":\x7b\"password\":\"hunter2\",\"port\":5432\x7d\x7d\x7d"

/-- A vault with one secret, of a text and a number. -/
def mixed : VaultClient where
  config := {}
  doRequestOnce := fun _ _ => .ok ⟨200, mixedBody⟩
  parse := fun text =>
    if text = mixedBody then
      some (.object [("data", .object [("data", .object
        [("password", .string "hunter2"), ("port", .number 5432)])])])
    else none

/-- The password is read alone, but not as a part of the map. -/
theorem getSecret_mixed :
    mixed.getSecret "db".toList "password" = .ok "hunter2" ∧
      mixed.getSecretMap "db".toList = .error .parseError := by
  constructor
  · rfl
  · rfl

end VaultClient

end Cppload.Vault
