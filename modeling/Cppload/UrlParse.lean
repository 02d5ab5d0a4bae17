import Cppload.Http11Client
import Cppload.TextMarks

/-!
# Parsing URLs

`parse_url` cuts a URL at the first `://`, at the first slash behind it and at the colon
before the port, or at the closing bracket of an IPv6 literal.  `format_host_header`
goes the other way: it puts the brackets back and leaves out the default port.
-/

namespace Cppload.Url

open Text

/-- `core::UrlParts`. -/
structure UrlParts where
  host : Text
  port : Text
  path : Text
  tls : Bool
  deriving DecidableEq, Repr

/-- `default_port`. -/
def defaultPort (tls : Bool) : Text :=
  if tls then ['4', '4', '3'] else ['8', '0']

/-- The schemes that keep TLS enabled. -/
def isSecure (scheme : Text) : Bool :=
  scheme = "https".toList || scheme = "wss".toList

/-- The host and the port of `host_port`. -/
def splitHostPort (hostPort defaultPort : Text) : Text × Text :=
  if 1 < hostPort.length ∧ hostPort.head? = some '[' then
    match splitAt [']'] hostPort with
    | some (literal, ':' :: port) => (literal.drop 1, port)
    | some (literal, _) => (literal.drop 1, defaultPort)
    | none => (hostPort, defaultPort)
  else
    match splitAt [':'] hostPort with
    | some (host, port) => (host, port)
    | none => (hostPort, defaultPort)

/-- What is behind the scheme: `host_port`, and the path with its slash. -/
def splitPath (rest : Text) : Text × Text :=
  match splitAt ['/'] rest with
  | some (hostPort, path) => (hostPort, '/' :: path)
  | none => (rest, ['/'])

def parseUrl (url : Text) : UrlParts :=
  let (tls, rest) :=
    match splitAt [':', '/', '/'] url with
    | some (scheme, rest) => (isSecure scheme, rest)
    | none => (false, url)
  let (hostPort, path) := splitPath rest
  let (host, port) := splitHostPort hostPort (defaultPort tls)
  { host := host, port := port, path := path, tls := tls }

/-! ## Hosts -/

variable {host : Text}

/-- A host as it stands in a URL: an IPv6 literal has brackets. -/
def bracketed (host : Text) : Text :=
  if ':' ∈ host then '[' :: (host ++ [']']) else host

/-- The number of the default port. -/
def standardPort (tls : Bool) : ℕ :=
  if tls then 443 else 80

/-- The port as it stands in a URL, if it is not the default one. -/
def portSuffix (port : ℕ) (tls : Bool) : Text :=
  if port = standardPort tls then [] else ':' :: Nat.toDigits 10 port

theorem toList_formatHostHeader (host : Text) (port : ℕ) (tls : Bool) :
    (Http11.formatHostHeader (String.ofList host) port tls).toList =
      bracketed host ++ portSuffix port tls := by
  have name : (if (String.ofList host).toList.contains ':' then
      "[" ++ String.ofList host ++ "]" else String.ofList host).toList = bracketed host := by
    unfold bracketed
    simp only [String.toList_ofList, List.contains_iff_mem]
    split <;> simp
  by_cases standard : port = standardPort tls
  · rw [portSuffix, if_pos standard, List.append_nil, ← name]
    exact congrArg String.toList (if_pos standard)
  · rw [portSuffix, if_neg standard, ← name]
    refine (congrArg String.toList (if_neg standard)).trans ?_
    simp

/-- The default port is the one that is left out. -/
theorem defaultPort_eq (tls : Bool) :
    defaultPort tls = Nat.toDigits 10 (standardPort tls) := by
  cases tls <;> decide

theorem notMem_portSuffix {c : Char} (noColon : c ≠ ':') (noDigit : c.isDigit = false)
    (port : ℕ) (tls : Bool) : c ∉ portSuffix port tls := by
  unfold portSuffix
  split
  · simp
  · rw [List.mem_cons, not_or]
    refine ⟨noColon, fun member => ?_⟩
    rw [Nat.isDigit_of_mem_toDigits (by decide) (by decide) member] at noDigit
    cases noDigit

theorem splitHostPort_bracketed (nonempty : host ≠ []) (noOpen : '[' ∉ host)
    (noClose : ']' ∉ host) (port : ℕ) (tls : Bool) :
    splitHostPort (bracketed host ++ portSuffix port tls) (defaultPort tls) =
      (host, Nat.toDigits 10 port) := by
  unfold splitHostPort bracketed
  by_cases literal : ':' ∈ host
  · -- An IPv6 literal: the first closing bracket is the one that was added.
    have absent : ']' ∉ '[' :: host := by simp [noClose]
    have cut := splitAt_char absent (portSuffix port tls)
    rw [if_pos literal, if_pos ⟨by simp, rfl⟩]
    have same : '[' :: (host ++ [']']) ++ portSuffix port tls =
        '[' :: host ++ ']' :: portSuffix port tls := by
      simp
    rw [same, cut]
    unfold portSuffix
    by_cases standard : port = standardPort tls
    · rw [if_pos standard]
      simp only [List.drop_one, List.tail_cons, defaultPort_eq, standard]
    · rw [if_neg standard]
      rfl
  · obtain ⟨first, more, rfl⟩ := List.exists_cons_of_ne_nil nonempty
    have other : first ≠ '[' := fun same => noOpen (by simp [same])
    rw [if_neg literal, if_neg (by simp [other])]
    unfold portSuffix
    by_cases standard : port = standardPort tls
    · rw [if_pos standard, List.append_nil, splitAt_char_eq_none literal]
      simp only [defaultPort_eq, standard]
    · rw [if_neg standard, splitAt_char literal]

/-- The scheme of a URL. -/
def scheme (tls : Bool) : Text :=
  (if tls then "https" else "http").toList

theorem isSecure_scheme (tls : Bool) : isSecure (scheme tls) = tls := by
  cases tls <;> decide

theorem firstAt_scheme (tls : Bool) : FirstAt [':', '/', '/'] (scheme tls) := by
  cases tls <;> decide

theorem notMem_bracketed_slash (noSlash : '/' ∉ host) : '/' ∉ bracketed host := by
  unfold bracketed
  split <;> simp [noSlash]

/-- Parsing a URL that was put together from a scheme, the text of the `Host` header and
a path gives back what it was put together from. -/
theorem parseUrl_formatHostHeader (nonempty : host ≠ []) (noSlash : '/' ∉ host)
    (noOpen : '[' ∉ host) (noClose : ']' ∉ host) (port : UInt16) (tls : Bool) {path : Text}
    (rooted : path.head? = some '/') :
    parseUrl ((if tls then "https" else "http").toList ++ "://".toList ++
        (Http11.formatHostHeader (String.ofList host) port.toNat tls).toList ++ path) =
      { host := host, port := (toString port.toNat).toList, path := path, tls := tls } := by
  obtain ⟨rest, rfl⟩ : ∃ rest, path = '/' :: rest := by
    cases path with
    | nil => cases rooted
    | cons c rest =>
        obtain rfl := Option.some.inj rooted
        exact ⟨rest, rfl⟩
  have absent : '/' ∉ bracketed host ++ portSuffix port.toNat tls := by
    rw [List.mem_append, not_or]
    exact ⟨notMem_bracketed_slash noSlash, notMem_portSuffix (by decide) (by decide) _ _⟩
  have cutScheme : splitAt [':', '/', '/'] ((if tls then "https" else "http").toList ++
      "://".toList ++ (bracketed host ++ portSuffix port.toNat tls) ++ '/' :: rest) =
        some (scheme tls, bracketed host ++ portSuffix port.toNat tls ++ '/' :: rest) := by
    rw [List.append_assoc]
    exact splitAt_append (by decide) (firstAt_scheme tls) _
  have cutPath : splitPath (bracketed host ++ portSuffix port.toNat tls ++ '/' :: rest) =
      (bracketed host ++ portSuffix port.toNat tls, '/' :: rest) := by
    rw [splitPath, splitAt_char absent]
  unfold parseUrl
  rw [toList_formatHostHeader, cutScheme]
  simp only [isSecure_scheme, cutPath, splitHostPort_bracketed nonempty noOpen noClose]
  simp

/-- An IPv6 literal with a port of its own, and a path that looks like a URL. -/
theorem parseUrl_formatHostHeader_ipv6 :
    parseUrl ("https".toList ++ "://".toList ++
        (Http11.formatHostHeader (String.ofList "::1".toList) 8443 true).toList ++
        "/a://b:1".toList) =
      { host := "::1".toList, port := "8443".toList, path := "/a://b:1".toList, tls := true } := by
  exact parseUrl_formatHostHeader (by decide) (by decide) (by decide) (by decide) 8443 true rfl

end Cppload.Url
