import Cppload.Numerals
import Cppload.UrlParse

/-!
# The scheme of a URL

`parse_url` looks for `://` in the whole URL.  A URL without a scheme is cut at a `://` in
its query, and a scheme that is not written in lower case, or that is not followed by two
slashes, does not count.  The port is what follows the first colon before the first slash,
which may be a colon in the user part or in the query.
-/

namespace Cppload.Url

open Text

/-- What `parse_url` makes of the text behind the scheme. -/
def partsOf (tls : Bool) (rest : Text) : UrlParts where
  host := (splitHostPort (splitPath rest).1 (defaultPort tls)).1
  port := (splitHostPort (splitPath rest).1 (defaultPort tls)).2
  path := (splitPath rest).2
  tls := tls

variable {url scheme rest authority path : Text}

theorem parseUrl_of_some (cut : splitAt [':', '/', '/'] url = some (scheme, rest)) :
    parseUrl url = partsOf (isSecure scheme) rest := by
  simp only [parseUrl, cut]
  rfl

theorem parseUrl_of_none (absent : splitAt [':', '/', '/'] url = none) :
    parseUrl url = partsOf false url := by
  simp only [parseUrl, absent]
  rfl

/-! ## URLs without a scheme -/

theorem splitPath_authority (noSlash : '/' ∉ authority) (path : Text) :
    splitPath (authority ++ '/' :: path) = (authority, '/' :: path) := by
  rw [splitPath, splitAt_char noSlash]

theorem length_splitPath_le (rest : Text) : (splitPath rest).2.length ≤ max rest.length 1 := by
  unfold splitPath
  split
  · rename_i hostPort path cut
    obtain ⟨rfl, _⟩ := (splitAt_eq_some_iff (List.cons_ne_nil _ _)).mp cut
    simp only [List.length_append, List.length_cons, List.length_nil]
    omega
  · exact le_max_right _ _

/-- A `://` behind an authority is a part of the path. -/
theorem mark_in_path {before after : Text} (noSlash : '/' ∉ authority)
    (single : ¬ ['/', '/'] <+: path)
    (whole : authority ++ path = before ++ ([':', '/', '/'] ++ after)) :
    ∃ more, before = authority ++ more ∧ path = more ++ ([':', '/', '/'] ++ after) := by
  rcases List.append_eq_append_iff.mp whole with ⟨more, rfl, behind⟩ | ⟨left, rfl, behind⟩
  · exact ⟨more, rfl, behind⟩
  · -- The mark begins inside the authority, which has no slash.
    match left with
    | [] =>
        rw [List.nil_append] at behind
        exact ⟨[], by simp, behind.symm⟩
    | [_] =>
        have tail := (List.cons.inj behind).2
        exact absurd ⟨after, tail⟩ single
    | c :: d :: left =>
        have slash : '/' = d := (List.cons.inj (List.cons.inj behind).2).1
        exact absurd (by simp [← slash]) noSlash

theorem mark_infix_iff (noSlash : '/' ∉ authority) (single : ¬ ['/', '/'] <+: path) :
    [':', '/', '/'] <:+: authority ++ path ↔ [':', '/', '/'] <:+: path := by
  constructor
  · rintro ⟨before, after, whole⟩
    rw [List.append_assoc] at whole
    obtain ⟨more, _, behind⟩ := mark_in_path noSlash single whole.symm
    exact ⟨more, after, by rw [List.append_assoc, behind]⟩
  · exact fun occurs => occurs.trans (List.suffix_append authority path).isInfix

theorem parseUrl_http (rest : Text) : parseUrl ("http://".toList ++ rest) = partsOf false rest := by
  have cut := splitAt_append (List.cons_ne_nil _ _) (firstAt_scheme false) rest
  exact parseUrl_of_some cut

/-- Omitting the scheme means `http`, unless there is a `://` further on. -/
theorem parseUrl_without_scheme_iff {authority path : Text} (noSlash : '/' ∉ authority)
    (rooted : path = [] ∨ path.head? = some '/') (single : ¬ "//".toList <+: path) :
    parseUrl (authority ++ path) = parseUrl ("http://".toList ++ authority ++ path) ↔
      ¬ "://".toList <:+: path := by
  change _ ↔ ¬ [':', '/', '/'] <:+: path
  rw [List.append_assoc, parseUrl_http, ← mark_infix_iff noSlash single]
  cases cut : splitAt [':', '/', '/'] (authority ++ path) with
  | none =>
      have absent := (splitAt_eq_none_iff (List.cons_ne_nil _ _)).mp cut
      exact iff_of_true (parseUrl_of_none cut) absent
  | some parts =>
      obtain ⟨before, after⟩ := parts
      obtain ⟨whole, _⟩ := (splitAt_eq_some_iff (List.cons_ne_nil _ _)).mp cut
      refine iff_of_false ?_ (not_not.mpr ⟨before, after, whole.symm⟩)
      intro same
      rw [List.append_assoc] at whole
      obtain ⟨more, rfl, behind⟩ := mark_in_path noSlash single whole
      obtain ⟨tail, rfl⟩ : ∃ tail, path = '/' :: tail := by
        rcases rooted with rfl | rooted
        · simp at behind
        · exact ⟨_, List.eq_cons_of_mem_head? rooted⟩
      -- The path that is found is a part of what is behind the `://`.
      have paths := congrArg UrlParts.path same
      rw [parseUrl_of_some cut] at paths
      simp only [partsOf, splitPath_authority noSlash] at paths
      have short := length_splitPath_le after
      rw [paths, behind] at short
      simp only [List.length_append, List.length_cons, List.length_nil] at short
      omega

/-- A path whose query has a colon. -/
theorem parseUrl_without_scheme_query :
    parseUrl ("host:8080".toList ++ "/x?t=12:30".toList) =
      parseUrl ("http://".toList ++ "host:8080".toList ++ "/x?t=12:30".toList) :=
  (parseUrl_without_scheme_iff (by decide) (by decide) (by decide)).mpr (by decide)

/-- A path that has a URL in its query: the host of that URL is taken. -/
theorem parseUrl_without_scheme_nested :
    '/' ∉ "host".toList ∧ "/x?u=http://b".toList.head? = some '/' ∧
      ¬ "//".toList <+: "/x?u=http://b".toList ∧
      parseUrl ("host".toList ++ "/x?u=http://b".toList) =
        { host := "b".toList, port := "80".toList, path := "/".toList, tls := false } ∧
      parseUrl ("http://".toList ++ "host".toList ++ "/x?u=http://b".toList) =
        { host := "host".toList, port := "80".toList, path := "/x?u=http://b".toList
          tls := false } := by
  decide +kernel

/-! ## Secure schemes -/

/-- The scheme of a URL that asks for TLS, in any letter case. -/
def AsksTls (scheme : Text) : Prop :=
  scheme.map Char.toLower ∈ ["https".toList, "wss".toList]

theorem isSecure_iff :
    isSecure scheme = true ↔ scheme = "https".toList ∨ scheme = "wss".toList := by
  simp only [isSecure, Bool.or_eq_true, decide_eq_true_eq]

/-- A scheme counts if it is written in lower case. -/
theorem AsksTls.isSecure_iff (asks : AsksTls scheme) :
    isSecure scheme = true ↔ scheme.map Char.toLower = scheme := by
  rw [Url.isSecure_iff]
  constructor
  · rintro (rfl | rfl) <;> decide
  · intro lower
    rw [AsksTls, lower] at asks
    simpa using asks

theorem AsksTls.notMem_colon (asks : AsksTls scheme) : ':' ∉ scheme := by
  intro member
  have colon : ':' ∈ scheme.map Char.toLower := List.mem_map.mpr ⟨':', member, by decide⟩
  simp only [AsksTls, List.mem_cons, List.not_mem_nil, or_false] at asks
  rcases asks with name | name <;>
  · rw [name] at colon
    revert colon
    decide

theorem notMem_colon_of_isSecure (secure : isSecure scheme = true) : ':' ∉ scheme := by
  rcases isSecure_iff.mp secure with rfl | rfl <;> decide

theorem firstAt_mark (noColon : ':' ∉ scheme) : FirstAt [':', '/', '/'] scheme := by
  induction scheme with
  | nil => exact firstAt_nil (List.cons_ne_nil _ _)
  | cons c scheme induction =>
      rw [List.mem_cons, not_or] at noColon
      have other : ¬ [':', '/', '/'] <+: c :: (scheme ++ [':', '/', '/'] ++ []) := by
        intro begins
        exact noColon.1 (List.cons_prefix_cons.mp begins).1
      exact (firstAt_cons (List.cons_ne_nil _ _) other).mpr (induction noColon.2)

theorem parseUrl_secure (secure : isSecure scheme = true) (rest : Text) :
    parseUrl (scheme ++ ':' :: '/' :: '/' :: rest) = partsOf true rest := by
  have first := firstAt_mark (notMem_colon_of_isSecure secure)
  have cut := splitAt_append (List.cons_ne_nil _ _) first rest
  rw [List.append_assoc] at cut
  rw [← secure]
  exact parseUrl_of_some cut

/-- TLS is used only for a scheme that counts and is followed by two slashes. -/
theorem parseUrl_tls_iff (noColon : ':' ∉ scheme) :
    (parseUrl (scheme ++ ':' :: rest)).tls = true ↔
      isSecure scheme = true ∧ "//".toList <+: rest := by
  constructor
  · intro tls
    cases cut : splitAt [':', '/', '/'] (scheme ++ ':' :: rest) with
    | none =>
        rw [parseUrl_of_none cut] at tls
        cases tls
    | some parts =>
        obtain ⟨before, after⟩ := parts
        rw [parseUrl_of_some cut] at tls
        have secure : isSecure before = true := tls
        obtain ⟨whole, _⟩ := (splitAt_eq_some_iff (List.cons_ne_nil _ _)).mp cut
        rw [List.append_assoc] at whole
        -- Both texts are cut at their first colon.
        have ofScheme := splitAt_char noColon rest
        have ofBefore := splitAt_char (notMem_colon_of_isSecure secure) ('/' :: '/' :: after)
        rw [whole] at ofScheme
        obtain ⟨rfl, rfl⟩ := Prod.mk.inj (Option.some.inj (ofScheme.symm.trans ofBefore))
        exact ⟨secure, ⟨after, rfl⟩⟩
  · rintro ⟨secure, after, rfl⟩
    have parsed := parseUrl_secure secure after
    exact congrArg UrlParts.tls parsed

/-! ## The port -/

/-- What is taken for the port of an authority: the text behind the brackets of a literal
and a colon, or behind the first colon. -/
inductive TakenPort : Text → Text → Prop where
  | literal {address port : Text} : ']' ∉ address →
      TakenPort ('[' :: (address ++ ']' :: ':' :: port)) port
  | named {host port : Text} : ':' ∉ host → host.head? ≠ some '[' →
      TakenPort (host ++ ':' :: port) port

theorem TakenPort.splitHostPort_eq {hostPort port : Text} (taken : TakenPort hostPort port)
    (otherwise : Text) : (splitHostPort hostPort otherwise).2 = port := by
  cases taken with
  | @literal address _ closed =>
      have absent : ']' ∉ '[' :: address := by simp [closed]
      have cut := splitAt_char absent (':' :: port)
      rw [List.cons_append] at cut
      rw [splitHostPort, if_pos (by simp), cut]
      rfl
  | @named host _ noColon other =>
      have unbracketed : (host ++ ':' :: port).head? ≠ some '[' := by
        cases host with
        | nil => simp
        | cons c host => simpa using other
      rw [splitHostPort, if_neg (fun both => unbracketed both.2), splitAt_char noColon]

theorem splitHostPort_of_not_taken {hostPort : Text} (untaken : ∀ port, ¬ TakenPort hostPort port)
    (otherwise : Text) : (splitHostPort hostPort otherwise).2 = otherwise := by
  unfold splitHostPort
  split
  · rename_i bracketed
    split
    · rename_i literal port cut
      obtain ⟨rfl, first⟩ := (splitAt_eq_some_iff (List.cons_ne_nil _ _)).mp cut
      have closed := firstAt_singleton.mp first
      cases literal with
      | nil => simp at bracketed
      | cons c address =>
          obtain rfl : c = '[' := by simpa using bracketed.2
          rw [List.mem_cons, not_or] at closed
          have taken : TakenPort ('[' :: (address ++ ']' :: ':' :: port)) port :=
            .literal closed.2
          exact absurd (by simpa using taken) (untaken port)
    · rfl
    · rfl
  · rename_i unbracketed
    split
    · rename_i host port cut
      obtain ⟨rfl, first⟩ := (splitAt_eq_some_iff (List.cons_ne_nil _ _)).mp cut
      have noColon := firstAt_singleton.mp first
      refine absurd ?_ (untaken port)
      rw [List.append_assoc]
      refine .named noColon fun bracket => unbracketed ⟨?_, ?_⟩
      · cases host with
        | nil => cases bracket
        | cons c host => simp
      · cases host with
        | nil => cases bracket
        | cons c host => simpa using bracket
    · rfl

theorem splitPath_fst (rest : Text) : (splitPath rest).1 = rest.takeWhile (· ≠ '/') := by
  unfold splitPath
  split
  · rename_i hostPort path cut
    obtain ⟨rfl, first⟩ := (splitAt_eq_some_iff (List.cons_ne_nil _ _)).mp cut
    have noSlash := firstAt_singleton.mp first
    rw [List.append_assoc, takeWhile_append_of_stopsAt]
    · intro c member
      simpa using fun slash : c = '/' => noSlash (slash ▸ member)
    · exact stopsAt_cons.mpr (by simp)
  · rename_i absent
    rw [splitAt_eq_none_iff (List.cons_ne_nil _ _), List.singleton_infix_iff] at absent
    rw [List.takeWhile_eq_self_iff.mpr]
    intro c member
    simpa using fun slash : c = '/' => absent (slash ▸ member)

/-- The authority of a URL, from what is behind the two slashes. -/
def authorityOf (behind : Text) : Text :=
  behind.takeWhile fun c => c ≠ '/' && c ≠ '?' && c ≠ '#'

/-- A URL gives a port if its authority ends in a colon and digits.  Before them is the
host, with brackets around a literal, and before the host there can be a user part that ends
in an `@`. -/
def GivesPort (rest : Text) : Prop :=
  ∃ behind user host port, rest = "//".toList ++ behind ∧
    authorityOf behind = user ++ (host ++ ':' :: port) ∧ IsNumeral port ∧
    (user = [] ∨ user.getLast? = some '@') ∧ '@' ∉ host ∧
    (':' ∉ host ∨ host.head? = some '[' ∧ host.getLast? = some ']')

end Cppload.Url
