import Cppload.TextScan

/-!
# Paths of the vault

`sanitize_path` first deletes the characters that do not belong into a path and then the
segments `.` and `..`.  The second pass works on the segments that the first one leaves,
and neither joins two segments, so that no dot segment comes back.
-/

namespace Cppload.Core

/-- The characters that `sanitize_path` keeps. -/
def isPathChar (c : Char) : Bool :=
  c = '/' || c = '-' || c = '_' || c = '.' || c = '~' ||
    ('a' ≤ c && c ≤ 'z') || ('A' ≤ c && c ≤ 'Z') || ('0' ≤ c && c ≤ '9')

def isDotSegment (segment : Text) : Bool :=
  segment = ['.'] || segment = ['.', '.']

def segments (path : Text) : List Text :=
  path.splitOn '/'

/-- The loop of `sanitize_path`, from a position on.  Every round but the last goes past a
slash. -/
def dropDotsLoop : ℕ → Text → Text
  | 0, _ => []
  | fuel + 1, text =>
      let segment := text.takeWhile (· ≠ '/')
      match text.dropWhile (· ≠ '/') with
      | [] => if isDotSegment segment then [] else segment
      | _ :: rest =>
          (if isDotSegment segment then [] else segment ++ ['/']) ++ dropDotsLoop fuel rest

def sanitizePath (path : Text) : Text :=
  let result := path.filter isPathChar
  if '.' ∉ result then result else dropDotsLoop (result.length + 1) result

/-- The request target of `get_secret`, `get_secret_map` and `put_secret`. -/
def apiPath (enginePath path : Text) : Text :=
  "/v1/".toList ++ sanitizePath enginePath ++ "/data/".toList ++ sanitizePath path

/-! ## Segments -/

/-- The segments that are left of a path.  When the last one is dropped, the slash before
it stays. -/
def keptSegments (parts : List Text) : List Text :=
  parts.filter (fun part => !isDotSegment part) ++
    if (parts.getLast?.any isDotSegment) then [[]] else []

theorem mem_segments_notMem {path segment : Text} (member : segment ∈ segments path) :
    '/' ∉ segment := by
  induction path generalizing segment with
  | nil => simp_all [segments]
  | cons c path induction =>
      rw [segments, List.splitOn_cons_eq_if_modifyHead] at member
      split at member
      · rcases List.mem_cons.mp member with rfl | later
        · simp
        · exact induction later
      · rename_i other
        obtain ⟨first, rest, equal⟩ := List.exists_cons_of_ne_nil (List.splitOn_ne_nil '/' path)
        rw [equal, List.modifyHead_cons] at member
        rcases List.mem_cons.mp member with rfl | later
        · have absent : '/' ∉ first := induction (by simp [segments, equal])
          have different : ¬ '/' = c := fun same => other (by simp [← same])
          simp [absent, different]
        · exact induction (by simp [segments, equal, later])

theorem mem_intercalate_slash {parts : List Text} {c : Char} :
    c ∈ ['/'].intercalate parts ↔
      (c = '/' ∧ 1 < parts.length) ∨ ∃ part ∈ parts, c ∈ part := by
  induction parts with
  | nil => simp
  | cons part parts induction =>
      rcases parts with _ | ⟨next, rest⟩
      · simp
      · rw [List.intercalate_cons_of_ne_nil (by simp)]
        simp only [List.mem_append, List.mem_singleton, induction, List.length_cons,
          List.exists_mem_cons_iff]
        grind

theorem segments_ne_nil (path : Text) : segments path ≠ [] :=
  List.splitOn_ne_nil '/' path

theorem segments_append_slash (first second : Text) :
    segments (first ++ '/' :: second) = segments first ++ segments second :=
  List.splitOn_append_cons_self first second

/-- A path without a slash is its only segment; otherwise the first slash ends the first
segment. -/
theorem segments_eq (path : Text) :
    segments path =
      path.takeWhile (· ≠ '/') ::
        match path.dropWhile (· ≠ '/') with
        | [] => []
        | _ :: rest => segments rest := by
  have absent : '/' ∉ path.takeWhile (· ≠ '/') := by
    intro member
    simpa using List.mem_takeWhile_imp member
  have parts : path.takeWhile (· ≠ '/') ++ path.dropWhile (· ≠ '/') = path :=
    List.takeWhile_append_dropWhile
  have stops := Text.stopsAt_dropWhile (fun c => decide (c ≠ '/')) path
  cases left : path.dropWhile (· ≠ '/') with
  | nil =>
      rw [left, List.append_nil] at parts
      rw [parts] at absent ⊢
      exact List.splitOn_eq_singleton absent
  | cons c rest =>
      rw [left] at stops parts
      obtain rfl : c = '/' := by simpa using stops
      nth_rewrite 1 [← parts]
      exact List.splitOn_append_cons_self_of_not_mem absent rest

theorem mem_of_mem_segments {path part : Text} {c : Char} (member : part ∈ segments path)
    (inside : c ∈ part) : c ∈ path := by
  have joined : c ∈ ['/'].intercalate (segments path) :=
    mem_intercalate_slash.mpr (Or.inr ⟨part, member, inside⟩)
  rwa [segments, List.intercalate_splitOn] at joined

theorem dropWhile_slash {path rest : Text} {c : Char}
    (left : path.dropWhile (· ≠ '/') = c :: rest) : c = '/' := by
  have stops : Text.StopsAt (· ≠ '/') (c :: rest) := left ▸ Text.stopsAt_dropWhile _ path
  simpa using stops

theorem segments_of_slash {path rest : Text} {c : Char}
    (left : path.dropWhile (· ≠ '/') = c :: rest) :
    segments path = path.takeWhile (· ≠ '/') :: segments rest := by
  rw [segments_eq, left]

theorem keptSegments_singleton (part : Text) :
    keptSegments [part] = if isDotSegment part then [[]] else [part] := by
  cases dot : isDotSegment part <;> simp [keptSegments, dot]

theorem keptSegments_cons (part : Text) {parts : List Text} (more : parts ≠ []) :
    keptSegments (part :: parts) =
      (if isDotSegment part then [] else [part]) ++ keptSegments parts := by
  have last : (part :: parts).getLast? = parts.getLast? := by
    obtain ⟨next, rest, rfl⟩ := List.exists_cons_of_ne_nil more
    rfl
  rw [keptSegments, keptSegments, last, ← List.append_assoc]
  congr 1
  cases dot : isDotSegment part <;> simp [dot]

theorem keptSegments_ne_nil {parts : List Text} (nonempty : parts ≠ []) :
    keptSegments parts ≠ [] := by
  induction parts with
  | nil => exact absurd rfl nonempty
  | cons part parts induction =>
      by_cases more : parts = []
      · subst more
        rw [keptSegments_singleton]
        split <;> simp
      · rw [keptSegments_cons part more]
        simp [induction more]

theorem mem_keptSegments {parts : List Text} {part : Text}
    (member : part ∈ keptSegments parts) :
    isDotSegment part = false ∧ (part = [] ∨ part ∈ parts) := by
  rcases List.mem_append.mp member with kept | last
  · obtain ⟨inside, notDot⟩ := List.mem_filter.mp kept
    exact ⟨by simpa using notDot, Or.inr inside⟩
  · split at last
    · rw [List.mem_singleton.mp last]
      exact ⟨rfl, Or.inl rfl⟩
    · simp at last

theorem keptSegments_eq_self {parts : List Text}
    (clean : ∀ part ∈ parts, isDotSegment part = false) : keptSegments parts = parts := by
  have last : parts.getLast?.any isDotSegment = false := by
    cases found : parts.getLast? with
    | none => rfl
    | some part => exact clean part (List.mem_of_getLast? found)
  rw [keptSegments, last, List.filter_eq_self.mpr fun part member => by simp [clean part member]]
  simp

theorem dropDotsLoop_eq {fuel : ℕ} {text : Text} (enough : text.length < fuel) :
    dropDotsLoop fuel text = ['/'].intercalate (keptSegments (segments text)) := by
  induction fuel generalizing text with
  | zero => omega
  | succ fuel induction =>
      simp only [dropDotsLoop]
      split
      · rename_i left
        rw [segments_eq, left, keptSegments_singleton]
        split <;> simp
      · rename_i c rest left
        have shorter : rest.length < text.length := by
          have drop := (List.dropWhile_suffix (l := text) (· ≠ '/')).length_le
          rw [left, List.length_cons] at drop
          omega
        rw [segments_of_slash left, keptSegments_cons _ (segments_ne_nil rest),
          induction (by omega)]
        split
        · simp
        · rw [List.singleton_append,
            List.intercalate_cons_of_ne_nil (keptSegments_ne_nil (segments_ne_nil rest))]

/-- What `sanitize_path` computes: the kept segments of the filtered text.  The shortcut
for texts without a dot makes no difference. -/
theorem sanitizePath_eq (path : Text) :
    sanitizePath path =
      ['/'].intercalate (keptSegments (segments (path.filter isPathChar))) := by
  simp only [sanitizePath]
  split
  · rename_i noDot
    rw [keptSegments_eq_self, segments, List.intercalate_splitOn]
    intro part member
    rw [isDotSegment, Bool.or_eq_false_iff]
    have absent : '.' ∉ part := fun dot => noDot (mem_of_mem_segments member dot)
    constructor
    · simpa using fun equal => absent (by simp [equal])
    · simpa using fun equal => absent (by simp [equal])
  · exact dropDotsLoop_eq (Nat.lt_succ_self _)

theorem segments_sanitizePath (path : Text) :
    segments (sanitizePath path) = keptSegments (segments (path.filter isPathChar)) := by
  rw [sanitizePath_eq, segments, List.splitOn_intercalate]
  · intro part member
    rcases (mem_keptSegments member).2 with rfl | inside
    · simp
    · exact mem_segments_notMem inside
  · exact keptSegments_ne_nil (segments_ne_nil _)

theorem isDotSegment_sanitizePath {path part : Text}
    (member : part ∈ segments (sanitizePath path)) : isDotSegment part = false := by
  rw [segments_sanitizePath] at member
  exact (mem_keptSegments member).1

theorem isPathChar_sanitizePath {path : Text} {c : Char} (member : c ∈ sanitizePath path) :
    isPathChar c := by
  rw [sanitizePath_eq] at member
  rcases mem_intercalate_slash.mp member with ⟨rfl, _⟩ | ⟨part, kept, inside⟩
  · rfl
  · rcases (mem_keptSegments kept).2 with rfl | found
    · simp at inside
    · exact List.of_mem_filter (mem_of_mem_segments found inside)

theorem sanitizePath_idempotent (path : Text) :
    sanitizePath (sanitizePath path) = sanitizePath path := by
  have same : (sanitizePath path).filter isPathChar = sanitizePath path :=
    List.filter_eq_self.mpr fun _ member => isPathChar_sanitizePath member
  rw [sanitizePath_eq, same,
    keptSegments_eq_self fun _ member => isDotSegment_sanitizePath member]
  exact List.intercalate_splitOn '/'

/-! ## The request target -/

theorem isPathChar_apiPath {enginePath path : Text} {c : Char}
    (member : c ∈ apiPath enginePath path) : isPathChar c := by
  rcases List.mem_append.mp member with front | secret
  · rcases List.mem_append.mp front with mount | second
    · rcases List.mem_append.mp mount with first | engine
      · exact List.all_eq_true.mp (by decide : "/v1/".toList.all isPathChar = true) c first
      · exact isPathChar_sanitizePath engine
    · exact List.all_eq_true.mp (by decide : "/data/".toList.all isPathChar = true) c second
  · exact isPathChar_sanitizePath secret

/-- The target cut at its own slashes. -/
theorem apiPath_eq (enginePath path : Text) :
    apiPath enginePath path =
      [] ++ '/' :: ("v1".toList ++ '/' :: (sanitizePath enginePath ++
        '/' :: ("data".toList ++ '/' :: sanitizePath path))) := by
  have mount : "/v1/".toList = '/' :: ("v1".toList ++ ['/']) := by decide
  have data : "/data/".toList = '/' :: ("data".toList ++ ['/']) := by decide
  change "/v1/".toList ++ sanitizePath enginePath ++ "/data/".toList ++ sanitizePath path = _
  rw [mount, data]
  simp only [List.append_assoc, List.cons_append, List.nil_append]

theorem segments_apiPath (enginePath path : Text) :
    segments (apiPath enginePath path) =
      [[], "v1".toList] ++ segments (sanitizePath enginePath) ++
        ["data".toList] ++ segments (sanitizePath path) := by
  have whole : segments [] = [[]] ∧ segments "v1".toList = ["v1".toList] ∧
      segments "data".toList = ["data".toList] := by decide
  rw [apiPath_eq]
  simp only [segments_append_slash]
  rw [whole.1, whole.2.1, whole.2.2]
  simp

theorem isDotSegment_apiPath {enginePath path part : Text}
    (member : part ∈ segments (apiPath enginePath path)) : isDotSegment part = false := by
  simp only [segments_apiPath, List.mem_append, List.mem_cons, List.not_mem_nil, or_false,
    or_assoc] at member
  rcases member with rfl | rfl | engine | rfl | secret
  · rfl
  · rfl
  · exact isDotSegment_sanitizePath engine
  · rfl
  · exact isDotSegment_sanitizePath secret

/-! ## Dot-segment removal

What a client or server does to a target before it looks at it: the rules of generic URIs,
one round of the loop at a time. -/

/-- The output without its last segment and the slash before it. -/
def dropLastSegment (output : Text) : Text :=
  ((output.reverse.dropWhile (· ≠ '/')).drop 1).reverse

def removeDotSegmentsLoop : ℕ → Text → Text → Text
  | 0, _, output => output
  | fuel + 1, input, output =>
      if input = [] then output
      else if "../".toList.isPrefixOf input then removeDotSegmentsLoop fuel (input.drop 3) output
      else if "./".toList.isPrefixOf input then removeDotSegmentsLoop fuel (input.drop 2) output
      else if "/./".toList.isPrefixOf input then removeDotSegmentsLoop fuel (input.drop 2) output
      else if input = "/.".toList then removeDotSegmentsLoop fuel ['/'] output
      else if "/../".toList.isPrefixOf input then
        removeDotSegmentsLoop fuel (input.drop 3) (dropLastSegment output)
      else if input = "/..".toList then
        removeDotSegmentsLoop fuel ['/'] (dropLastSegment output)
      else if input = ".".toList ∨ input = "..".toList then output
      else
        -- The first segment, with the slash before it if there is one.
        let first := input.take 1 ++ (input.drop 1).takeWhile (· ≠ '/')
        removeDotSegmentsLoop fuel ((input.drop 1).dropWhile (· ≠ '/')) (output ++ first)

def removeDotSegments (path : Text) : Text :=
  removeDotSegmentsLoop (path.length + 1) path []

example : removeDotSegments "/a/b/c/./../../g".toList = "/a/g".toList := by decide +kernel

/-- A round that meets no dot segment moves a segment to the output. -/
theorem removeDotSegmentsLoop_slash {fuel : ℕ} {rest output : Text}
    (plain : isDotSegment (rest.takeWhile (· ≠ '/')) = false) :
    removeDotSegmentsLoop (fuel + 1) ('/' :: rest) output =
      removeDotSegmentsLoop fuel (rest.dropWhile (· ≠ '/'))
        (output ++ '/' :: rest.takeWhile (· ≠ '/')) := by
  have single : ¬ "/./".toList.isPrefixOf ('/' :: rest) := by
    intro found
    obtain ⟨tail, equal⟩ := List.isPrefixOf_iff_prefix.mp found
    have split : rest = '.' :: '/' :: tail := by simpa using equal.symm
    simp [split, isDotSegment] at plain
  have double : ¬ "/../".toList.isPrefixOf ('/' :: rest) := by
    intro found
    obtain ⟨tail, equal⟩ := List.isPrefixOf_iff_prefix.mp found
    have split : rest = '.' :: '.' :: '/' :: tail := by simpa using equal.symm
    simp [split, isDotSegment] at plain
  have atEnd : '/' :: rest ≠ "/.".toList ∧ '/' :: rest ≠ "/..".toList := by
    constructor
    · intro equal
      have split : rest = ['.'] := by simpa using equal
      simp [split, isDotSegment] at plain
    · intro equal
      have split : rest = ['.', '.'] := by simpa using equal
      simp [split, isDotSegment] at plain
  rw [removeDotSegmentsLoop, if_neg (by simp), if_neg (by simp), if_neg (by simp),
    if_neg single, if_neg atEnd.1, if_neg double, if_neg atEnd.2, if_neg (by simp)]
  rfl

theorem rooted_dropWhile (rest : Text) :
    rest.dropWhile (· ≠ '/') = [] ∨ (rest.dropWhile (· ≠ '/')).head? = some '/' := by
  cases left : rest.dropWhile (· ≠ '/') with
  | nil => exact Or.inl rfl
  | cons c tail => exact Or.inr (by rw [dropWhile_slash left]; rfl)

/-- Going past a segment leaves only segments that were there, and empty ones. -/
theorem plain_of_dropWhile {rest part : Text}
    (plain : ∀ part ∈ segments rest, isDotSegment part = false)
    (member : part ∈ segments (rest.dropWhile (· ≠ '/'))) : isDotSegment part = false := by
  cases left : rest.dropWhile (· ≠ '/') with
  | nil =>
      rw [left] at member
      rw [List.mem_singleton.mp member]
      rfl
  | cons c tail =>
      rw [left, dropWhile_slash left, ← List.nil_append ('/' :: tail),
        segments_append_slash] at member
      rcases List.mem_append.mp member with empty | inside
      · rw [List.mem_singleton.mp empty]
        rfl
      · refine plain part ?_
        rw [segments_of_slash left]
        exact List.mem_cons_of_mem _ inside

theorem removeDotSegmentsLoop_eq_append {fuel : ℕ} {input output : Text}
    (enough : input.length < fuel) (rooted : input = [] ∨ input.head? = some '/')
    (clean : ∀ part ∈ segments input, isDotSegment part = false) :
    removeDotSegmentsLoop fuel input output = output ++ input := by
  induction fuel generalizing input output with
  | zero => omega
  | succ fuel induction =>
      rcases input with _ | ⟨c, rest⟩
      · simp [removeDotSegmentsLoop]
      have slash : c = '/' := by simpa using rooted
      subst slash
      have split : segments ('/' :: rest) = [[]] ++ segments rest :=
        segments_append_slash [] rest
      have plain : ∀ part ∈ segments rest, isDotSegment part = false :=
        fun part member => clean part (by rw [split]; exact List.mem_append_right _ member)
      have first : rest.takeWhile (· ≠ '/') ∈ segments rest := by
        rw [segments_eq]
        split <;> simp
      have shorter := (List.dropWhile_suffix (l := rest) (· ≠ '/')).length_le
      simp only [List.length_cons] at enough
      rw [removeDotSegmentsLoop_slash (plain _ first), induction (by omega)]
      · rw [List.append_assoc, List.cons_append, List.takeWhile_append_dropWhile]
      · exact rooted_dropWhile rest
      · exact fun part member => plain_of_dropWhile plain member

theorem removeDotSegments_eq_self {path : Text} (rooted : path.head? = some '/')
    (clean : ∀ part ∈ segments path, isDotSegment part = false) :
    removeDotSegments path = path :=
  removeDotSegmentsLoop_eq_append (Nat.lt_succ_self _) (Or.inr rooted) clean

/-- A request of the vault client stays below its mount, whatever the two paths are. -/
theorem apiPath_confined (enginePath path : Text) :
    (∀ c ∈ apiPath enginePath path, isPathChar c) ∧
      (∀ part ∈ segments (apiPath enginePath path), isDotSegment part = false) ∧
      removeDotSegments (apiPath enginePath path) = apiPath enginePath path ∧
      "/v1/".toList ++ sanitizePath enginePath ++ "/data/".toList <+:
        apiPath enginePath path ∧
      (∀ text : Text,
        sanitizePath (sanitizePath text) = sanitizePath text ∧
          segments (sanitizePath text) =
            keptSegments (segments (text.filter isPathChar))) := by
  refine ⟨fun _ member => isPathChar_apiPath member, fun _ member => isDotSegment_apiPath member,
    removeDotSegments_eq_self (by rw [apiPath_eq]; rfl) fun _ member => isDotSegment_apiPath member,
    List.prefix_append _ _, ?_⟩
  intro text
  exact ⟨sanitizePath_idempotent text, segments_sanitizePath text⟩

end Cppload.Core
