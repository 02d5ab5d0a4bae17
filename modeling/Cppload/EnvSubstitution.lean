import Cppload.YamlTree

/-!
# Environment variables in scalars

A scalar is made of pieces: literal text, and groups from `${` to the next `}`.
Substituting the environment replaces each group once, from left to right, and copies
the rest; what was put in is not looked at again.  The pieces are a property of the text
alone.  Over a document this is so for scalars that are reached once: through an alias a
scalar is reached again, after it has been written to.
-/

namespace Cppload

open Text

/-! ## The pieces of a text -/

/-- Literal text, or a group with its name and the default behind `:-`. -/
inductive Piece where
  | literal (text : Text)
  | group (name : Text) (default : Option Text)
  deriving DecidableEq, Repr

/-- The name of a group is what is before the first `:-`. -/
inductive GroupParts : Text → Text → Option Text → Prop where
  | bare {expr : Text} : ¬ [':', '-'] <:+: expr → GroupParts expr expr none
  | default {name fallback : Text} : FirstAt [':', '-'] name →
      GroupParts (name ++ [':', '-'] ++ fallback) name (some fallback)

/-- No group is closed in the text. -/
def Literal (text : Text) : Prop :=
  ∀ before expr after, text ≠ before ++ ['$', '\x7b'] ++ (expr ++ '\x7d' :: after)

/-- A text in which no group is closed is literal.  Otherwise the first `${` begins a
group that ends at the next `}`, and the pieces of the rest follow. -/
inductive Parses : Text → List Piece → Prop where
  | literal {text : Text} : Literal text → Parses text [.literal text]
  | group {before expr after name : Text} {default : Option Text} {pieces : List Piece} :
      FirstAt ['$', '\x7b'] before → '\x7d' ∉ expr → GroupParts expr name default →
      Parses after pieces →
      Parses (before ++ ['$', '\x7b'] ++ (expr ++ '\x7d' :: after))
        (.literal before :: .group name default :: pieces)

namespace Piece

variable (env : Text → Option Text)

/-- A name that is looked up and has a value that is not empty. -/
def Resolved (name : Text) : Prop :=
  validEnvName name = true ∧ (env name).getD [] ≠ []

instance (name : Text) : Decidable (Resolved env name) :=
  inferInstanceAs (Decidable (_ ∧ _))

/-- What a piece is replaced by. -/
def replacement : Piece → Text
  | .literal text => text
  | .group name default => if Resolved env name then (env name).getD [] else default.getD []

/-- The name of a group that has neither a value nor a default. -/
def unresolved : Piece → Option Text
  | .literal _ => none
  | .group name default =>
      if validEnvName name = true ∧ (env name).getD [] = [] ∧ default = none then some name
      else none

end Piece

/-- `first_missing` after some names that are missing. -/
def firstMissing (missing : Text) (names : List Text) : Text :=
  if missing = [] then names.head?.getD [] else missing

/-! ### Computing the pieces -/

def piecesLoop : ℕ → Text → List Piece
  | 0, text => [.literal text]
  | fuel + 1, text =>
      match splitAt ['$', '\x7b'] text with
      | none => [.literal text]
      | some (before, rest) =>
          match splitAt ['\x7d'] rest with
          | none => [.literal text]
          | some (expr, after) =>
              .literal before :: .group (envGroup expr).1 (envGroup expr).2 ::
                piecesLoop fuel after

def piecesOf (text : Text) : List Piece :=
  piecesLoop text.length text

theorem groupParts_envGroup (expr : Text) :
    GroupParts expr (envGroup expr).1 (envGroup expr).2 := by
  unfold envGroup
  split
  · rename_i name fallback found
    obtain ⟨rfl, first⟩ := (splitAt_eq_some_iff (by decide)).mp found
    exact .default first
  · rename_i absent
    exact .bare ((splitAt_eq_none_iff (by decide)).mp absent)

theorem GroupParts.eq_envGroup {expr name : Text} {default : Option Text}
    (parts : GroupParts expr name default) : envGroup expr = (name, default) := by
  cases parts with
  | bare absent => rw [envGroup, (splitAt_eq_none_iff (by decide)).mpr absent]
  | default first => rw [envGroup, splitAt_append (by decide) first]

section Loop

variable {text before rest expr after : Text} {fuel : ℕ}

theorem piecesLoop_of_none (absent : splitAt ['$', '\x7b'] text = none) :
    piecesLoop fuel text = [.literal text] := by
  cases fuel with
  | zero => rfl
  | succ fuel => rw [piecesLoop, absent]

theorem piecesLoop_of_unclosed (opened : splitAt ['$', '\x7b'] text = some (before, rest))
    (unclosed : splitAt ['\x7d'] rest = none) : piecesLoop fuel text = [.literal text] := by
  cases fuel with
  | zero => rfl
  | succ fuel => simp only [piecesLoop, opened, unclosed]

theorem piecesLoop_of_closed (opened : splitAt ['$', '\x7b'] text = some (before, rest))
    (closed : splitAt ['\x7d'] rest = some (expr, after)) :
    piecesLoop (fuel + 1) text =
      .literal before :: .group (envGroup expr).1 (envGroup expr).2 :: piecesLoop fuel after := by
  simp only [piecesLoop, opened, closed]

/-- A text has no closed group if its first `${` is not closed. -/
theorem literal_of_unclosed
    (unclosed : ∀ before rest, splitAt ['$', '\x7b'] text = some (before, rest) → '\x7d' ∉ rest) :
    Literal text := by
  rintro before expr after rfl
  cases found : splitAt ['$', '\x7b'] (before ++ ['$', '\x7b'] ++ (expr ++ '\x7d' :: after)) with
  | none =>
      apply (splitAt_eq_none_iff (by decide)).mp found
      exact ⟨before, expr ++ '\x7d' :: after, rfl⟩
  | some parts =>
      obtain ⟨front, rest⟩ := parts
      obtain ⟨whole, first⟩ := (splitAt_eq_some_iff (by decide)).mp found
      have behind : expr ++ '\x7d' :: after <:+ rest := first.suffix whole
      exact unclosed front rest found (behind.subset (by simp))

end Loop

/-- With enough fuel the loop finds the pieces. -/
theorem parses_piecesLoop {fuel : ℕ} {text : Text} (enough : text.length ≤ fuel) :
    Parses text (piecesLoop fuel text) := by
  induction fuel generalizing text with
  | zero =>
      obtain rfl := List.eq_nil_of_length_eq_zero (Nat.le_zero.mp enough)
      exact .literal (by simp [Literal])
  | succ fuel ih =>
      cases opened : splitAt ['$', '\x7b'] text with
      | none =>
          rw [piecesLoop_of_none opened]
          apply Parses.literal
          apply literal_of_unclosed
          intro before rest found
          cases opened.symm.trans found
      | some parts =>
          obtain ⟨before, rest⟩ := parts
          cases closed : splitAt ['\x7d'] rest with
          | none =>
              rw [piecesLoop_of_unclosed opened closed]
              apply Parses.literal
              apply literal_of_unclosed
              intro front back found
              obtain ⟨rfl, rfl⟩ := Prod.mk.inj (Option.some.inj (opened.symm.trans found))
              rw [splitAt_eq_none_iff (by decide), List.singleton_infix_iff] at closed
              exact closed
          | some parts =>
              obtain ⟨expr, after⟩ := parts
              rw [piecesLoop_of_closed opened closed]
              obtain ⟨rfl, first⟩ := (splitAt_eq_some_iff (by decide)).mp opened
              obtain ⟨rfl, absent⟩ := (splitAt_eq_some_iff (by decide)).mp closed
              rw [List.append_assoc expr, List.singleton_append]
              apply Parses.group first (firstAt_singleton.mp absent) (groupParts_envGroup expr)
              apply ih
              simp only [List.length_append, List.length_cons, List.length_nil] at enough
              omega

/-- The pieces of a text are determined. -/
theorem Parses.eq_piecesLoop {text : Text} {pieces : List Piece} (parses : Parses text pieces)
    {fuel : ℕ} (enough : text.length ≤ fuel) : piecesLoop fuel text = pieces := by
  induction parses generalizing fuel with
  | @literal text unclosed =>
      cases opened : splitAt ['$', '\x7b'] text with
      | none => exact piecesLoop_of_none opened
      | some parts =>
          obtain ⟨before, rest⟩ := parts
          apply piecesLoop_of_unclosed opened
          rw [splitAt_eq_none_iff (by decide), List.singleton_infix_iff]
          intro member
          obtain ⟨expr, after, rfl⟩ := List.append_of_mem member
          exact unclosed before expr after ((splitAt_eq_some_iff (by decide)).mp opened).1
  | @group before expr after name default pieces first absent parts _ ih =>
      have opened := splitAt_append (by decide : ['$', '\x7b'] ≠ []) first
        (expr ++ '\x7d' :: after)
      have closed := splitAt_char absent after
      simp only [List.length_append, List.length_cons, List.length_nil] at enough
      obtain ⟨fuel, rfl⟩ := Nat.exists_eq_add_of_le' (by omega : 1 ≤ fuel)
      rw [piecesLoop_of_closed opened closed, parts.eq_envGroup, ih (by omega)]

theorem Parses.eq_piecesOf {text : Text} {pieces : List Piece} (parses : Parses text pieces) :
    piecesOf text = pieces :=
  parses.eq_piecesLoop le_rfl

theorem parses_piecesOf (text : Text) : Parses text (piecesOf text) :=
  parses_piecesLoop le_rfl

/-! ## Replacing the groups of a text -/

section Replacement

variable (env : Text → Option Text)

/-- A text with its groups replaced. -/
def replaced (text : Text) : Text :=
  (piecesOf text).flatMap (Piece.replacement env)

/-- The names in a text that have neither a value nor a default. -/
def missingNames (text : Text) : List Text :=
  (piecesOf text).filterMap (Piece.unresolved env)

theorem envValue_eq (expr : Text) :
    envValue env expr =
      (Piece.group (envGroup expr).1 (envGroup expr).2).replacement env := by
  simp only [envValue, Piece.replacement, Piece.Resolved]
  by_cases valid : validEnvName (envGroup expr).1 = true
  · by_cases empty : (env (envGroup expr).1).getD [] = []
    · simp only [valid, empty, ↓reduceIte, ne_eq, not_true, and_false]
    · simp only [valid, empty, ↓reduceIte, ne_eq, not_false_eq_true, and_self]
  · simp only [valid, Bool.false_eq_true, ↓reduceIte, false_and]

@[simp] theorem firstMissing_nil (missing : Text) : firstMissing missing [] = missing := by
  unfold firstMissing
  split
  · rename_i empty
    exact empty.symm
  · rfl

theorem firstMissing_of_nonempty {missing : Text} (known : missing ≠ []) (names : List Text) :
    firstMissing missing names = missing :=
  if_neg known

theorem firstMissing_ne_nil (missing : Text) {names : List Text} (present : names ≠ [])
    (nonempty : ∀ name ∈ names, name ≠ []) : firstMissing missing names ≠ [] := by
  unfold firstMissing
  split
  · obtain ⟨first, rest, rfl⟩ := List.exists_cons_of_ne_nil present
    exact nonempty first List.mem_cons_self
  · assumption

/-- Names that are not empty can be noted in two portions. -/
theorem firstMissing_append {names : List Text} (nonempty : ∀ name ∈ names, name ≠ [])
    (missing : Text) (others : List Text) :
    firstMissing missing (names ++ others) = firstMissing (firstMissing missing names) others := by
  by_cases empty : missing = []
  · subst empty
    cases names with
    | nil => rfl
    | cons name names =>
        have noted : firstMissing [] (name :: names) = name := rfl
        rw [noted, firstMissing_of_nonempty (nonempty name List.mem_cons_self)]
        rfl
  · rw [firstMissing_of_nonempty empty, firstMissing_of_nonempty empty,
      firstMissing_of_nonempty empty]

theorem envMissing_eq (expr missing : Text) :
    envMissing env expr missing =
      firstMissing missing
        ((Piece.group (envGroup expr).1 (envGroup expr).2).unresolved env).toList := by
  simp only [envMissing, Piece.unresolved]
  by_cases unset : validEnvName (envGroup expr).1 = true ∧
      (env (envGroup expr).1).getD [] = [] ∧ (envGroup expr).2 = none
  · rw [if_pos unset]
    by_cases first : missing = []
    · rw [if_pos ⟨unset.1, unset.2.1, unset.2.2, first⟩, first]
      rfl
    · rw [if_neg fun noted => first noted.2.2.2, firstMissing_of_nonempty first]
  · rw [if_neg unset, if_neg fun noted => unset ⟨noted.1, noted.2.1, noted.2.2.1⟩]
    exact (firstMissing_nil missing).symm

theorem ne_nil_of_valid {name : Text} (valid : validEnvName name = true) : name ≠ [] := by
  rintro rfl
  cases valid

theorem Piece.unresolved_eq_some_iff {piece : Piece} {name : Text} :
    piece.unresolved env = some name ↔
      piece = .group name none ∧ validEnvName name = true ∧ (env name).getD [] = [] := by
  cases piece with
  | literal text => simp [Piece.unresolved]
  | group other default =>
      rw [Piece.unresolved, Option.ite_none_right_eq_some, Option.some.injEq, Piece.group.injEq]
      constructor
      · rintro ⟨⟨valid, empty, bare⟩, rfl⟩
        exact ⟨⟨rfl, bare⟩, valid, empty⟩
      · rintro ⟨⟨rfl, bare⟩, valid, empty⟩
        exact ⟨⟨valid, empty, bare⟩, rfl⟩

theorem mem_missingNames_iff {text name : Text} :
    name ∈ missingNames env text ↔
      .group name none ∈ piecesOf text ∧ validEnvName name = true ∧ (env name).getD [] = [] := by
  simp only [missingNames, List.mem_filterMap, Piece.unresolved_eq_some_iff]
  constructor
  · rintro ⟨piece, member, rfl, missing⟩
    exact ⟨member, missing⟩
  · rintro ⟨member, missing⟩
    exact ⟨_, member, rfl, missing⟩

theorem ne_nil_of_mem_missingNames {text name : Text} (member : name ∈ missingNames env text) :
    name ≠ [] :=
  ne_nil_of_valid ((mem_missingNames_iff env).mp member).2.1

theorem filterMap_cons_eq (piece : Piece) (pieces : List Piece) :
    (piece :: pieces).filterMap (Piece.unresolved env) =
      (piece.unresolved env).toList ++ pieces.filterMap (Piece.unresolved env) := by
  rw [List.filterMap_cons]
  cases piece.unresolved env with
  | none => rfl
  | some name => rfl

theorem replace_literal (text missing : Text) :
    (([.literal text] : List Piece).flatMap (Piece.replacement env),
      firstMissing missing (([.literal text] : List Piece).filterMap (Piece.unresolved env))) =
      (text, missing) := by
  rw [List.flatMap_singleton, List.filterMap_cons_none rfl, List.filterMap_nil, firstMissing_nil]
  rfl

/-- The loop replaces piece by piece. -/
theorem substituteLoop_eq (fuel : ℕ) (text missing : Text) :
    substituteLoop env fuel text missing =
      ((piecesLoop fuel text).flatMap (Piece.replacement env),
        firstMissing missing ((piecesLoop fuel text).filterMap (Piece.unresolved env))) := by
  induction fuel generalizing text missing with
  | zero => exact (replace_literal env text missing).symm
  | succ fuel ih =>
      cases opened : splitAt ['$', '\x7b'] text with
      | none =>
          rw [piecesLoop_of_none opened, replace_literal]
          simp only [substituteLoop, opened]
      | some parts =>
          obtain ⟨before, rest⟩ := parts
          cases closed : splitAt ['\x7d'] rest with
          | none =>
              rw [piecesLoop_of_unclosed opened closed, replace_literal]
              simp only [substituteLoop, opened, closed]
          | some parts =>
              obtain ⟨expr, after⟩ := parts
              -- The literal in front is copied; the group is replaced and noted once.
              rw [piecesLoop_of_closed opened closed]
              simp only [substituteLoop, opened, closed]
              have nonempty : ∀ name ∈ ((Piece.group (envGroup expr).1
                  (envGroup expr).2).unresolved env).toList, name ≠ [] := by
                intro name member
                have unset := (Piece.unresolved_eq_some_iff env).mp (Option.mem_toList.mp member)
                exact ne_nil_of_valid unset.2.1
              rw [ih, envValue_eq, envMissing_eq, ← firstMissing_append nonempty,
                List.flatMap_cons, List.flatMap_cons, ← List.append_assoc,
                List.filterMap_cons_none rfl, filterMap_cons_eq]
              rfl

theorem substituteText_eq (text missing : Text) :
    substituteText env text missing =
      (replaced env text, firstMissing missing (missingNames env text)) :=
  substituteLoop_eq env text.length text missing

end Replacement

theorem Literal.replaced_eq {text : Text} (literal : Literal text) (env : Text → Option Text) :
    replaced env text = text := by
  rw [replaced, (Parses.literal literal).eq_piecesOf, List.flatMap_singleton]
  rfl

theorem Literal.missingNames_eq {text : Text} (literal : Literal text)
    (env : Text → Option Text) : missingNames env text = [] := by
  rw [missingNames, (Parses.literal literal).eq_piecesOf]
  rfl

/-! ## The scalars of a document -/

namespace Outline

mutual

/-- The scalars of a document in their order, the keys of maps excepted. -/
def visits : Outline → List ℕ
  | .null => []
  | .scalar node => [node]
  | .sequence items => itemVisits items
  | .map entries => entryVisits entries

def itemVisits : List Outline → List ℕ
  | [] => []
  | item :: rest => item.visits ++ itemVisits rest

def entryVisits : List (Outline × Outline) → List ℕ
  | [] => []
  | (_, value) :: rest => value.visits ++ entryVisits rest

end

end Outline

section Document

variable (env : Text → Option Text)

mutual

/-- The document is gone through scalar by scalar. -/
theorem substituteEnv_eq_foldl (outline : Outline) (state : EnvState) :
    substituteEnv env outline state = outline.visits.foldl (EnvState.visit env) state := by
  cases outline with
  | null => simp [substituteEnv, Outline.visits]
  | scalar node => simp [substituteEnv, Outline.visits]
  | sequence items =>
      simp only [substituteEnv, Outline.visits, substituteItems_eq_foldl items state]
  | map entries =>
      simp only [substituteEnv, Outline.visits, substituteEntries_eq_foldl entries state]

theorem substituteItems_eq_foldl (items : List Outline) (state : EnvState) :
    substituteItems env items state =
      (Outline.itemVisits items).foldl (EnvState.visit env) state := by
  cases items with
  | nil => simp [substituteItems, Outline.itemVisits]
  | cons item rest =>
      simp only [substituteItems, Outline.itemVisits, List.foldl_append,
        substituteEnv_eq_foldl item state, substituteItems_eq_foldl rest]

theorem substituteEntries_eq_foldl (entries : List (Outline × Outline)) (state : EnvState) :
    substituteEntries env entries state =
      (Outline.entryVisits entries).foldl (EnvState.visit env) state := by
  cases entries with
  | nil => simp [substituteEntries, Outline.entryVisits]
  | cons entry rest =>
      obtain ⟨key, value⟩ := entry
      simp only [substituteEntries, Outline.entryVisits, List.foldl_append,
        substituteEnv_eq_foldl value state, substituteEntries_eq_foldl rest]

end

theorem EnvState.visit_eq (state : EnvState) (node : ℕ) :
    state.visit env node =
      ⟨Function.update state.texts node (replaced env (state.texts node)),
        firstMissing state.missing (missingNames env (state.texts node))⟩ := by
  simp only [visit, substituteText_eq]

/-- The texts that are met: a scalar that was reached before has been replaced so often. -/
def textsMet (texts : ℕ → Text) (nodes : List ℕ) : List Text :=
  nodes.mapIdx fun position node => (replaced env)^[(nodes.take position).count node] (texts node)

theorem textsMet_cons (texts : ℕ → Text) (node : ℕ) (rest : List ℕ) :
    textsMet env texts (node :: rest) =
      texts node ::
        textsMet env (Function.update texts node (replaced env (texts node))) rest := by
  unfold textsMet
  rw [List.mapIdx_cons]
  refine congrArg (texts node :: ·) (List.mapIdx_eq_mapIdx_iff.mpr fun position within => ?_)
  rw [List.take_succ_cons]
  by_cases same : rest[position] = node
  · rw [same, List.count_cons_self, Function.iterate_succ_apply, Function.update_self]
  · rw [List.count_cons_of_ne (Ne.symm same), Function.update_of_ne same]

theorem flatMap_missingNames_nonempty (texts : List Text) :
    ∀ name ∈ texts.flatMap (missingNames env), name ≠ [] := by
  intro name member
  obtain ⟨text, -, found⟩ := List.mem_flatMap.mp member
  exact ne_nil_of_mem_missingNames env found

/-- Going through some scalars replaces each of them as often as it is reached, and notes
the first name that is missing in the texts as they are met. -/
theorem foldl_visit (nodes : List ℕ) (state : EnvState) :
    nodes.foldl (EnvState.visit env) state =
      ⟨fun node => (replaced env)^[nodes.count node] (state.texts node),
        firstMissing state.missing
          ((textsMet env state.texts nodes).flatMap (missingNames env))⟩ := by
  induction nodes generalizing state with
  | nil => simp [textsMet]
  | cons first rest ih =>
      rw [List.foldl_cons, ih, EnvState.visit_eq, textsMet_cons, List.flatMap_cons,
        firstMissing_append fun name => ne_nil_of_mem_missingNames env]
      congr 1
      funext node
      dsimp only
      by_cases same : node = first
      · rw [same, List.count_cons_self, Function.iterate_succ_apply, Function.update_self]
      · rw [List.count_cons_of_ne (Ne.symm same), Function.update_of_ne same]

/-- The texts of a document after the substitution. -/
def Document.finalTexts (document : Document) (node : ℕ) : Text :=
  (replaced env)^[document.outline.visits.count node] (document.texts node)

/-- The names without a value and a default, in the order in which they are met. -/
def Document.unsetNames (document : Document) : List Text :=
  (textsMet env document.texts document.outline.visits).flatMap (missingNames env)

theorem Document.substituted_eq (document : Document) :
    document.substituted env =
      (document.outline.fill (document.finalTexts env),
        firstMissing [] (document.unsetNames env)) := by
  simp only [substituted, substituteEnv_eq_foldl, foldl_visit]
  rfl

/-! ### Scalars that are reached again -/

/-- If a scalar that is reached again is literal by then, the names that are missing are
those of the texts as they were written. -/
theorem firstMissing_textsMet {texts : ℕ → Text} {nodes : List ℕ}
    (settled : ∀ node, 1 < nodes.count node → Literal (replaced env (texts node)))
    (missing : Text) :
    firstMissing missing ((textsMet env texts nodes).flatMap (missingNames env)) =
      firstMissing missing ((nodes.map texts).flatMap (missingNames env)) := by
  induction nodes generalizing texts missing with
  | nil => rfl
  | cons first rest ih =>
      have again : first ∈ rest → Literal (replaced env (texts first)) := fun member =>
        settled first (by
          rw [List.count_cons_self]
          exact Nat.succ_lt_succ (List.count_pos_iff.mpr member))
      rw [textsMet_cons, List.map_cons, List.flatMap_cons, List.flatMap_cons,
        firstMissing_append fun name => ne_nil_of_mem_missingNames env,
        firstMissing_append fun name => ne_nil_of_mem_missingNames env, ih]
      · by_cases complete : missingNames env (texts first) = []
        · -- Nothing is missing in the scalar, neither now nor when it is reached again.
          rw [List.flatMap_map, List.flatMap_map]
          refine congrArg _ (List.flatMap_congr fun node member => ?_)
          by_cases same : node = first
          · subst same
            rw [Function.update_self, complete, (again member).missingNames_eq]
          · rw [Function.update_of_ne same]
        · -- A name is noted by now, and it stays the first.
          have noted := firstMissing_ne_nil missing complete fun name =>
            ne_nil_of_mem_missingNames env
          rw [firstMissing_of_nonempty noted, firstMissing_of_nonempty noted]
      · intro node twice
        by_cases same : node = first
        · subst same
          have literal := again (List.count_pos_iff.mp (by omega))
          rw [Function.update_self, literal.replaced_eq]
          exact literal
        · rw [Function.update_of_ne same]
          exact settled node (by rwa [List.count_cons_of_ne (Ne.symm same)])

/-- Such a scalar comes out as if it had been replaced once. -/
theorem Document.finalTexts_of_settled {document : Document} {node : ℕ}
    (settled : 1 < document.outline.visits.count node →
      Literal (replaced env (document.texts node))) :
    document.finalTexts env node =
      if node ∈ document.outline.visits then replaced env (document.texts node)
      else document.texts node := by
  unfold finalTexts
  split
  · rename_i member
    obtain ⟨more, countEq⟩ := Nat.exists_eq_add_of_lt (List.count_pos_iff.mpr member)
    rw [countEq, Nat.zero_add] at settled ⊢
    rw [Function.iterate_succ_apply]
    cases more with
    | zero => rfl
    | succ more => exact Function.iterate_fixed ((settled (by omega)).replaced_eq env) _
  · rename_i absent
    rw [List.count_eq_zero.mpr absent]
    rfl

/-- What a text is replaced by, and its names that are missing. -/
def Replaces (text result : Text) (names : List Text) : Prop :=
  ∃ pieces, Parses text pieces ∧ result = pieces.flatMap (Piece.replacement env) ∧
    names = pieces.filterMap (Piece.unresolved env)

theorem replaces_replaced (text : Text) :
    Replaces env text (replaced env text) (missingNames env text) :=
  ⟨piecesOf text, parses_piecesOf text, rfl, rfl⟩

theorem Replaces.names_eq {text result : Text} {names : List Text}
    (replaces : Replaces env text result names) : names = missingNames env text := by
  obtain ⟨pieces, parses, -, rfl⟩ := replaces
  rw [missingNames, parses.eq_piecesOf]

/-- The pieces of a text exist and are determined by the text, and the loop ends having
replaced each of them once.  Over a document in which no scalar that is reached more than
once is left with a closed group, every scalar is replaced so, and `first_missing` is the
first of the missing names in the order of the document. -/
theorem substituteEnv_single_pass :
    (∀ text, ∃ pieces, Parses text pieces ∧ (∀ others, Parses text others → others = pieces) ∧
      ∀ missing fuel, text.length ≤ fuel →
        substituteLoop env fuel text missing =
          (pieces.flatMap (Piece.replacement env),
            firstMissing missing (pieces.filterMap (Piece.unresolved env)))) ∧
    ∃ (change : Text → Text) (names : Text → List Text),
      (∀ text, Replaces env text (change text) (names text)) ∧
      ∀ document : Document,
        (∀ node, 1 < document.outline.visits.count node →
          Literal (change (document.texts node))) →
        document.substituted env =
          (document.outline.fill fun node =>
              if node ∈ document.outline.visits then change (document.texts node)
              else document.texts node,
            ((document.outline.visits.map document.texts).flatMap names).head?.getD []) := by
  constructor
  · intro text
    refine ⟨piecesOf text, parses_piecesOf text, ?_, ?_⟩
    · intro others parses
      exact parses.eq_piecesOf.symm
    · intro missing fuel enough
      rw [substituteLoop_eq, (parses_piecesOf text).eq_piecesLoop enough]
  · refine ⟨replaced env, missingNames env, replaces_replaced env, fun document settled => ?_⟩
    have once := funext fun node => Document.finalTexts_of_settled env (settled node)
    rw [Document.substituted_eq, Document.unsetNames, firstMissing_textsMet env settled]
    exact congrArg (fun texts => (document.outline.fill texts, _)) once

-- A value that looks like a group is not looked at again; what is not closed is copied.
example :
    substituteText (fun name => if name = "A".toList then some "$\x7bB\x7d".toList else none)
        "x$\x7bA\x7d-$\x7bno:-1\x7d$\x7bB\x7d$\x7b.\x7d$\x7bopen".toList [] =
      ("x$\x7bB\x7d-1$\x7bopen".toList, "B".toList) := by
  decide +kernel

/-- The value of the variable `A` is a group. -/
def groupValue (name : Text) : Option Text :=
  if name = "A".toList then some "$\x7bB\x7d".toList else none

/-- `test_id: &id "${A}"` and `target: {base_url: *id}`. -/
def aliasedBaseUrl : Document where
  outline := .map [(.scalar 0, .scalar 1), (.scalar 2, .map [(.scalar 3, .scalar 1)])]
  texts := numbered ["test_id", "$\x7bA\x7d", "target", "base_url"]

/-- The scalar is replaced by a group that the alias makes be replaced as well, and
`first_missing` is a name that is nowhere in the document. -/
theorem substituteEnv_rescans_alias :
    (∃ names, Replaces groupValue (aliasedBaseUrl.texts 1) "$\x7bB\x7d".toList names) ∧
    (∀ node ∈ aliasedBaseUrl.outline.visits, ∀ result names,
      Replaces groupValue (aliasedBaseUrl.texts node) result names → names = []) ∧
    aliasedBaseUrl.finalTexts groupValue 1 = [] ∧
    (aliasedBaseUrl.substituted groupValue).2 = "B".toList := by
  have group : replaced groupValue (aliasedBaseUrl.texts 1) = "$\x7bB\x7d".toList := by
    decide +kernel
  refine ⟨⟨_, group ▸ replaces_replaced groupValue _⟩, ?_, by decide +kernel,
    by decide +kernel⟩
  intro node member result names replaces
  have same : node = 1 := by
    simpa [aliasedBaseUrl, Outline.visits, Outline.entryVisits] using member
  rw [replaces.names_eq, same]
  decide +kernel

end Document

end Cppload
