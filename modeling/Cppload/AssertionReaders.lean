import Cppload.Assertions

/-!
# The validator and the evaluator of assertions

On which expressions the validator finds the identifier and the operator that the
evaluator finds.  An expression that the evaluator accepts is `Spaced`: identifier,
operator and operand stand between blanks.  The validator scans a run of blanks and
operator characters and takes the blanks out of it (`Scanned`).  The two agree exactly
on the expressions for which that run is a single operator between blanks, with
something behind it, and on those that have neither of the two forms.
-/

namespace Cppload.Scenario

open Text

/-! ## Characters -/

theorem isSpace_of_isOpChar {c : Char} (op : isOpChar c = true) : isSpace c = false := by
  simp only [isOpChar, Bool.or_eq_true, decide_eq_true_eq] at op
  rcases op with ((rfl | rfl) | rfl) | rfl <;> decide

theorem isIdentChar_of_isSpace {c : Char} (space : isSpace c = true) :
    isIdentChar c = false := by
  simp only [isSpace, Bool.or_eq_true, Bool.and_eq_true, decide_eq_true_eq] at space
  rcases space with rfl | ⟨low, high⟩
  · decide
  · have same := Char.ofNat_toNat c
    generalize c.toNat = code at *
    subst same
    interval_cases code <;> decide

theorem isIdentChar_of_isOpChar {c : Char} (op : isOpChar c = true) :
    isIdentChar c = false := by
  simp only [isOpChar, Bool.or_eq_true, decide_eq_true_eq] at op
  rcases op with ((rfl | rfl) | rfl) | rfl <;> decide

theorem isIdentChar_of_isOpOrSpace {c : Char} (skipped : isOpOrSpace c = true) :
    isIdentChar c = false := by
  rcases Bool.or_eq_true_iff.mp skipped with op | space
  · exact isIdentChar_of_isOpChar op
  · exact isIdentChar_of_isSpace space

/-- An identifier has no blanks. -/
theorem isSpace_of_isIdentChar {c : Char} (ident : isIdentChar c = true) :
    isSpace c = false := by
  by_contra space
  simp [isIdentChar_of_isSpace (Bool.eq_true_of_not_eq_false space)] at ident

theorem operators_spec {op : Text} (valid : op ∈ operators) :
    op ≠ [] ∧ ∀ c ∈ op, isOpChar c = true := by
  have all : ∀ op ∈ operators, op ≠ [] ∧ op.all isOpChar = true := by decide
  simpa using all op valid

/-! ## What the evaluator reads -/

theorem nextToken_append {lead word rest : Text} (blank : ∀ c ∈ lead, isSpace c = true)
    (nonempty : word ≠ []) (dense : ∀ c ∈ word, isSpace c = false)
    (stops : StopsAt (fun c => !isSpace c) rest) :
    nextToken (lead ++ (word ++ rest)) = (word, rest) := by
  have begins : StopsAt isSpace (word ++ rest) := by
    obtain ⟨first, more, rfl⟩ := List.exists_cons_of_ne_nil nonempty
    simp [dense]
  have dense' : ∀ c ∈ word, (!isSpace c) = true := fun c member => by simp [dense c member]
  unfold nextToken
  rw [dropWhile_append_of_stopsAt blank begins]
  exact Prod.ext (takeWhile_append_of_stopsAt dense' stops)
    (dropWhile_append_of_stopsAt dense' stops)

/-- A token that was read stands between blanks. -/
structure Cut (text lead word rest : Text) : Prop where
  text_eq : text = lead ++ (word ++ rest)
  blank : ∀ c ∈ lead, isSpace c = true
  dense : ∀ c ∈ word, isSpace c = false
  stops : StopsAt (fun c => !isSpace c) rest

theorem nextToken_cut (text : Text) :
    ∃ lead, Cut text lead (nextToken text).1 (nextToken text).2 := by
  refine ⟨text.takeWhile isSpace, ?_, forall_mem_takeWhile isSpace text, ?_, ?_⟩
  · simp [nextToken, List.takeWhile_append_dropWhile]
  · intro c member
    have dense := forall_mem_takeWhile _ _ c member
    simpa using dense
  · exact stopsAt_dropWhile _ _

/-- Between two tokens there is a blank. -/
theorem Cut.gap_nonempty {text lead word rest : Text} (cut : Cut text lead word rest)
    (afterToken : StopsAt (fun c => !isSpace c) text) (nonempty : word ≠ []) : lead ≠ [] := by
  rintro rfl
  obtain ⟨first, more, rfl⟩ := List.exists_cons_of_ne_nil nonempty
  have dense := cut.dense first (by simp)
  rw [cut.text_eq] at afterToken
  simp [dense] at afterToken

/-- The expression is an identifier, an operator and an operand with blanks between
them, after the blanks `lead`. -/
structure Spaced (expr lead identifier before op after operand : Text) : Prop where
  expr_eq : expr = lead ++ (identifier ++ (before ++ (op ++ (after ++ operand))))
  lead : ∀ c ∈ lead, isSpace c = true
  identifier_nonempty : identifier ≠ []
  identifier : ∀ c ∈ identifier, isIdentChar c = true
  before_nonempty : before ≠ []
  before : ∀ c ∈ before, isSpace c = true
  valid : op ∈ operators
  after_nonempty : after ≠ []
  after : ∀ c ∈ after, isSpace c = true
  operand_nonempty : operand ≠ []
  operand : StopsAt isSpace operand

theorem stopsAt_blank {blank : Text} (nonempty : blank ≠ [])
    (all : ∀ c ∈ blank, isSpace c = true) (rest : Text) :
    StopsAt (fun c => !isSpace c) (blank ++ rest) := by
  obtain ⟨first, more, rfl⟩ := List.exists_cons_of_ne_nil nonempty
  simp [all]

/-- Cutting off three tokens one after the other. -/
theorem tokens_cut (expr : Text) :
    ∃ lead before after rest₁ rest₂ rest₃,
      Cut expr lead (tokens expr).lhs rest₁ ∧ Cut rest₁ before (tokens expr).op rest₂ ∧
        Cut rest₂ after (tokens expr).rhs rest₃ := by
  obtain ⟨lead, first⟩ := nextToken_cut expr
  obtain ⟨before, second⟩ := nextToken_cut (nextToken expr).2
  obtain ⟨after, third⟩ := nextToken_cut (nextToken (nextToken expr).2).2
  exact ⟨lead, before, after, _, _, _, first, second, third⟩

theorem tokens_of_spaced {expr lead identifier before op after operand : Text}
    (spaced : Spaced expr lead identifier before op after operand) :
    (tokens expr).lhs = identifier ∧ (tokens expr).op = op ∧ (tokens expr).rhs ≠ [] := by
  have identDense : ∀ c ∈ identifier, isSpace c = false :=
    fun c member => isSpace_of_isIdentChar (spaced.identifier c member)
  have opDense : ∀ c ∈ op, isSpace c = false :=
    fun c member => isSpace_of_isOpChar ((operators_spec spaced.valid).2 c member)
  have first := nextToken_append spaced.lead spaced.identifier_nonempty identDense
    (stopsAt_blank spaced.before_nonempty spaced.before (op ++ (after ++ operand)))
  have second := nextToken_append spaced.before (operators_spec spaced.valid).1 opDense
    (stopsAt_blank spaced.after_nonempty spaced.after operand)
  have third : (nextToken (after ++ operand)).1 ≠ [] := by
    obtain ⟨start, more, rfl⟩ := List.exists_cons_of_ne_nil spaced.operand_nonempty
    have dense := stopsAt_cons.mp spaced.operand
    unfold nextToken
    rw [dropWhile_append_of_stopsAt spaced.after spaced.operand]
    simp [dense]
  rw [spaced.expr_eq]
  simp only [tokens, first, second]
  exact ⟨trivial, trivial, third⟩

theorem evaluatorReads_eq_some_iff {expr identifier op : Text} :
    evaluatorReads expr = some (identifier, op) ↔
      ∃ lead before after operand,
        Spaced expr lead identifier before op after operand := by
  simp only [evaluatorReads, Option.ite_none_right_eq_some, Option.some.injEq, Prod.mk.injEq,
    List.all_eq_true]
  constructor
  · rintro ⟨⟨lhsNonempty, lhsIdent, valid, rhsNonempty⟩, rfl, rfl⟩
    obtain ⟨lead, before, after, rest₁, rest₂, rest₃, first, second, third⟩ := tokens_cut expr
    refine ⟨lead, before, after, (tokens expr).rhs ++ rest₃, ?_, first.blank, lhsNonempty,
      lhsIdent, second.gap_nonempty first.stops (operators_spec valid).1, second.blank, valid,
      third.gap_nonempty second.stops rhsNonempty, third.blank, by simp [rhsNonempty], ?_⟩
    · rw [← third.text_eq, ← second.text_eq, ← first.text_eq]
    · obtain ⟨start, more, rhsEq⟩ := List.exists_cons_of_ne_nil rhsNonempty
      have dense := third.dense start (by simp [rhsEq])
      simp [rhsEq, dense]
  · rintro ⟨lead, before, after, operand, spaced⟩
    obtain ⟨lhsEq, opEq, rhsNonempty⟩ := tokens_of_spaced spaced
    rw [lhsEq, opEq]
    exact ⟨⟨spaced.identifier_nonempty, spaced.identifier, spaced.valid, rhsNonempty⟩, rfl, rfl⟩

/-! ## What the validator reads -/

/-- The expression is an identifier, a run of blanks and operator characters, and
what follows. -/
structure Scanned (expr identifier run operand : Text) : Prop where
  expr_eq : expr = identifier ++ (run ++ operand)
  identifier_nonempty : identifier ≠ []
  identifier : ∀ c ∈ identifier, isIdentChar c = true
  run : ∀ c ∈ run, isOpOrSpace c = true
  operand : StopsAt isOpOrSpace operand

/-- The blanks and operator characters behind the identifier. -/
def opRun (expr : Text) : Text :=
  (expr.dropWhile isIdentChar).takeWhile isOpOrSpace

/-- What follows them. -/
def afterOp (expr : Text) : Text :=
  (expr.dropWhile isIdentChar).dropWhile isOpOrSpace

/-- An operator without the blanks around and in it. -/
def withoutSpace (run : Text) : Text :=
  run.filter fun c => !isSpace c

theorem withoutSpace_blank {blank : Text} (all : ∀ c ∈ blank, isSpace c = true) :
    withoutSpace blank = [] := by
  simpa [withoutSpace] using all

theorem withoutSpace_op {op : Text} (all : ∀ c ∈ op, isOpChar c = true) :
    withoutSpace op = op := by
  simp only [withoutSpace, List.filter_eq_self]
  intro c member
  simp [isSpace_of_isOpChar (all c member)]

theorem Scanned.opRun_eq {expr identifier run operand : Text}
    (scanned : Scanned expr identifier run operand) (nonempty : run ≠ []) :
    opRun expr = run ∧ afterOp expr = operand ∧ expr.takeWhile isIdentChar = identifier := by
  have stops : StopsAt isIdentChar (run ++ operand) := by
    obtain ⟨first, more, rfl⟩ := List.exists_cons_of_ne_nil nonempty
    simp [isIdentChar_of_isOpOrSpace (scanned.run first (by simp))]
  unfold opRun afterOp
  rw [scanned.expr_eq, dropWhile_append_of_stopsAt scanned.identifier stops,
    takeWhile_append_of_stopsAt scanned.run scanned.operand,
    dropWhile_append_of_stopsAt scanned.run scanned.operand,
    takeWhile_append_of_stopsAt scanned.identifier stops]
  exact ⟨rfl, rfl, rfl⟩

/-- The blanks that are skipped before the operator change nothing. -/
theorem withoutSpace_opRun (expr : Text) :
    withoutSpace (opRun expr) =
      withoutSpace (((expr.dropWhile isIdentChar).dropWhile isSpace).takeWhile isOpOrSpace) := by
  unfold opRun
  generalize expr.dropWhile isIdentChar = rest
  have blank := forall_mem_takeWhile isSpace rest
  have skipped : ∀ c ∈ rest.takeWhile isSpace, isOpOrSpace c = true := by
    intro c member
    simp [isOpOrSpace, blank c member]
  calc withoutSpace (rest.takeWhile isOpOrSpace)
    _ = withoutSpace
          ((rest.takeWhile isSpace ++ rest.dropWhile isSpace).takeWhile isOpOrSpace) := by
        rw [List.takeWhile_append_dropWhile]
    _ = withoutSpace
          (rest.takeWhile isSpace ++ (rest.dropWhile isSpace).takeWhile isOpOrSpace) := by
        rw [List.takeWhile_append_of_pos skipped]
    _ = withoutSpace ((rest.dropWhile isSpace).takeWhile isOpOrSpace) := by
        rw [withoutSpace, List.filter_append, ← withoutSpace, withoutSpace_blank blank]
        rfl

theorem validatorReads_eq_some_iff {expr identifier op : Text} :
    validatorReads expr = some (identifier, op) ↔
      (identifier ≠ [] ∧ op ∈ operators) ∧
        expr.takeWhile isIdentChar = identifier ∧ withoutSpace (opRun expr) = op := by
  rw [withoutSpace_opRun]
  unfold validatorReads checkAssertionFormat
  have noEmpty : ([] : Text) ∉ operators := by decide
  by_cases empty : expr = []
  · simp only [empty, if_true, Except.toOption, List.takeWhile_nil]
    tauto
  by_cases noIdentifier : expr.takeWhile isIdentChar = []
  · simp only [empty, noIdentifier, if_true, if_false, Except.toOption]
    tauto
  generalize ((expr.dropWhile isIdentChar).dropWhile isSpace).takeWhile isOpOrSpace = run
  by_cases noRun : run = []
  · simp only [empty, noIdentifier, noRun, if_true, if_false, Except.toOption, withoutSpace,
      List.filter_nil]
    constructor
    · intro read
      cases read
    · rintro ⟨⟨-, valid⟩, -, rfl⟩
      exact absurd valid noEmpty
  · simp only [empty, noIdentifier, noRun, if_false]
    change (if withoutSpace run ∈ operators then _ else _ : Except String (Text × Text)).toOption =
      _ ↔ _
    split
    · simp only [Except.toOption, Option.some.injEq, Prod.mk.injEq]
      constructor
      · rintro ⟨rfl, rfl⟩
        exact ⟨⟨noIdentifier, by assumption⟩, rfl, rfl⟩
      · exact fun read => read.2
    · simp only [Except.toOption]
      constructor
      · intro read
        cases read
      · rintro ⟨⟨-, valid⟩, -, rfl⟩
        contradiction

theorem expr_eq_scan (expr : Text) :
    expr = expr.takeWhile isIdentChar ++ (opRun expr ++ afterOp expr) := by
  rw [opRun, afterOp, List.takeWhile_append_dropWhile, List.takeWhile_append_dropWhile]

theorem Scanned.of_scan {expr : Text} (nonempty : expr.takeWhile isIdentChar ≠ []) :
    Scanned expr (expr.takeWhile isIdentChar) (opRun expr) (afterOp expr) where
  expr_eq := expr_eq_scan expr
  identifier_nonempty := nonempty
  identifier := forall_mem_takeWhile isIdentChar expr
  run := forall_mem_takeWhile isOpOrSpace _
  operand := stopsAt_dropWhile isOpOrSpace _

/-- The validator accepts the expressions whose run is an operator without its
blanks. -/
theorem validatorReads_eq_some_iff_scanned {expr identifier op : Text} :
    validatorReads expr = some (identifier, op) ↔
      ∃ run operand, Scanned expr identifier run operand ∧ withoutSpace run = op ∧
        op ∈ operators := by
  rw [validatorReads_eq_some_iff]
  constructor
  · rintro ⟨⟨nonempty, valid⟩, rfl, opEq⟩
    exact ⟨opRun expr, afterOp expr, .of_scan nonempty, opEq, valid⟩
  · rintro ⟨run, operand, scanned, rfl, valid⟩
    have nonempty : run ≠ [] := by
      rintro rfl
      exact (operators_spec valid).1 rfl
    obtain ⟨runEq, -, identifierEq⟩ := scanned.opRun_eq nonempty
    exact ⟨⟨scanned.identifier_nonempty, valid⟩, identifierEq, by rw [runEq]⟩

/-! ## Where the two agree -/

/-- The expression does not begin with a blank, and if an operator character follows
the identifier then the operator is one word, with blanks on both sides and an operand
that begins with no operator character. -/
structure Plain (expr : Text) : Prop where
  noBlank : StopsAt isSpace expr
  separated : (∃ c ∈ opRun expr, isOpChar c = true) →
    ∃ before op after, opRun expr = before ++ (op ++ after) ∧
      (before ≠ [] ∧ ∀ c ∈ before, isSpace c = true) ∧ (∀ c ∈ op, isOpChar c = true) ∧
      (after ≠ [] ∧ ∀ c ∈ after, isSpace c = true) ∧ afterOp expr ≠ []

variable {expr identifier before op after operand : Text}

theorem withoutSpace_append (first second : Text) :
    withoutSpace (first ++ second) = withoutSpace first ++ withoutSpace second :=
  List.filter_append ..

theorem mem_opRun_of_withoutSpace (valid : op ∈ operators) (opEq : withoutSpace (opRun expr) = op) :
    ∃ c ∈ opRun expr, isOpChar c = true := by
  obtain ⟨nonempty, all⟩ := operators_spec valid
  obtain ⟨first, more, rfl⟩ := List.exists_cons_of_ne_nil nonempty
  have member : first ∈ withoutSpace (opRun expr) := by simp [opEq]
  exact ⟨first, (List.mem_filter.mp member).1, all first (by simp)⟩

/-- A plain expression is read by the evaluator as by the validator. -/
theorem Plain.evaluatorReads_of_validatorReads (plain : Plain expr)
    (read : validatorReads expr = some (identifier, op)) :
    evaluatorReads expr = some (identifier, op) := by
  obtain ⟨⟨nonempty, valid⟩, identifierEq, opEq⟩ := validatorReads_eq_some_iff.mp read
  obtain ⟨before, word, after, runEq, ⟨beforeNonempty, beforeBlank⟩, wordOp,
    ⟨afterNonempty, afterBlank⟩, operandNonempty⟩ :=
    plain.separated (mem_opRun_of_withoutSpace valid opEq)
  have wordEq : word = op := by
    rw [← opEq, runEq, withoutSpace_append, withoutSpace_append, withoutSpace_blank beforeBlank,
      withoutSpace_blank afterBlank, withoutSpace_op wordOp, List.append_nil, List.nil_append]
  subst wordEq
  have operand : StopsAt isSpace (afterOp expr) := by
    intro c first
    have stops := stopsAt_dropWhile isOpOrSpace (expr.dropWhile isIdentChar) c first
    exact (Bool.or_eq_false_iff.mp stops).2
  apply evaluatorReads_eq_some_iff.mpr
  refine ⟨[], before, after, afterOp expr, ?_, by simp, nonempty, ?_, beforeNonempty,
    beforeBlank, valid, afterNonempty, afterBlank, operandNonempty, operand⟩
  · have parts := expr_eq_scan expr
    rw [identifierEq, runEq] at parts
    simpa using parts
  · exact identifierEq ▸ forall_mem_takeWhile isIdentChar expr

/-- How the validator scans an expression that the evaluator accepts. -/
theorem Spaced.scan (spaced : Spaced expr [] identifier before op after operand) :
    opRun expr = before ++ (op ++ (after ++ operand.takeWhile isOpOrSpace)) ∧
      afterOp expr = operand.dropWhile isOpOrSpace ∧
        expr.takeWhile isIdentChar = identifier := by
  have blank (part : Text) (all : ∀ c ∈ part, isSpace c = true) :
      ∀ c ∈ part, isOpOrSpace c = true := fun c member => by simp [isOpOrSpace, all c member]
  have scanned : Scanned expr identifier
      (before ++ (op ++ (after ++ operand.takeWhile isOpOrSpace)))
      (operand.dropWhile isOpOrSpace) := by
    refine ⟨?_, spaced.identifier_nonempty, spaced.identifier, ?_, stopsAt_dropWhile _ _⟩
    · simpa [List.takeWhile_append_dropWhile] using spaced.expr_eq
    · intro c member
      simp only [List.mem_append] at member
      rcases member with inBefore | inOp | inAfter | inOperand
      · exact blank before spaced.before c inBefore
      · simp [isOpOrSpace, (operators_spec spaced.valid).2 c inOp]
      · exact blank after spaced.after c inAfter
      · exact forall_mem_takeWhile isOpOrSpace operand c inOperand
  exact scanned.opRun_eq (by simp [spaced.before_nonempty])

/-- The operand begins with no operator character if what the validator takes from it
is blank. -/
theorem Spaced.takeWhile_operand {lead : Text}
    (spaced : Spaced expr lead identifier before op after operand)
    (blank : ∀ c ∈ operand.takeWhile isOpOrSpace, isSpace c = true) :
    operand.takeWhile isOpOrSpace = [] := by
  obtain ⟨first, more, rfl⟩ := List.exists_cons_of_ne_nil spaced.operand_nonempty
  have dense := stopsAt_cons.mp spaced.operand
  by_contra nonempty
  have taken : isOpOrSpace first = true := by
    by_contra refused
    simp [refused] at nonempty
  have space := blank first (by simp [taken])
  simp [dense] at space

/-- Blanks at the beginning would be seen. -/
theorem Spaced.lead_eq_nil {lead : Text}
    (spaced : Spaced expr lead identifier before op after operand)
    (noBlank : StopsAt isSpace expr) : lead = [] := by
  cases lead with
  | nil => rfl
  | cons first more =>
      have space := spaced.lead first (by simp)
      rw [spaced.expr_eq] at noBlank
      simp [space] at noBlank

/-- A plain expression is read by the validator as by the evaluator. -/
theorem Plain.validatorReads_of_evaluatorReads (plain : Plain expr)
    (read : evaluatorReads expr = some (identifier, op)) :
    validatorReads expr = some (identifier, op) := by
  obtain ⟨lead, before, after, operand, spaced⟩ := evaluatorReads_eq_some_iff.mp read
  obtain rfl := spaced.lead_eq_nil plain.noBlank
  obtain ⟨runEq, -, identifierEq⟩ := spaced.scan
  obtain ⟨opNonempty, opAll⟩ := operators_spec spaced.valid
  have opDense : ∀ c ∈ op, isSpace c = false :=
    fun c member => isSpace_of_isOpChar (opAll c member)
  have hasOp : ∃ c ∈ opRun expr, isOpChar c = true := by
    obtain ⟨first, more, rfl⟩ := List.exists_cons_of_ne_nil opNonempty
    exact ⟨first, by simp [runEq], opAll first (by simp)⟩
  obtain ⟨blank, word, rest, runEq', ⟨-, blankAll⟩, wordOp, ⟨restNonempty, restAll⟩, -⟩ :=
    plain.separated hasOp
  have wordNonempty : word ≠ [] := by
    rintro rfl
    obtain ⟨c, member, isOp⟩ := hasOp
    rw [runEq'] at member
    have space : isSpace c = true := by
      rcases List.mem_append.mp member with inBlank | inRest
      · exact blankAll c inBlank
      · exact restAll c inRest
    simp [isSpace_of_isOpChar isOp] at space
  have wordDense : ∀ c ∈ word, isSpace c = false :=
    fun c member => isSpace_of_isOpChar (wordOp c member)
  -- Both ways of splitting the run have the operator as their first token.
  have byTokens : (op, after ++ operand.takeWhile isOpOrSpace) = (word, rest) := by
    rw [← nextToken_append spaced.before opNonempty opDense
        (stopsAt_blank spaced.after_nonempty spaced.after _), ← runEq, runEq']
    have stops := stopsAt_blank restNonempty restAll []
    rw [List.append_nil] at stops
    exact nextToken_append blankAll wordNonempty wordDense stops
  obtain ⟨rfl, rfl⟩ := Prod.mk.inj byTokens
  have nothing := spaced.takeWhile_operand fun c member => restAll c (by simp [member])
  refine validatorReads_eq_some_iff.mpr
    ⟨⟨spaced.identifier_nonempty, spaced.valid⟩, identifierEq, ?_⟩
  rw [runEq, nothing, List.append_nil, withoutSpace_append, withoutSpace_append,
    withoutSpace_blank spaced.before, withoutSpace_blank spaced.after, withoutSpace_op opAll,
    List.append_nil, List.nil_append]

/-- An expression that both read alike is plain. -/
theorem plain_of_reads (validated : validatorReads expr = some (identifier, op))
    (evaluated : evaluatorReads expr = some (identifier, op)) : Plain expr := by
  obtain ⟨⟨nonempty, valid⟩, identifierEq, opEq⟩ := validatorReads_eq_some_iff.mp validated
  obtain ⟨lead, before, after, operand, spaced⟩ := evaluatorReads_eq_some_iff.mp evaluated
  have noBlank : StopsAt isSpace expr := by
    rw [expr_eq_scan expr, identifierEq]
    obtain ⟨first, more, rfl⟩ := List.exists_cons_of_ne_nil nonempty
    simp [isSpace_of_isIdentChar (spaced.identifier first (by simp))]
  obtain rfl := spaced.lead_eq_nil noBlank
  obtain ⟨runEq, afterEq, -⟩ := spaced.scan
  obtain ⟨opNonempty, opAll⟩ := operators_spec valid
  have nothing : operand.takeWhile isOpOrSpace = [] := by
    apply spaced.takeWhile_operand
    rw [runEq, withoutSpace_append, withoutSpace_append, withoutSpace_append,
      withoutSpace_blank spaced.before, withoutSpace_blank spaced.after, withoutSpace_op opAll,
      List.nil_append, List.nil_append, List.append_right_eq_self] at opEq
    simpa [withoutSpace] using opEq
  rw [nothing, List.append_nil] at runEq
  refine ⟨noBlank, fun _ => ⟨before, op, after, runEq, ⟨spaced.before_nonempty, spaced.before⟩,
    opAll, ⟨spaced.after_nonempty, spaced.after⟩, ?_⟩⟩
  rw [afterEq]
  have whole := List.takeWhile_append_dropWhile (p := isOpOrSpace) (l := operand)
  rw [nothing, List.nil_append] at whole
  rw [whole]
  exact spaced.operand_nonempty

theorem validatorReads_eq_none_iff {expr : Text} :
    validatorReads expr = none ↔
      ¬∃ identifier run operand,
        Scanned expr identifier run operand ∧ withoutSpace run ∈ operators := by
  rw [Option.eq_none_iff_forall_ne_some]
  constructor
  · rintro refused ⟨identifier, run, operand, scanned, valid⟩
    exact refused (identifier, withoutSpace run)
      (validatorReads_eq_some_iff_scanned.mpr ⟨run, operand, scanned, rfl, valid⟩)
  · rintro formless ⟨identifier, op⟩ read
    obtain ⟨run, operand, scanned, rfl, valid⟩ := validatorReads_eq_some_iff_scanned.mp read
    exact formless ⟨identifier, run, operand, scanned, valid⟩

theorem evaluatorReads_eq_none_iff {expr : Text} :
    evaluatorReads expr = none ↔
      ¬∃ lead identifier before op after operand,
        Spaced expr lead identifier before op after operand := by
  rw [Option.eq_none_iff_forall_ne_some]
  constructor
  · rintro refused ⟨lead, identifier, before, op, after, operand, spaced⟩
    exact refused (identifier, op)
      (evaluatorReads_eq_some_iff.mpr ⟨lead, before, after, operand, spaced⟩)
  · rintro formless ⟨identifier, op⟩ read
    obtain ⟨lead, before, after, operand, spaced⟩ := evaluatorReads_eq_some_iff.mp read
    exact formless ⟨lead, identifier, before, op, after, operand, spaced⟩

/-- The validator and the evaluator read an expression alike exactly if it is plain,
or if it is neither an identifier and a run of blanks and operator characters that is
an operator without its blanks, nor an identifier, an operator and an operand between
blanks. -/
theorem readers_agree_iff (expr : Text) :
    validatorReads expr = evaluatorReads expr ↔
      Plain expr ∨
        (¬∃ identifier run operand,
          Scanned expr identifier run operand ∧ withoutSpace run ∈ operators) ∧
        ¬∃ lead identifier before op after operand,
          Spaced expr lead identifier before op after operand := by
  rw [← validatorReads_eq_none_iff, ← evaluatorReads_eq_none_iff]
  constructor
  · intro same
    cases evaluated : evaluatorReads expr with
    | none => exact .inr ⟨same.trans evaluated, rfl⟩
    | some read => exact .inl (plain_of_reads (same.trans evaluated) evaluated)
  · rintro (plain | ⟨validated, evaluated⟩)
    · apply Option.ext
      rintro ⟨identifier, op⟩
      exact ⟨plain.evaluatorReads_of_validatorReads, plain.validatorReads_of_evaluatorReads⟩
    · rw [validated, evaluated]

/-- An operator that touches its operands is accepted by the validator and not found
by the evaluator. -/
theorem readers_disagree :
    validatorReads "status_code==200".toList = some ("status_code".toList, ['=', '=']) ∧
    evaluatorReads "status_code==200".toList = none := by
  decide +kernel

end Cppload.Scenario
