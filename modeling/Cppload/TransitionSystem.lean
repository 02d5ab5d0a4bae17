import Mathlib

/-!
# Runs of guarded transition systems

Every component of the load generator is modelled by a partial step function
on states and actions.  An action fixes which thread moves and how the outside
world answers, so a list of actions is one schedule.  This file fixes what a
run is, what it means that all steps of a run meet a side condition, and the
induction rules by which step facts become facts about runs.  For systems whose
steps answer their caller it also gives the potential argument that bounds the
total of the answers.
-/

namespace Cppload.Transition

open Relation

variable {State Action : Type*}

/-- One step of the system, taken in a state and by an action that meet the
side condition. -/
def GuardedStep (step : State → Action → Option State)
    (guard : State → Action → Prop) (before after : State) : Prop :=
  ∃ action, guard before action ∧ step before action = some after

/-- Reachability by a run all of whose steps meet the side condition. -/
def Reaches (step : State → Action → Option State)
    (guard : State → Action → Prop) : State → State → Prop :=
  ReflTransGen (GuardedStep step guard)

/-- The side condition that every step meets. -/
def Unrestricted : State → Action → Prop :=
  fun _ _ => True

/-- Execute a schedule from a state. -/
def run (step : State → Action → Option State) :
    State → List Action → Option State
  | state, [] => some state
  | state, action :: rest =>
      (step state action).bind fun next => run step next rest

variable {step : State → Action → Option State}
variable {guard : State → Action → Prop}

theorem Reaches.refl (state : State) : Reaches step guard state state :=
  ReflTransGen.refl

theorem Reaches.trans {first middle last : State}
    (toMiddle : Reaches step guard first middle)
    (toLast : Reaches step guard middle last) :
    Reaches step guard first last :=
  ReflTransGen.trans toMiddle toLast

theorem Reaches.tail {first middle last : State} {action : Action}
    (toMiddle : Reaches step guard first middle)
    (allowed : guard middle action) (taken : step middle action = some last) :
    Reaches step guard first last :=
  ReflTransGen.tail toMiddle ⟨action, allowed, taken⟩

/-- A property that every guarded step preserves holds along every guarded
run. -/
theorem Reaches.invariant {first last : State}
    (reaches : Reaches step guard first last) (inv : State → Prop)
    (initial : inv first)
    (preserved : ∀ before action after, inv before → guard before action →
      step before action = some after → inv after) :
    inv last := by
  induction reaches with
  | refl => exact initial
  | tail _ taken ih =>
      obtain ⟨action, allowed, stepEq⟩ := taken
      exact preserved _ action _ ih allowed stepEq

/-- Relaxing the side condition keeps every run. -/
theorem Reaches.mono {weaker : State → Action → Prop} {first last : State}
    (reaches : Reaches step guard first last)
    (implied : ∀ state action, guard state action → weaker state action) :
    Reaches step weaker first last := by
  induction reaches with
  | refl => exact Reaches.refl first
  | tail _ taken ih =>
      obtain ⟨action, allowed, stepEq⟩ := taken
      exact ih.tail (implied _ action allowed) stepEq

@[simp]
theorem run_nil (state : State) : run step state [] = some state :=
  rfl

theorem run_cons (state : State) (action : Action) (rest : List Action) :
    run step state (action :: rest) =
      (step state action).bind fun next => run step next rest :=
  rfl

/-- A schedule that executes is an unrestricted run. -/
theorem reaches_of_run {first last : State} {actions : List Action}
    (executes : run step first actions = some last) :
    Reaches step Unrestricted first last := by
  induction actions generalizing first with
  | nil =>
      simp only [run_nil, Option.some.injEq] at executes
      exact executes ▸ Reaches.refl first
  | cons action rest ih =>
      rw [run_cons, Option.bind_eq_some_iff] at executes
      obtain ⟨next, taken, remaining⟩ := executes
      exact ((Reaches.refl first).tail trivial taken).trans (ih remaining)

/-- Execute a schedule, but no step outside the side condition. -/
def guardedRun (step : State → Action → Option State) (guard : State → Action → Prop)
    [∀ state action, Decidable (guard state action)] :
    State → List Action → Option State
  | state, [] => some state
  | state, action :: rest =>
      if guard state action then
        (step state action).bind fun next => guardedRun step guard next rest
      else none

theorem reaches_of_guardedRun [∀ state action, Decidable (guard state action)]
    {first last : State} {actions : List Action}
    (executes : guardedRun step guard first actions = some last) :
    Reaches step guard first last := by
  induction actions generalizing first with
  | nil =>
      cases executes
      exact Reaches.refl _
  | cons action rest ih =>
      unfold guardedRun at executes
      split at executes
      · rename_i allowed
        obtain ⟨next, taken, remaining⟩ := Option.bind_eq_some_iff.mp executes
        exact ((Reaches.refl first).tail allowed taken).trans (ih remaining)
      · cases executes

theorem run_of_guardedRun [∀ state action, Decidable (guard state action)]
    {first last : State} {actions : List Action}
    (executes : guardedRun step guard first actions = some last) :
    run step first actions = some last := by
  induction actions generalizing first with
  | nil => exact executes
  | cons action rest ih =>
      unfold guardedRun at executes
      split at executes
      · obtain ⟨next, taken, remaining⟩ := Option.bind_eq_some_iff.mp executes
        rw [run_cons, taken]
        exact ih remaining
      · cases executes

/-- When a property is lost exactly by the steps outside the side condition, a
schedule that starts with it ends with it exactly when all its steps meet the
condition. -/
theorem guardedRun_iff [∀ state action, Decidable (guard state action)]
    {inv good : State → Prop} {first last : State} {actions : List Action}
    (executes : run step first actions = some last) (initial : inv first)
    (preserved : ∀ before action after, inv before →
      step before action = some after → inv after)
    (exactly : ∀ before action after, inv before → step before action = some after →
      (good after ↔ good before ∧ guard before action)) :
    good last ↔ good first ∧ guardedRun step guard first actions = some last := by
  induction actions generalizing first with
  | nil =>
      cases executes
      exact ⟨fun holds => ⟨holds, rfl⟩, And.left⟩
  | cons action rest ih =>
      rw [run_cons, Option.bind_eq_some_iff] at executes
      obtain ⟨next, taken, remaining⟩ := executes
      rw [ih remaining (preserved _ _ _ initial taken), exactly _ _ _ initial taken, and_assoc]
      refine and_congr_right fun _ => ?_
      by_cases allowed : guard first action
      · simp only [guardedRun, allowed, taken, if_true, Option.bind_some, true_and]
      · simp only [guardedRun, allowed, if_false, false_and, reduceCtorEq]

section Answers

variable {Answer : Type*}

/-- Execute a schedule of a system whose steps answer, and collect the
answers. -/
def trace (answering : State → Action → Option (State × Answer)) :
    State → List Action → Option (State × List Answer)
  | state, [] => some (state, [])
  | state, action :: rest =>
      (answering state action).bind fun next =>
        (trace answering next.1 rest).map fun last =>
          (last.1, next.2 :: last.2)

variable {Amount : Type*} [AddCommMonoid Amount]

/-- The total of a quantity that depends on the state before each step of a
schedule. -/
def accumulate (answering : State → Action → Option (State × Answer))
    (credit : State → Action → Amount) : State → List Action → Amount
  | _, [] => 0
  | state, action :: rest =>
      credit state action +
        match answering state action with
        | some next => accumulate answering credit next.1 rest
        | none => 0

variable {answering : State → Action → Option (State × Answer)}

theorem trace_cons {first last : State} {action : Action} {rest : List Action}
    {answers : List Answer}
    (executes : trace answering first (action :: rest) = some (last, answers)) :
    ∃ next answer later, answering first action = some (next, answer) ∧
      trace answering next rest = some (last, later) ∧
      answers = answer :: later := by
  simp only [trace, Option.bind_eq_some_iff, Option.map_eq_some_iff,
    Prod.mk.injEq] at executes
  obtain ⟨⟨next, answer⟩, taken, ⟨final, later⟩, remaining, rfl, rfl⟩ := executes
  exact ⟨next, answer, later, taken, remaining, rfl⟩

/-- One more step at the end of a schedule. -/
theorem trace_concat {first middle last : State} {actions : List Action} {action : Action}
    {answers : List Answer} {answer : Answer}
    (executes : trace answering first actions = some (middle, answers))
    (taken : answering middle action = some (last, answer)) :
    trace answering first (actions ++ [action]) = some (last, answers ++ [answer]) := by
  induction actions generalizing first answers with
  | nil =>
      cases executes
      simp [trace, taken]
  | cons earlier rest ih =>
      obtain ⟨next, earlierAnswer, later, begun, remaining, rfl⟩ := trace_cons executes
      simp only [List.cons_append, trace, begun, Option.bind_some, ih remaining, Option.map_some]

theorem accumulate_cons {credit : State → Action → Amount} {first next : State}
    {action : Action} {rest : List Action} {answer : Answer}
    (taken : answering first action = some (next, answer)) :
    accumulate answering credit first (action :: rest) =
      credit first action + accumulate answering credit next rest := by
  simp only [accumulate, taken]

/-- A property that every step preserves holds at the end of every schedule. -/
theorem trace_invariant {first last : State} {actions : List Action}
    {answers : List Answer}
    (executes : trace answering first actions = some (last, answers))
    (inv : State → Prop) (initial : inv first)
    (preserved : ∀ before action after answer, inv before →
      answering before action = some (after, answer) → inv after) :
    inv last := by
  induction actions generalizing first answers with
  | nil =>
      simp only [trace, Option.some.injEq, Prod.mk.injEq] at executes
      exact executes.1 ▸ initial
  | cons action rest ih =>
      obtain ⟨next, answer, later, taken, remaining, rfl⟩ := trace_cons executes
      exact ih remaining (preserved _ action _ answer initial taken)

/-- The potential argument: when the cost of every answer is paid by the drop
of a potential and the credit of the step, the costs of a whole schedule are
paid by the initial potential and the accumulated credit. -/
theorem trace_potential [PartialOrder Amount] [IsOrderedAddMonoid Amount]
    (inv : State → Prop) (potential : State → Amount)
    (cost : Answer → Amount) (credit : State → Action → Amount)
    (paid : ∀ before action after answer, inv before →
      answering before action = some (after, answer) →
        inv after ∧
          cost answer + potential after ≤ potential before + credit before action)
    {first last : State} {actions : List Action} {answers : List Answer}
    (executes : trace answering first actions = some (last, answers))
    (initial : inv first) :
    (answers.map cost).sum + potential last ≤
      potential first + accumulate answering credit first actions := by
  induction actions generalizing first answers with
  | nil =>
      simp only [trace, Option.some.injEq, Prod.mk.injEq] at executes
      obtain ⟨rfl, rfl⟩ := executes
      simp [accumulate]
  | cons action rest ih =>
      obtain ⟨next, answer, later, taken, remaining, rfl⟩ := trace_cons executes
      obtain ⟨kept, payment⟩ := paid _ action _ answer initial taken
      have laterPaid := ih remaining kept
      rw [accumulate_cons taken, List.map_cons, List.sum_cons]
      calc
        cost answer + (later.map cost).sum + potential last =
            cost answer + ((later.map cost).sum + potential last) :=
          add_assoc _ _ _
        _ ≤ cost answer +
            (potential next + accumulate answering credit next rest) :=
          add_le_add_right laterPaid _
        _ = cost answer + potential next +
            accumulate answering credit next rest :=
          (add_assoc _ _ _).symm
        _ ≤ potential first + credit first action +
            accumulate answering credit next rest :=
          add_le_add_left payment _
        _ = potential first +
            (credit first action + accumulate answering credit next rest) :=
          add_assoc _ _ _

end Answers

end Cppload.Transition
