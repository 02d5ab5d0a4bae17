import Cppload.TransitionSystem

/-!
# A counter that is published by differences

A source counts up modulo a power of two and is cleared from time to time.  A
reader publishes the growth since its last reading; when the value has fallen, it
takes the whole value for growth.  The meter keeps, beside what the reader has, what
was recorded altogether, so that one can say when a reading loses something.
-/

namespace Cppload.CounterDeltas

open Transition

/-- What a reading publishes. -/
def delta (current last : ℕ) : ℕ :=
  if last ≤ current then current - last else current

/-- `interrupted` says that the source was cleared, or has wrapped, since the last
reading. -/
structure Meter where
  source : ℕ
  last : ℕ
  published : ℕ
  recorded : ℕ
  interrupted : Bool
  deriving DecidableEq, Repr

inductive Event where
  | rest
  | add (amount : ℕ)
  | clear
  | read
  deriving DecidableEq, Repr

namespace Meter

def new : Meter where
  source := 0
  last := 0
  published := 0
  recorded := 0
  interrupted := false

def step (width : ℕ) (meter : Meter) : Event → Meter
  | .rest => meter
  | .add amount =>
      { meter with
        source := (meter.source + amount) % 2 ^ width
        recorded := meter.recorded + amount
        interrupted := meter.interrupted || decide (2 ^ width ≤ meter.source + amount) }
  | .clear => { meter with source := 0, interrupted := true }
  | .read =>
      { meter with
        last := meter.source
        published := meter.published + delta meter.source meter.last
        interrupted := false }

/-- What the source still holds of what is not published. -/
def unread (meter : Meter) : ℕ :=
  if meter.interrupted then meter.source else meter.source - meter.last

/-- The event loses nothing: no addition wraps, the source is cleared only when all
of it is published, and the first reading after that finds less than the last one, or
that one was 0. -/
def Keeps (width : ℕ) (meter : Meter) : Event → Prop
  | .rest => True
  | .add amount => meter.source + amount < 2 ^ width
  | .clear => meter.unread = 0
  | .read => meter.interrupted = true → meter.last = 0 ∨ meter.source < meter.last

instance (width : ℕ) (meter : Meter) : DecidablePred (meter.Keeps width)
  | .rest => inferInstanceAs (Decidable True)
  | .add _ => inferInstanceAs (Decidable (_ < _))
  | .clear => inferInstanceAs (Decidable (_ = _))
  | .read => inferInstanceAs (Decidable (_ → _))

/-- Source and last reading are within the width, and without an interruption the
source has not fallen; no more is published or to be published than was recorded. -/
structure Ledger (width : ℕ) (meter : Meter) : Prop where
  source_lt : meter.source < 2 ^ width
  last_lt : meter.last < 2 ^ width
  grown : meter.interrupted = false → meter.last ≤ meter.source
  bounded : meter.published + meter.unread ≤ meter.recorded

/-- Nothing is lost so far. -/
def Exact (meter : Meter) : Prop :=
  meter.published + meter.unread = meter.recorded

variable {width : ℕ} {meter : Meter}

theorem new_ledger (width : ℕ) : new.Ledger width where
  source_lt := Nat.two_pow_pos width
  last_lt := Nat.two_pow_pos width
  grown _ := le_rfl
  bounded := le_rfl

theorem new_exact : new.Exact := rfl

theorem step_last_of_ne_read {event : Event} (other : event ≠ .read) :
    (meter.step width event).last = meter.last := by
  cases event <;> first | rfl | exact absurd rfl other

theorem step_published_of_ne_read {event : Event} (other : event ≠ .read) :
    (meter.step width event).published = meter.published := by
  cases event <;> first | rfl | exact absurd rfl other

theorem unread_of_interrupted (interrupted : meter.interrupted = true) :
    meter.unread = meter.source := by
  simp only [unread, interrupted, if_true]

theorem unread_of_not_interrupted (steady : meter.interrupted = false) :
    meter.unread = meter.source - meter.last := by
  simp only [unread, steady, Bool.false_eq_true, if_false]

/-- A reading publishes at most what is unread, and all of it exactly when it loses
nothing. -/
theorem delta_le_unread (ledger : meter.Ledger width) :
    delta meter.source meter.last ≤ meter.unread ∧
      (delta meter.source meter.last = meter.unread ↔ meter.Keeps width .read) := by
  unfold delta
  cases flag : meter.interrupted with
  | false =>
      have grown := ledger.grown flag
      simp [unread_of_not_interrupted flag, grown, Keeps, flag]
  | true =>
      simp only [unread_of_interrupted flag, Keeps, flag, forall_true_left]
      split <;> omega

/-- An addition that wraps loses something. -/
theorem unread_add_wrapping (ledger : meter.Ledger width) {amount : ℕ}
    (wraps : 2 ^ width ≤ meter.source + amount) :
    (meter.source + amount) % 2 ^ width < meter.unread + amount := by
  have reduced : (meter.source + amount) % 2 ^ width ≤ meter.source + amount - 2 ^ width := by
    rw [Nat.mod_eq_sub_mod wraps]
    exact Nat.mod_le _ _
  have last_lt := ledger.last_lt
  cases flag : meter.interrupted with
  | false =>
      have grown := ledger.grown flag
      rw [unread_of_not_interrupted flag]
      omega
  | true =>
      rw [unread_of_interrupted flag]
      omega

theorem step_add_of_lt {amount : ℕ} (fits : meter.source + amount < 2 ^ width) :
    meter.step width (.add amount) =
      { meter with source := meter.source + amount, recorded := meter.recorded + amount } := by
  simp [step, Nat.mod_eq_of_lt fits, Nat.not_le.mpr fits]

theorem step_add_of_le {amount : ℕ} (wraps : 2 ^ width ≤ meter.source + amount) :
    meter.step width (.add amount) =
      { meter with
        source := (meter.source + amount) % 2 ^ width
        recorded := meter.recorded + amount
        interrupted := true } := by
  simp [step, wraps]

theorem unread_add_of_lt (ledger : meter.Ledger width) {amount : ℕ}
    (fits : meter.source + amount < 2 ^ width) :
    (meter.step width (.add amount)).unread = meter.unread + amount := by
  rw [step_add_of_lt fits]
  cases flag : meter.interrupted with
  | false =>
      have grown := ledger.grown flag
      simp only [unread, flag, Bool.false_eq_true, if_false]
      omega
  | true => simp only [unread, flag, if_true]

/-- Every event keeps the ledger, and an event leaves the meter exact exactly when it
was exact before and the event loses nothing. -/
theorem Ledger.step (ledger : meter.Ledger width) (event : Event) :
    (meter.step width event).Ledger width ∧
      ((meter.step width event).Exact ↔ meter.Exact ∧ meter.Keeps width event) := by
  have bounded := ledger.bounded
  cases event with
  | rest => exact ⟨ledger, (and_iff_left trivial).symm⟩
  | add amount =>
      rcases Nat.lt_or_ge (meter.source + amount) (2 ^ width) with fits | wraps
      · have unreadEq := unread_add_of_lt ledger fits
        rw [step_add_of_lt fits] at unreadEq ⊢
        refine ⟨⟨fits, ledger.last_lt, fun steady => ?_, ?_⟩, ?_⟩
        · exact (ledger.grown steady).trans (Nat.le_add_right _ _)
        · change meter.published + _ ≤ meter.recorded + amount
          omega
        · change meter.published + _ = meter.recorded + amount ↔
            meter.published + meter.unread = meter.recorded ∧ _
          rw [unreadEq, and_iff_left (show meter.Keeps width (.add amount) from fits)]
          omega
      · have lost := unread_add_wrapping ledger wraps
        rw [step_add_of_le wraps]
        refine ⟨⟨Nat.mod_lt _ (Nat.two_pow_pos width), ledger.last_lt,
          (fun steady => by cases steady), ?_⟩, ?_⟩
        · change meter.published + (meter.source + amount) % 2 ^ width ≤
            meter.recorded + amount
          omega
        · change meter.published + (meter.source + amount) % 2 ^ width =
              meter.recorded + amount ↔ meter.Exact ∧ meter.source + amount < 2 ^ width
          constructor
          · intro exactly
            omega
          · rintro ⟨-, fits⟩
            omega
  | clear =>
      refine ⟨⟨Nat.two_pow_pos width, ledger.last_lt, (fun steady => by cases steady), ?_⟩, ?_⟩
      · change meter.published + 0 ≤ meter.recorded
        omega
      · change meter.published + 0 = meter.recorded ↔
          meter.published + meter.unread = meter.recorded ∧ meter.unread = 0
        omega
  | read =>
      obtain ⟨atMost, allIff⟩ := delta_le_unread ledger
      refine ⟨⟨ledger.source_lt, ledger.source_lt, fun _ => le_rfl, ?_⟩, ?_⟩
      · change meter.published + delta meter.source meter.last +
          (meter.source - meter.source) ≤ meter.recorded
        omega
      · change meter.published + delta meter.source meter.last +
            (meter.source - meter.source) = meter.recorded ↔
          meter.published + meter.unread = meter.recorded ∧ _
        rw [← allIff]
        omega

end Meter

end Cppload.CounterDeltas
