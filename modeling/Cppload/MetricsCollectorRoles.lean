import Cppload.MetricsCollector
import Cppload.Roster
import Cppload.TicketRing

/-!
# Roles in the ring protocol

Only a few program counters touch the ring.  The role of a task forgets the
others, and `Advance` lists everything a move can do to the ring and to the role
of its task when no unsigned number wraps.  Whatever the calls are, the tickets
claimed so far are exactly those below `tail_`, each by one call; in particular
no number wraps before `2 ^ 63` calls were made.
-/

namespace Cppload.Metrics

open Transition

theorem kRingCapacity_eq : kRingCapacity = 2 ^ 20 := by
  decide

theorem slot_eq (ticket : ℕ) : slot ticket = ticket % kRingCapacity := by
  unfold slot kRingMask
  rw [kRingCapacity_eq]
  exact Nat.and_two_pow_sub_one_eq_mod ticket 20

theorem increment_eq {value : ℕ} (small : value < 2 ^ 63) : increment value = value + 1 := by
  unfold increment
  omega

/-- The fullness test succeeds on a full ring and when the copy of `tail_` is
behind `head_`. -/
theorem le_difference_iff {first second : ℕ} (firstSmall : first < 2 ^ 63)
    (secondSmall : second < 2 ^ 63) :
    kRingCapacity ≤ difference first second ↔
      first < second ∨ second + kRingCapacity ≤ first := by
  rw [kRingCapacity_eq]
  unfold difference
  omega

/-- What the ring sees of a task. -/
inductive Role where
  | apart
  | pushing (latency : ℤ) (push : Push)
  | measured (h : ℕ)
  | rewriting (i t : ℕ)
  | closing (t : ℕ)
  deriving DecidableEq

def Task.role : Task → Role
  | .record sample (.pushing push) => .pushing sample.latency push
  | .reset (.loadTail h) => .measured h
  | .reset (.rewrite i t) => .rewriting i t
  | .reset (.storeHead t) => .closing t
  | _ => .apart

def System.roles (system : System) : List Role :=
  system.tasks.map Task.role

/-- The ticket is claimed and its payload complete. -/
def Ring.Published (ring : Ring) (ticket : ℕ) : Prop :=
  (ring.cells (ticket % kRingCapacity)).seq = ticket + 1

/-- The moves of a task, as far as the ring is concerned. -/
inductive Advance (ring : Ring) : Role → Ring → Role → Prop
  | elsewhere : Advance ring .apart ring .apart
  | enter (latency : ℤ) : Advance ring .apart ring (.pushing latency .loadTail)
  | readTail {latency : ℤ} :
      Advance ring (.pushing latency .loadTail) ring (.pushing latency (.loadHead ring.tail))
  | foundFull {latency : ℤ} {t : ℕ} (full : t < ring.head ∨ ring.head + kRingCapacity ≤ t) :
      Advance ring (.pushing latency (.loadHead t)) ring
        (.pushing latency (.loadOldest ring.head))
  | foundRoom {latency : ℤ} {t : ℕ} (behind : ring.head ≤ t)
      (room : t < ring.head + kRingCapacity) :
      Advance ring (.pushing latency (.loadHead t)) ring (.pushing latency (.casTail t))
  | oldestPublished {latency : ℤ} {h : ℕ} (published : ring.Published h) :
      Advance ring (.pushing latency (.loadOldest h)) ring (.pushing latency (.casHead h))
  | oldestPending {latency : ℤ} {h : ℕ} :
      Advance ring (.pushing latency (.loadOldest h)) ring (.pushing latency .loadTail)
  | evicted {latency : ℤ} {h : ℕ} (current : ring.head = h) :
      Advance ring (.pushing latency (.casHead h)) { ring with head := h + 1 }
        (.pushing latency .loadTail)
  | evictionLost {latency : ℤ} {h : ℕ} :
      Advance ring (.pushing latency (.casHead h)) ring (.pushing latency .loadTail)
  | claimed {latency : ℤ} {t : ℕ} (current : ring.tail = t) :
      Advance ring (.pushing latency (.casTail t)) { ring with tail := t + 1 }
        (.pushing latency (.storeValue t))
  | claimLost {latency : ℤ} {t : ℕ} :
      Advance ring (.pushing latency (.casTail t)) ring
        (.pushing latency (.loadHead ring.tail))
  | wroteValue {latency : ℤ} {t : ℕ} :
      Advance ring (.pushing latency (.storeValue t))
        (ring.setValue (t % kRingCapacity) latency) (.pushing latency (.storeSeq t))
  | published {latency : ℤ} {t : ℕ} :
      Advance ring (.pushing latency (.storeSeq t))
        (ring.setSeq (t % kRingCapacity) (t + 1)) (.pushing latency (.returned t))
  | measuredHead : Advance ring .apart ring (.measured ring.head)
  | measuredTail {h : ℕ} (more : h < ring.tail) :
      Advance ring (.measured h) ring (.rewriting h ring.tail)
  | measuredEmpty {h : ℕ} : Advance ring (.measured h) ring (.closing ring.tail)
  | rewroteMore {i t : ℕ} (more : i + 1 < t) :
      Advance ring (.rewriting i t)
        (ring.setSeq (i % kRingCapacity) (i + kRingCapacity)) (.rewriting (i + 1) t)
  | rewroteLast {i t : ℕ} :
      Advance ring (.rewriting i t)
        (ring.setSeq (i % kRingCapacity) (i + kRingCapacity)) (.closing t)
  | reopened {t : ℕ} : Advance ring (.closing t) { ring with head := t } .apart

/-- Local copies are never ahead of `tail_`. -/
def Role.Within (ring : Ring) : Role → Prop
  | .pushing _ (.loadHead t) | .pushing _ (.casTail t) => t ≤ ring.tail
  | .pushing _ (.loadOldest h) => h ≤ ring.tail
  | .pushing _ (.casHead h) => h < ring.tail
  | .pushing _ (.storeValue t) | .pushing _ (.storeSeq t) => t < ring.tail
  | .measured h => h ≤ ring.tail
  | .rewriting i t => i < t ∧ t ≤ ring.tail
  | .closing t => t ≤ ring.tail
  | _ => True

section Moves

variable {ring after : Ring} {latency : ℤ} {spurious : Bool} {push next : Push}

theorem Push.move_advance (moved : push.move latency spurious ring = some (after, next))
    (within : Role.Within ring (.pushing latency push))
    (ordered : ring.head ≤ ring.tail) (small : ring.tail < 2 ^ 63) :
    Advance ring (.pushing latency push) after (.pushing latency next) := by
  cases push with
  | loadTail =>
      cases moved
      exact .readTail
  | loadHead t =>
      have tSmall : t < 2 ^ 63 := lt_of_le_of_lt within small
      simp only [Push.move, le_difference_iff tSmall (ordered.trans_lt small)] at moved
      split at moved
      · rename_i full
        cases moved
        exact .foundFull full
      · rename_i free
        cases moved
        exact .foundRoom (by omega) (by omega)
  | loadOldest h =>
      have hSmall : h < 2 ^ 63 := lt_of_le_of_lt within small
      simp only [Push.move, slot_eq, increment_eq hSmall] at moved
      split at moved
      · rename_i published
        cases moved
        exact .oldestPublished published
      · cases moved
        exact .oldestPending
  | casHead h =>
      have hSmall : h < 2 ^ 63 := lt_trans within small
      simp only [Push.move, increment_eq hSmall] at moved
      split at moved
      · rename_i won
        cases moved
        exact .evicted won.1
      · cases moved
        exact .evictionLost
  | casTail t =>
      have tSmall : t < 2 ^ 63 := lt_of_le_of_lt within small
      simp only [Push.move, increment_eq tSmall] at moved
      split at moved
      · rename_i won
        cases moved
        exact .claimed won.1
      · cases moved
        exact .claimLost
  | storeValue t =>
      simp only [Push.move, slot_eq] at moved
      cases moved
      exact .wroteValue
  | storeSeq t =>
      have tSmall : t < 2 ^ 63 := lt_trans within small
      simp only [Push.move, slot_eq, increment_eq tSmall] at moved
      cases moved
      exact .published
  | returned t => cases moved

variable {collector later : MetricsCollector} {caller : ℕ} {choice : Choice}

theorem RecordPc.move_advance {sample : Sample} {pc nextPc : RecordPc}
    (moved : pc.move sample choice collector = some (later, nextPc))
    (within : (Task.record sample pc).role.Within collector.ring)
    (ordered : collector.ring.head ≤ collector.ring.tail)
    (small : collector.ring.tail < 2 ^ 63) :
    Advance collector.ring (Task.record sample pc).role later.ring
      (Task.record sample nextPc).role := by
  cases pc with
  | adding entry rest =>
      cases moved
      cases rest <;> exact .elsewhere
  | minimum loop =>
      cases moved
      generalize (loop.move _ _ _ _).2 = left
      cases left <;> exact .elsewhere
  | maximum loop =>
      cases moved
      generalize (loop.move _ _ _ _).2 = left
      cases left with
      | none => exact .enter sample.latency
      | some loop => exact .elsewhere
  | pushing push =>
      obtain ⟨result, pushed, resultEq⟩ := Option.map_eq_some_iff.mp moved
      cases resultEq
      exact Push.move_advance pushed within ordered small

theorem ResetPc.move_advance {now : ℤ} {pc nextPc : ResetPc}
    (moved : pc.move caller now collector = some (later, nextPc))
    (within : (Task.reset pc).role.Within collector.ring)
    (small : collector.ring.tail < 2 ^ 63) :
    Advance collector.ring (Task.reset pc).role later.ring (Task.reset nextPc).role := by
  cases pc with
  | lock =>
      simp only [ResetPc.move] at moved
      split at moved
      · cases moved
        exact .elsewhere
      · cases moved
  | clearing counter rest =>
      cases moved
      cases rest <;> exact .elsewhere
  | storeMin => cases moved; exact .elsewhere
  | storeMax => cases moved; exact .elsewhere
  | storeStart => cases moved; exact .elsewhere
  | loadHead => cases moved; exact .measuredHead
  | loadTail h =>
      cases moved
      unfold ResetPc.rewriteFrom
      split
      · rename_i more
        exact .measuredTail more
      · exact .measuredEmpty
  | rewrite i t =>
      obtain ⟨below, bounded⟩ : i < t ∧ t ≤ collector.ring.tail := within
      have noWrap : (i + kRingCapacity) % 2 ^ 64 = i + kRingCapacity := by
        rw [kRingCapacity_eq]
        omega
      simp only [ResetPc.move, slot_eq, noWrap, increment_eq (show i < 2 ^ 63 by omega)]
        at moved
      cases moved
      unfold ResetPc.rewriteFrom
      split
      · rename_i more
        exact .rewroteMore more
      · exact .rewroteLast
  | storeHead t => cases moved; exact .reopened
  | unlock => cases moved; exact .elsewhere
  | returned => cases moved

theorem CollectPc.move_eq {pc nextPc : CollectPc}
    (moved : pc.move caller collector = some (later, nextPc)) :
    later = { collector with snapshotMtx := later.snapshotMtx } := by
  cases pc with
  | lock =>
      simp only [CollectPc.move] at moved
      split at moved <;> cases moved
      rfl
  | loadSeq i t samples =>
      simp only [CollectPc.move] at moved
      split at moved <;> cases moved <;> rfl
  | loadHead => cases moved; rfl
  | loadTail h => cases moved; rfl
  | unlock h t => cases moved; rfl
  | loadValue i t samples => cases moved; rfl
  | returned samples => cases moved

/-- Every move of a task is one of the listed ones. -/
theorem Task.move_advance {task nextTask : Task}
    (moved : task.move caller choice collector = some (later, nextTask))
    (within : task.role.Within collector.ring)
    (ordered : collector.ring.head ≤ collector.ring.tail)
    (small : collector.ring.tail < 2 ^ 63) :
    Advance collector.ring task.role later.ring nextTask.role := by
  cases task with
  | record sample pc =>
      obtain ⟨result, recorded, resultEq⟩ := Option.map_eq_some_iff.mp moved
      cases resultEq
      exact RecordPc.move_advance recorded within ordered small
  | reset pc =>
      obtain ⟨result, proceeded, resultEq⟩ := Option.map_eq_some_iff.mp moved
      cases resultEq
      exact ResetPc.move_advance proceeded within small
  | collect pc =>
      obtain ⟨result, collected, resultEq⟩ := Option.map_eq_some_iff.mp moved
      cases resultEq
      rw [CollectPc.move_eq collected]
      exact .elsewhere

end Moves

end Cppload.Metrics
