import Cppload.MetricsCollectorSolo

/-!
# Eviction from a full ring

The fullness test of `record_request` subtracts a fresh `head_` from a copy of
`tail_` that may be old.  If `head_` has passed the copy, the unsigned difference
wraps and a sample is evicted although the ring has room.  If no test compares a
copy that is behind `head_`, samples are evicted from full rings only.
-/

namespace Cppload.Metrics

open Transition

/-- The next move does not compare a copy of `tail_` that is behind `head_`. -/
def Role.comparesCurrent (ring : Ring) : Role → Bool
  | .pushing _ (.loadHead t) => ring.head ≤ t
  | _ => true

def System.comparesCurrent (system : System) : Action → Bool
  | .call _ => true
  | .move index _ => (system.roles[index]?).all (Role.comparesCurrent system.collector.ring)

/-- A writer that is going to evict ticket `h` has seen the ring full. -/
def Role.SawFull (ring : Ring) : Role → Prop
  | .pushing _ (.loadOldest h) | .pushing _ (.casHead h) => h + kRingCapacity ≤ ring.tail
  | _ => True

section Advance

variable {ring after : Ring} {role next : Role} {roles : List Role}

theorem Role.SawFull.mono (sawFull : role.SawFull ring) (later : ring.tail ≤ after.tail) :
    role.SawFull after := by
  unfold Role.SawFull at sawFull ⊢
  split at sawFull <;> first | trivial | omega

theorem Advance.sawFull (advance : Advance ring role after next) (within : role.Within ring)
    (sawFull : role.SawFull ring) (allowed : role.comparesCurrent ring = true) :
    next.SawFull after := by
  cases advance with
  | @foundFull latency t full =>
      have current : ring.head ≤ t := of_decide_eq_true allowed
      have behind : t ≤ ring.tail := within
      exact (full.resolve_left (by omega)).trans behind
  | oldestPublished => exact sawFull
  | _ => trivial

end Advance

theorem Task.eq_record_of_role {task : Task} {latency : ℤ} {push : Push}
    (roleEq : task.role = .pushing latency push) :
    ∃ sample, task = .record sample (.pushing push) := by
  unfold Task.role at roleEq
  split at roleEq <;> cases roleEq
  exact ⟨_, rfl⟩

namespace System

variable {system next : System}

theorem step_sawFull {action : Action} (booked : Booked system.collector.ring system.roles)
    (small : system.tasks.length < 2 ^ 63)
    (sawFull : ∀ role ∈ system.roles, role.SawFull system.collector.ring)
    (allowed : system.comparesCurrent action = true)
    (taken : system.step action = some next) :
    ∀ role ∈ next.roles, role.SawFull next.collector.ring := by
  intro other member
  cases action with
  | call call =>
      obtain ⟨collectorEq, rolesEq⟩ := call_roles taken
      rw [rolesEq] at member
      rcases List.mem_append.mp member with old | new
      · exact collectorEq ▸ sawFull other old
      · obtain rfl := List.mem_singleton.mp new
        trivial
  | move index choice =>
      obtain ⟨role, nextRole, found, advance, rolesEq⟩ := move_advance booked small taken
      have roleMember := List.mem_of_getElem? found
      rw [rolesEq] at member
      rcases List.mem_or_eq_of_mem_set member with old | rfl
      · exact (sawFull other old).mono advance.tail_le
      · refine advance.sawFull (booked.within role roleMember) (sawFull role roleMember) ?_
        simpa [comparesCurrent, found] using allowed

/-- Only a full ring loses its oldest sample to a writer. -/
theorem reachable_evicts_full {now : ℤ} {index : ℕ} {choice : Choice} {sample : Sample}
    {pc : RecordPc}
    (reaches : Reaches step (fun state action => state.comparesCurrent action) (new now) system)
    (small : system.tasks.length < 2 ^ 63)
    (writer : system.tasks[index]? = some (.record sample pc))
    (taken : system.step (.move index choice) = some next)
    (advanced : next.collector.ring.head ≠ system.collector.ring.head) :
    next.collector.ring.head = system.collector.ring.head + 1 ∧
      kRingCapacity ≤ system.collector.ring.tail - system.collector.ring.head := by
  obtain ⟨booked, sawFull⟩ := booked_invariant reaches small
    (fun state => ∀ role ∈ state.roles, role.SawFull state.collector.ring)
    (by simp [roles, new])
    fun _ _ _ booked small sawFull allowed taken =>
      step_sawFull booked small sawFull allowed taken
  obtain ⟨role, nextRole, found, advance, -⟩ := move_advance booked small taken
  have sawFull := sawFull role (List.mem_of_getElem? found)
  have roleEq : (Task.record sample pc).role = role := by
    simpa [roles, writer] using found
  generalize next.collector.ring = after at advance advanced ⊢
  cases advance with
  | evicted current =>
      have full : _ + kRingCapacity ≤ system.collector.ring.tail := sawFull
      exact ⟨by rw [current], by omega⟩
  | reopened => cases pc <;> cases roleEq
  | _ => exact absurd rfl advanced

theorem CalmlyReaches.comparesCurrent {first last : System}
    (reaches : CalmlyReaches first last) :
    Reaches step (fun state action => state.comparesCurrent action) first last := by
  refine reaches.mono fun state action calm => ?_
  cases action with
  | call call => rfl
  | move index choice =>
      cases found : state.roles[index]? with
      | none => simp [System.comparesCurrent, found]
      | some role =>
          simp only [System.calm, System.comparesCurrent, found, Option.all_some] at calm ⊢
          unfold Role.calm at calm
          unfold Role.comparesCurrent
          split at calm <;> simp_all

/-- The first eviction after the ring has filled. -/
theorem reachable_evicts_full_when_filled :
    ∃ system next index,
      Reaches step (fun state action => state.comparesCurrent action) (new 0) system ∧
      system.step (.move index smooth) = some next ∧
      next.collector.ring.head = system.collector.ring.head + 1 ∧
      kRingCapacity ≤ system.collector.ring.tail - system.collector.ring.head := by
  have capacityEq := kRingCapacity_eq
  obtain ⟨⟨collector, tasks⟩, reaches, headEq, tailEq, oldest, rest, -, lengthEq,
    tasksEq⟩ := stalled_reachable (kRingCapacity - 1) (by omega)
  dsimp only at headEq tailEq oldest tasksEq
  have tasksLength : tasks.length = rest.length + 2 := by simp [tasksEq]
  obtain ⟨later, toEvicting, ringEq⟩ :=
    record_evicting_reaches collector tasks .instant (by omega)
      (by rw [headEq]; exact oldest) (by omega)
  have calm : CalmlyReaches (new 0) _ := Reaches.trans reaches toEvicting
  have moved := evict_move tasks.length .instant later (by rw [ringEq]; omega)
  rw [ringEq] at moved
  have found : (tasks ++ [Task.record .instant (.pushing (.casHead collector.ring.head))])[
      tasks.length]? = some _ := List.getElem?_concat_length
  have taken := step_of_move found moved
  refine ⟨⟨later, tasks ++ [_]⟩, _, tasks.length, calm.comparesCurrent, taken, ?_⟩
  exact reachable_evicts_full calm.comparesCurrent
    (by simp only [List.length_append, List.length_singleton]; omega)
    found taken (by dsimp only; rw [ringEq]; omega)

/-- A writer that has read `tail_` is overtaken by a reset, and evicts the only
sample of the ring. -/
theorem stale_writer_evicts :
    ∃ system next sample pc,
      Reaches step Unrestricted (new 0) system ∧ system.tasks.length < 2 ^ 63 ∧
      system.tasks[0]? = some (.record sample pc) ∧
      system.step (.move 0 smooth) = some next ∧
      next.collector.ring.head ≠ system.collector.ring.head ∧
      system.collector.ring.tail - system.collector.ring.head = 1 := by
  have evaluated :
      (run step (new 0) (List.flatten
        [.call (.record .instant) :: List.replicate 10 (.move 0 smooth),
          .call (.record .instant) :: List.replicate 12 (.move 1 smooth),
          .call .reset :: List.replicate 15 (.move 2 smooth),
          .call (.record .instant) :: List.replicate 14 (.move 3 smooth),
          List.replicate 2 (.move 0 smooth)])).bind
        (fun system => (system.step (.move 0 smooth)).map fun next =>
          (system.roles, system.collector.ring.head, system.collector.ring.tail,
            next.collector.ring.head)) =
      some ([.pushing 0 (.casHead 1), .pushing 0 (.returned 0), .apart,
        .pushing 0 (.returned 1)], 1, 2, 2) := by
    decide +kernel
  obtain ⟨system, executes, moved⟩ := Option.bind_eq_some_iff.mp evaluated
  obtain ⟨next, taken, fields⟩ := Option.map_eq_some_iff.mp moved
  simp only [Prod.mk.injEq] at fields
  obtain ⟨rolesEq, headEq, tailEq, nextEq⟩ := fields
  have lengthEq := congrArg List.length rolesEq
  simp only [roles, List.length_map, List.length_cons, List.length_nil] at lengthEq
  have firstRole : system.roles[0]? = some (.pushing 0 (.casHead 1)) := by
    rw [rolesEq]
    rfl
  simp only [roles, List.getElem?_map, Option.map_eq_some_iff] at firstRole
  obtain ⟨task, found, roleEq⟩ := firstRole
  obtain ⟨sample, rfl⟩ := Task.eq_record_of_role roleEq
  exact ⟨system, next, sample, _, reaches_of_run executes, by omega, found, taken, by omega,
    by omega⟩

end System

end Cppload.Metrics
