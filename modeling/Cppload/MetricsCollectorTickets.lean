import Cppload.MetricsCollectorRoles

/-!
# Every ticket is claimed once

In every run, with or without resets, the tickets claimed so far are the numbers
below `tail_`, a cell is only labelled with a claimed ticket, and the local
copies of the tasks stay behind `tail_`.
-/

namespace Cppload.Metrics

open Transition

def Role.ticket : Role → Option ℕ
  | .pushing _ (.storeValue t) | .pushing _ (.storeSeq t) | .pushing _ (.returned t) => some t
  | _ => none

structure Booked (ring : Ring) (roles : List Role) : Prop where
  ordered : ring.head ≤ ring.tail
  claims : (roles.filterMap Role.ticket).Perm (List.range ring.tail)
  labels : ∀ ticket, ring.Published ticket → ticket < ring.tail
  within : ∀ role ∈ roles, role.Within ring

section Advance

variable {ring after : Ring} {role next : Role} {roles : List Role} {index : ℕ}

theorem Advance.tail_le (advance : Advance ring role after next) :
    ring.tail ≤ after.tail := by
  cases advance with
  | claimed current => exact current ▸ Nat.le_succ _
  | _ => exact le_rfl

/-- A move claims the ticket `tail_`, or no ticket. -/
theorem Advance.ticket (advance : Advance ring role after next) :
    (after.tail = ring.tail ∧ next.ticket = role.ticket) ∨
      (after.tail = ring.tail + 1 ∧ role.ticket = none ∧ next.ticket = some ring.tail) := by
  cases advance with
  | claimed current =>
      subst current
      exact .inr ⟨rfl, rfl, rfl⟩
  | _ => exact .inl ⟨rfl, rfl⟩

theorem Role.Within.mono (within : role.Within ring) (later : ring.tail ≤ after.tail) :
    role.Within after := by
  unfold Role.Within at within ⊢
  split at within <;> first | trivial | omega

theorem setSeq_published {i ticket seq : ℕ}
    (published : (ring.setSeq (i % kRingCapacity) seq).Published ticket) :
    ring.Published ticket ∨
      (ticket % kRingCapacity = i % kRingCapacity ∧ seq = ticket + 1) := by
  unfold Ring.Published Ring.setSeq at *
  by_cases same : ticket % kRingCapacity = i % kRingCapacity
  · exact .inr ⟨same, by simpa [same] using published⟩
  · exact .inl (by simpa [Function.update_of_ne same] using published)

theorem setValue_published {i ticket : ℕ} {value : ℤ} :
    (ring.setValue i value).Published ticket ↔ ring.Published ticket := by
  unfold Ring.Published Ring.setValue
  by_cases same : ticket % kRingCapacity = i
  · simp [same]
  · simp [Function.update_of_ne same]

/-- The label that a reset leaves in a cell belongs to no ticket of this cell. -/
theorem rewritten_label_ne {i ticket : ℕ}
    (same : ticket % kRingCapacity = i % kRingCapacity) :
    i + kRingCapacity ≠ ticket + 1 := by
  rw [kRingCapacity_eq] at *
  omega

theorem Booked.advance_labels (booked : Booked ring roles) (within : role.Within ring)
    (advance : Advance ring role after next) {ticket : ℕ}
    (published : after.Published ticket) : ticket < after.tail := by
  cases advance with
  | published =>
      rcases setSeq_published published with old | ⟨-, label⟩
      · exact booked.labels ticket old
      · obtain rfl : _ = ticket := Nat.succ.inj label
        exact within
  | rewroteMore | rewroteLast =>
      rcases setSeq_published published with old | ⟨same, label⟩
      · exact booked.labels ticket old
      · exact absurd label (rewritten_label_ne same)
  | wroteValue => exact booked.labels ticket (setValue_published.mp published)
  | claimed current =>
      subst current
      exact (booked.labels ticket published).trans (Nat.lt_succ_self _)
  | _ => exact booked.labels ticket published

theorem Booked.advance_within (booked : Booked ring roles) (within : role.Within ring)
    (advance : Advance ring role after next) : next.Within after := by
  cases advance with
  | readTail | claimLost => exact le_rfl
  | foundFull => exact booked.ordered
  | foundRoom => exact within
  | oldestPublished published => exact booked.labels _ published
  | claimed => exact Nat.lt_succ_self _
  | wroteValue => exact within
  | measuredHead => exact booked.ordered
  | measuredTail more => exact ⟨more, le_rfl⟩
  | measuredEmpty => exact le_rfl
  | rewroteMore more => exact ⟨more, within.2⟩
  | rewroteLast => exact within.2
  | _ => trivial

theorem Booked.advance_ordered (booked : Booked ring roles) (within : role.Within ring)
    (advance : Advance ring role after next) : after.head ≤ after.tail := by
  cases advance with
  | evicted current => exact within
  | claimed current => exact current ▸ booked.ordered.trans (Nat.le_succ _)
  | reopened => exact within
  | _ => exact booked.ordered

theorem Booked.advance (booked : Booked ring roles) (found : roles[index]? = some role)
    (advance : Advance ring role after next) : Booked after (roles.set index next) := by
  have within := booked.within role (List.mem_of_getElem? found)
  refine ⟨booked.advance_ordered within advance, ?_,
    fun ticket => booked.advance_labels within advance, ?_⟩
  · rcases advance.ticket with ⟨tailEq, same⟩ | ⟨tailEq, nothing, something⟩
    · rw [tailEq]
      exact (Roster.filterMap_set_perm_of_eq found same).trans booked.claims
    · rw [tailEq, List.range_succ]
      exact (Roster.filterMap_set_perm_of_none found nothing something).trans
        (booked.claims.append_right _)
  · intro other member
    rcases List.mem_or_eq_of_mem_set member with old | rfl
    · exact (booked.within other old).mono advance.tail_le
    · exact booked.advance_within within advance

theorem Booked.call (booked : Booked ring roles) : Booked ring (roles ++ [.apart]) where
  ordered := booked.ordered
  claims := by
    rw [List.filterMap_append]
    exact (List.append_nil _).symm ▸ booked.claims
  labels := booked.labels
  within := by
    intro role member
    rcases List.mem_append.mp member with old | new
    · exact booked.within role old
    · obtain rfl := List.mem_singleton.mp new
      trivial

theorem Booked.tail_le (booked : Booked ring roles) : ring.tail ≤ roles.length := by
  calc ring.tail = (roles.filterMap Role.ticket).length := by simp [booked.claims.length_eq]
    _ ≤ roles.length := List.length_filterMap_le _ _

end Advance

theorem Call.start_role (call : Call) : call.start.role = .apart := by
  cases call <;> rfl

/-- A call that has returned does not move any more. -/
theorem Task.running_of_move {caller : ℕ} {choice : Choice} {collector : MetricsCollector}
    {task : Task} {result : MetricsCollector × Task}
    (moved : task.move caller choice collector = some result) : task.isReturned = false := by
  rw [Bool.eq_false_iff]
  intro returned
  unfold Task.isReturned at returned
  split at returned <;> first | cases moved | cases returned

namespace System

variable {system next : System}

/-- A move replaces one task by what its move leaves. -/
theorem step_move {index : ℕ} {choice : Choice}
    (taken : system.step (.move index choice) = some next) :
    ∃ task nextTask, system.tasks[index]? = some task ∧
      task.move index choice system.collector = some (next.collector, nextTask) ∧
      next.tasks = system.tasks.set index nextTask := by
  obtain ⟨task, found, moved⟩ := Option.bind_eq_some_iff.mp taken
  obtain ⟨result, resultEq, rfl⟩ := Option.map_eq_some_iff.mp moved
  exact ⟨task, result.2, found, resultEq, rfl⟩

theorem step_of_move {index : ℕ} {choice : Choice} {collector : MetricsCollector}
    {tasks : List Task} {task : Task} {result : MetricsCollector × Task}
    (found : tasks[index]? = some task)
    (moved : task.move index choice collector = some result) :
    step ⟨collector, tasks⟩ (.move index choice) =
      some ⟨result.1, tasks.set index result.2⟩ := by
  simp [step, found, moved]

theorem step_length {action : Action} (taken : system.step action = some next) :
    system.tasks.length ≤ next.tasks.length := by
  cases action with
  | call call =>
      cases taken
      simp
  | move index choice =>
      obtain ⟨task, nextTask, -, -, tasksEq⟩ := step_move taken
      simp [tasksEq]

theorem roles_getElem? {index : ℕ} {task : Task} (found : system.tasks[index]? = some task) :
    system.roles[index]? = some task.role := by
  simp [roles, found]

/-- The ring and the roles take one of the listed moves. -/
theorem move_advance {index : ℕ} {choice : Choice}
    (booked : Booked system.collector.ring system.roles)
    (small : system.tasks.length < 2 ^ 63)
    (taken : system.step (.move index choice) = some next) :
    ∃ role nextRole, system.roles[index]? = some role ∧
      Advance system.collector.ring role next.collector.ring nextRole ∧
      next.roles = system.roles.set index nextRole := by
  obtain ⟨task, nextTask, found, moved, tasksEq⟩ := step_move taken
  have roleFound := roles_getElem? found
  have tailSmall : system.collector.ring.tail < 2 ^ 63 := by
    have := booked.tail_le
    simp only [roles, List.length_map] at this
    omega
  refine ⟨task.role, nextTask.role, roleFound, ?_, ?_⟩
  · exact Task.move_advance moved (booked.within _ (List.mem_of_getElem? roleFound))
      booked.ordered tailSmall
  · simp [roles, tasksEq, List.map_set]

theorem call_roles {call : Call} (taken : system.step (.call call) = some next) :
    next.collector = system.collector ∧ next.roles = system.roles ++ [.apart] := by
  cases taken
  simp [roles, call.start_role]

theorem step_booked {action : Action} (booked : Booked system.collector.ring system.roles)
    (small : system.tasks.length < 2 ^ 63) (taken : system.step action = some next) :
    Booked next.collector.ring next.roles := by
  cases action with
  | call call =>
      obtain ⟨collectorEq, rolesEq⟩ := call_roles taken
      rw [collectorEq, rolesEq]
      exact booked.call
  | move index choice =>
      obtain ⟨role, nextRole, found, advance, rolesEq⟩ := move_advance booked small taken
      rw [rolesEq]
      exact booked.advance found advance

theorem new_booked (now : ℤ) : Booked (new now).collector.ring (new now).roles where
  ordered := le_rfl
  claims := .nil
  labels := by
    intro ticket published
    have small := Nat.mod_le ticket kRingCapacity
    have label : ticket % kRingCapacity = ticket + 1 := published
    omega
  within := by simp [new, roles]

/-- A property of the ring and the roles that every guarded step preserves holds
along guarded runs of fewer than `2 ^ 63` calls. -/
theorem booked_invariant {guard : System → Action → Prop} {now : ℤ}
    (reaches : Reaches step guard (new now) system) (small : system.tasks.length < 2 ^ 63)
    (inv : System → Prop) (initial : inv (new now))
    (preserved : ∀ before action after, Booked before.collector.ring before.roles →
      before.tasks.length < 2 ^ 63 → inv before → guard before action →
      step before action = some after → inv after) :
    Booked system.collector.ring system.roles ∧ inv system := by
  refine reaches.invariant
    (fun state => state.tasks.length < 2 ^ 63 →
      Booked state.collector.ring state.roles ∧ inv state)
    (fun _ => ⟨new_booked now, initial⟩) ?_ small
  intro before action after holds allowed taken afterSmall
  have beforeSmall := (step_length taken).trans_lt afterSmall
  obtain ⟨booked, invBefore⟩ := holds beforeSmall
  exact ⟨step_booked booked beforeSmall taken,
    preserved before action after booked beforeSmall invBefore allowed taken⟩

end System

end Cppload.Metrics
