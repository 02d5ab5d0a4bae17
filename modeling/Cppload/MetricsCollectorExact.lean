import Cppload.MetricsCollectorLedger
import Cppload.MetricsCollectorReset

/-!
# The collector without reset

Without resets a claimed ticket that is not yet published stays in the window
between `head_` and `tail_`, because only published tickets are evicted.  So no
two calls ever write the same cell at the same time, and when all calls have
returned the collector holds exactly what was recorded.
-/

namespace Cppload.Metrics

open Transition TicketRing

/-- The ticket whose cell the call is writing. -/
def Role.inFlight : Role → Option ℕ
  | .pushing _ (.storeValue t) | .pushing _ (.storeSeq t) => some t
  | _ => none

/-- The ticket that the call is about to evict. -/
def Role.evicting : Role → Option ℕ
  | .pushing _ (.casHead h) => some h
  | _ => none

/-- The ticket and the latency that the call has stored. -/
def Role.stored : Role → Option (ℕ × ℤ)
  | .pushing latency (.storeSeq t) | .pushing latency (.returned t) => some (t, latency)
  | _ => none

def Role.resets : Role → Bool
  | .measured _ | .rewriting _ _ | .closing _ => true
  | _ => false

theorem Role.ticket_of_inFlight {role : Role} {ticket : ℕ}
    (writing : role.inFlight = some ticket) : role.ticket = some ticket := by
  unfold Role.inFlight at writing
  split at writing <;> first | exact writing | cases writing

theorem Role.ticket_of_stored {role : Role} {entry : ℕ × ℤ}
    (stored : role.stored = some entry) : role.ticket = some entry.1 := by
  unfold Role.stored at stored
  split at stored <;> cases stored <;> rfl

/-- What one role owes to the ring. -/
structure Role.Exact (ring : Ring) (role : Role) : Prop where
  noReset : role.resets = false
  current : ∀ ticket, role.inFlight = some ticket → ring.head ≤ ticket
  unlabelled : ∀ ticket, role.inFlight = some ticket → ¬ ring.Published ticket
  oldest : ∀ ticket, role.evicting = some ticket → ring.head ≤ ticket → ring.Published ticket
  value : ∀ entry, role.stored = some entry → ring.head ≤ entry.1 →
    (ring.cells (entry.1 % kRingCapacity)).value = entry.2

section Advance

variable {ring after : Ring} {role next other : Role} {roles : List Role}
variable {index position ticket : ℕ}

/-- A call that is not at its ticket owes nothing. -/
theorem Role.Exact.of_apart (noReset : role.resets = false) (noFlight : role.inFlight = none)
    (noEviction : role.evicting = none) (noValue : role.stored = none) : role.Exact ring where
  noReset := noReset
  current := by simp [noFlight]
  unlabelled := by simp [noFlight]
  oldest := by simp [noEviction]
  value := by simp [noValue]

theorem Booked.ticket_lt (booked : Booked ring roles) (member : role ∈ roles)
    (claimed : role.ticket = some ticket) : ticket < ring.tail := by
  have listed : ticket ∈ roles.filterMap Role.ticket :=
    List.mem_filterMap.mpr ⟨role, member, claimed⟩
  exact List.mem_range.mp (booked.claims.mem_iff.mp listed)

theorem Booked.ticket_ne (booked : Booked ring roles) (elsewhere : position ≠ index)
    (found : roles[index]? = some role) (otherFound : roles[position]? = some other)
    (claimed : role.ticket = some ticket) : other.ticket ≠ some ticket :=
  Roster.select_ne_of_nodup (booked.claims.nodup_iff.mpr List.nodup_range) elsewhere.symm
    found otherFound claimed

/-- Publishing a ticket keeps what was published in the window. -/
theorem published_setSeq {t : ℕ} (window : ring.tail ≤ ring.head + kRingCapacity)
    (tAbove : ring.head ≤ t) (tBelow : t < ring.tail) (above : ring.head ≤ ticket)
    (below : ticket < ring.tail) (published : ring.Published ticket) :
    (ring.setSeq (t % kRingCapacity) (t + 1)).Published ticket := by
  unfold Ring.Published Ring.setSeq
  by_cases same : ticket = t
  · simp [same]
  · have apart := mod_ne_of_window window same above below tAbove tBelow
    simp only [Function.update_of_ne apart]
    exact published

theorem setSeq_value {i j seq : ℕ} :
    ((ring.setSeq i seq).cells j).value = (ring.cells j).value := by
  unfold Ring.setSeq
  by_cases same : j = i
  · simp [same]
  · simp [Function.update_of_ne same]

/-- A move keeps what the other roles owe. -/
theorem Role.Exact.keep (booked : Booked ring roles) (whole : Whole ring roles)
    (found : roles[index]? = some role) (owed : role.Exact ring)
    (advance : Advance ring role after next) (elsewhere : position ≠ index)
    (otherFound : roles[position]? = some other) (otherOwed : other.Exact ring) :
    other.Exact after := by
  have member := List.mem_of_getElem? found
  have otherMember := List.mem_of_getElem? otherFound
  cases advance with
  | evicted headEq =>
      subst headEq
      have published := owed.oldest _ rfl le_rfl
      refine ⟨otherOwed.noReset, ?_, otherOwed.unlabelled, ?_, ?_⟩
      · intro ticket writing
        -- the evicted ticket is published, so it is not the one in flight
        have above := otherOwed.current ticket writing
        have differs : ticket ≠ ring.head := by
          rintro rfl
          exact otherOwed.unlabelled _ writing published
        exact lt_of_le_of_ne above differs.symm
      · intro ticket evicting above
        exact otherOwed.oldest ticket evicting (Nat.le_of_succ_le above)
      · intro entry stored above
        exact otherOwed.value entry stored (Nat.le_of_succ_le above)
  | @wroteValue latency t =>
      refine ⟨otherOwed.noReset, otherOwed.current, ?_, ?_, ?_⟩
      · intro ticket writing
        rw [setValue_published]
        exact otherOwed.unlabelled ticket writing
      · intro ticket evicting above
        rw [setValue_published]
        exact otherOwed.oldest ticket evicting above
      · intro entry stored above
        have claimed := Role.ticket_of_stored stored
        have differs : entry.1 ≠ t := fun same =>
          booked.ticket_ne elsewhere found otherFound rfl (same ▸ claimed)
        have apart := mod_ne_of_window whole.bounded differs above
          (booked.ticket_lt otherMember claimed) (owed.current t rfl)
          (booked.ticket_lt member rfl)
        simpa [Ring.setValue, Function.update_of_ne apart] using
          otherOwed.value entry stored above
  | @published latency t =>
      have tBelow := booked.ticket_lt member rfl
      refine ⟨otherOwed.noReset, otherOwed.current, ?_, ?_, ?_⟩
      · intro ticket writing label
        rcases setSeq_published label with old | ⟨-, same⟩
        · exact otherOwed.unlabelled ticket writing old
        · obtain rfl := Nat.succ.inj same
          exact booked.ticket_ne elsewhere found otherFound rfl
            (Role.ticket_of_inFlight writing)
      · intro ticket evicting above
        have published := otherOwed.oldest ticket evicting above
        exact published_setSeq whole.bounded (owed.current t rfl) tBelow above
          (booked.labels ticket published) published
      · intro entry stored above
        rw [setSeq_value]
        exact otherOwed.value entry stored above
  | claimed =>
      exact ⟨otherOwed.noReset, otherOwed.current, otherOwed.unlabelled, otherOwed.oldest,
        otherOwed.value⟩
  | rewroteMore => cases owed.noReset
  | rewroteLast => cases owed.noReset
  | reopened => cases owed.noReset
  | _ => exact otherOwed

/-- A move of a writer leaves it with what it owes. -/
theorem Role.Exact.advance (booked : Booked ring roles) (owed : role.Exact ring)
    (stays : next.resets = false) (advance : Advance ring role after next) :
    next.Exact after := by
  cases advance with
  | oldestPublished published =>
      refine ⟨rfl, ?_, ?_, ?_, ?_⟩
      · rintro ticket ⟨⟩
      · rintro ticket ⟨⟩
      · rintro ticket ⟨⟩ -
        exact published
      · rintro entry ⟨⟩
  | claimed current =>
      subst current
      refine ⟨rfl, ?_, ?_, ?_, ?_⟩
      · rintro ticket ⟨⟩
        exact booked.ordered
      · rintro ticket ⟨⟩ label
        exact (booked.labels _ label).false
      · rintro ticket ⟨⟩
      · rintro entry ⟨⟩
  | wroteValue =>
      refine ⟨rfl, owed.current, ?_, ?_, ?_⟩
      · intro ticket writing
        rw [setValue_published]
        exact owed.unlabelled ticket writing
      · rintro ticket ⟨⟩
      · rintro entry ⟨⟩ -
        simp [Ring.setValue]
  | published =>
      refine ⟨rfl, ?_, ?_, ?_, ?_⟩
      · rintro ticket ⟨⟩
      · rintro ticket ⟨⟩
      · rintro ticket ⟨⟩
      · intro entry stored above
        rw [setSeq_value]
        exact owed.value entry stored above
  | measuredHead | measuredTail | measuredEmpty | rewroteMore | rewroteLast => cases stays
  | _ => exact .of_apart rfl rfl rfl rfl

/-- A writer in the window never disturbs a newer ticket. -/
theorem Role.Exact.undisturbing (whole : Whole ring roles) (owed : role.Exact ring) :
    role.undisturbing ring = true := by
  have bounded := whole.bounded
  unfold Role.undisturbing
  split
  · have current := owed.current _ rfl
    simp only [decide_eq_true_eq]
    omega
  · cases owed.noReset
  · cases owed.noReset
  · rfl

end Advance

/-- No reset is called and no latency is negative. -/
def Action.recordsOnly : Action → Bool
  | .call (.record sample) => 0 ≤ sample.latency
  | .call .reset => false
  | _ => true

theorem Task.move_kind {caller : ℕ} {choice : Choice} {collector later : MetricsCollector}
    {task nextTask : Task} (moved : task.move caller choice collector = some (later, nextTask)) :
    nextTask.isReset = task.isReset ∧ nextTask.sample = task.sample := by
  cases task <;>
  · obtain ⟨result, -, resultEq⟩ := Option.map_eq_some_iff.mp moved
    cases resultEq
    exact ⟨rfl, rfl⟩

theorem Task.role_resets {task : Task} (noReset : task.isReset = false) :
    task.role.resets = false := by
  unfold Task.role
  split <;> first | rfl | cases noReset

namespace System

variable {system next : System}

/-- A call of something else adds no reset. -/
theorem noReset_call {call : Call} (noReset : ∀ task ∈ system.tasks, task.isReset = false)
    (other : call.start.isReset = false) (taken : system.step (.call call) = some next) :
    ∀ task ∈ next.tasks, task.isReset = false := by
  cases taken
  intro task member
  rcases List.mem_append.mp member with old | new
  · exact noReset task old
  · rw [List.mem_singleton.mp new]
    exact other

theorem noReset_move {index : ℕ} {choice : Choice}
    (noReset : ∀ task ∈ system.tasks, task.isReset = false)
    (taken : system.step (.move index choice) = some next) :
    ∀ task ∈ next.tasks, task.isReset = false := by
  obtain ⟨task, nextTask, found, moved, tasksEq⟩ := step_move taken
  intro other member
  rw [tasksEq] at member
  rcases List.mem_or_eq_of_mem_set member with old | rfl
  · exact noReset other old
  · exact (Task.move_kind moved).1.trans (noReset task (List.mem_of_getElem? found))

/-- Everything that holds along runs without reset. -/
structure Exact (system : System) : Prop where
  noReset : ∀ task ∈ system.tasks, task.isReset = false
  nonneg : ∀ sample ∈ system.records, 0 ≤ sample.latency
  whole : Whole system.collector.ring system.roles
  owed : ∀ role ∈ system.roles, role.Exact system.collector.ring
  balanced : ∀ counter, system.Balanced counter
  extremes : system.Extremes

theorem new_exact (now : ℤ) : (new now).Exact where
  noReset := by simp [new]
  nonneg := by simp [new, records]
  whole := new_whole now
  owed := by simp [new, roles]
  balanced := new_balanced now
  extremes := new_extremes now

theorem Exact.call {call : Call} (exactly : system.Exact)
    (allowed : (Action.call call).recordsOnly = true)
    (taken : system.step (.call call) = some next) : next.Exact := by
  obtain ⟨collectorEq, rolesEq⟩ := call_roles taken
  refine ⟨?_, ?_, ?_, ?_, fun counter => (exactly.balanced counter).call taken,
    exactly.extremes.step exactly.noReset taken⟩
  · refine noReset_call exactly.noReset ?_ taken
    cases call with
    | reset => cases allowed
    | _ => rfl
  · cases taken
    intro sample member
    simp only [records, List.filterMap_append, List.mem_append] at member
    rcases member with old | new
    · exact exactly.nonneg sample old
    · cases call with
      | record fresh =>
          obtain rfl := List.mem_singleton.mp new
          exact of_decide_eq_true allowed
      | reset => cases new
      | collect => cases new
  · rw [collectorEq, rolesEq]
    exact exactly.whole.call
  · rw [collectorEq, rolesEq]
    intro role member
    rcases List.mem_append.mp member with old | new
    · exact exactly.owed role old
    · obtain rfl := List.mem_singleton.mp new
      exact .of_apart rfl rfl rfl rfl

theorem Exact.move {index : ℕ} {choice : Choice}
    (booked : Booked system.collector.ring system.roles) (exactly : system.Exact)
    (small : system.tasks.length < 2 ^ 63)
    (taken : system.step (.move index choice) = some next) : next.Exact := by
  obtain ⟨task, nextTask, found, moved, tasksEq⟩ := step_move taken
  obtain ⟨resetEq, sampleEq⟩ := Task.move_kind moved
  have stays : nextTask.isReset = false :=
    resetEq.trans (exactly.noReset task (List.mem_of_getElem? found))
  obtain ⟨role, nextRole, roleFound, advance, rolesEq⟩ := move_advance booked small taken
  have owed := exactly.owed role (List.mem_of_getElem? roleFound)
  refine ⟨?_, ?_, ?_, ?_,
    fun counter => (exactly.balanced counter).move exactly.noReset taken,
    exactly.extremes.step exactly.noReset taken⟩
  · exact noReset_move exactly.noReset taken
  · intro sample member
    rw [records, tasksEq, (Roster.filterMap_set_perm_of_eq found sampleEq).mem_iff] at member
    exact exactly.nonneg sample member
  · rw [rolesEq]
    exact exactly.whole.advance booked roleFound (owed.undisturbing exactly.whole) advance
  · intro other member
    rw [rolesEq] at member
    rcases Roster.mem_set_cases member with rfl | ⟨position, elsewhere, otherFound⟩
    · have nextFound : next.roles[index]? = some nextTask.role := by
        refine roles_getElem? ?_
        rw [tasksEq]
        exact Roster.getElem?_set_self found
      rw [rolesEq, Roster.getElem?_set_self roleFound] at nextFound
      obtain rfl := Option.some.inj nextFound
      exact owed.advance booked (Task.role_resets stays) advance
    · exact Role.Exact.keep booked exactly.whole roleFound owed advance elsewhere otherFound
        (exactly.owed other (List.mem_of_getElem? otherFound))

end System

end Cppload.Metrics
