import Cppload.MetricsCollectorSolo

/-!
# The ring under resets

`reset` reads `head_` and `tail_`, relabels the cells in between and then stores
`head_`, all without excluding writers.  When a cell was recycled in the
meantime the relabelling hides a newer sample for good.  As long as no label is
stored into a recycled cell and `head_` is not moved backwards, the ring is
whole whenever no call is in progress.
-/

namespace Cppload.Metrics

open Transition TicketRing

/-- The next move stores no label into a cell that a newer ticket has claimed,
and does not move `head_` backwards. -/
def Role.undisturbing (ring : Ring) : Role → Bool
  | .pushing _ (.storeSeq t) => ring.tail ≤ t + kRingCapacity
  | .rewriting i _ => ring.tail ≤ i + kRingCapacity
  | .closing t => ring.head ≤ t
  | _ => true

def System.undisturbing (system : System) : Action → Bool
  | .call _ => true
  | .move index _ => (system.roles[index]?).all (Role.undisturbing system.collector.ring)

/-- Why a buffered ticket may not be published yet. -/
def Role.Excuses (ticket : ℕ) : Role → Prop
  | .pushing _ (.storeValue t) | .pushing _ (.storeSeq t) => ticket = t
  | .rewriting _ t | .closing t => ticket < t
  | _ => False

/-- The test of a writer about to claim a ticket still holds. -/
def Role.HasRoom (ring : Ring) : Role → Prop
  | .pushing _ (.casTail t) => t < ring.head + kRingCapacity
  | _ => True

structure Whole (ring : Ring) (roles : List Role) : Prop where
  bounded : ring.tail ≤ ring.head + kRingCapacity
  room : ∀ role ∈ roles, role.HasRoom ring
  covered : Covered kRingCapacity ring.cells (fun ticket cell => cell.seq = ticket + 1)
    ring.head ring.tail (fun ticket => ∃ role ∈ roles, role.Excuses ticket)

section Advance

variable {ring after : Ring} {role next : Role} {roles : List Role} {index ticket : ℕ}

/-- An excuse is lost only with the task that gave it. -/
theorem excuse_set (found : roles[index]? = some role)
    (excused : ∃ other ∈ roles, other.Excuses ticket) :
    role.Excuses ticket ∨ ∃ other ∈ roles.set index next, other.Excuses ticket := by
  obtain ⟨other, member, excuse⟩ := excused
  obtain ⟨position, positionEq⟩ := List.mem_iff_getElem?.mp member
  by_cases same : index = position
  · subst same
    rw [found] at positionEq
    cases positionEq
    exact .inl excuse
  · have kept : (roles.set index next)[position]? = some other := by
      rwa [List.getElem?_set_ne same]
    exact .inr ⟨other, List.mem_of_getElem? kept, excuse⟩

theorem excuse_self (found : roles[index]? = some role) (excuse : next.Excuses ticket) :
    ∃ other ∈ roles.set index next, other.Excuses ticket :=
  ⟨next, List.mem_of_getElem? (Roster.getElem?_set_self found), excuse⟩

theorem Role.HasRoom.mono (room : role.HasRoom ring) (later : ring.head ≤ after.head) :
    role.HasRoom after := by
  unfold Role.HasRoom at room ⊢
  split at room
  · omega
  · trivial

/-- Undisturbing moves never move `head_` backwards. -/
theorem Advance.head_le (advance : Advance ring role after next)
    (allowed : role.undisturbing ring = true) : ring.head ≤ after.head := by
  cases advance with
  | evicted current => exact current ▸ Nat.le_succ _
  | reopened => exact of_decide_eq_true allowed
  | _ => exact le_rfl

theorem Whole.advance_bounded (whole : Whole ring roles) (room : role.HasRoom ring)
    (allowed : role.undisturbing ring = true) (advance : Advance ring role after next) :
    after.tail ≤ after.head + kRingCapacity := by
  have bounded := whole.bounded
  cases advance with
  | evicted current => dsimp only; omega
  | claimed current => exact room
  | reopened => exact bounded.trans (Nat.add_le_add_right (of_decide_eq_true allowed) _)
  | _ => exact bounded

theorem Advance.hasRoom (advance : Advance ring role after next) : next.HasRoom after := by
  cases advance with
  | foundRoom behind room => exact room
  | _ => trivial

/-- Relabelling hides tickets that the reset still accounts for. -/
theorem Whole.rewrite_covered {i t : ℕ} (whole : Whole ring roles)
    (found : roles[index]? = some (.rewriting i t)) (within : i < t ∧ t ≤ ring.tail)
    (allowed : ring.tail ≤ i + kRingCapacity) (excuses : ∀ ticket < t, next.Excuses ticket)
    (seq : ℕ) :
    Covered kRingCapacity (ring.setSeq (i % kRingCapacity) seq).cells
      (fun ticket cell => cell.seq = ticket + 1) ring.head ring.tail
      (fun ticket => ∃ other ∈ roles.set index next, other.Excuses ticket) := by
  refine (whole.covered.write whole.bounded (by omega) allowed _).mono le_rfl ?_
  rintro ticket - (rfl | excused)
  · exact excuse_self found (excuses ticket within.1)
  · rcases excuse_set found excused with excuse | kept
    · exact excuse_self found (excuses ticket excuse)
    · exact kept

theorem Whole.advance_covered (booked : Booked ring roles) (whole : Whole ring roles)
    (found : roles[index]? = some role) (allowed : role.undisturbing ring = true)
    (advance : Advance ring role after next) :
    Covered kRingCapacity after.cells (fun ticket cell => cell.seq = ticket + 1)
      after.head after.tail
      (fun ticket => ∃ other ∈ roles.set index next, other.Excuses ticket) := by
  have within := booked.within role (List.mem_of_getElem? found)
  -- a task that leaves the cells alone and excuses nothing takes no excuse away
  have unmoved (silent : ∀ ticket, ¬ role.Excuses ticket) {head : ℕ}
      (later : ring.head ≤ head) :
      Covered kRingCapacity ring.cells (fun ticket cell => cell.seq = ticket + 1)
        head ring.tail (fun ticket => ∃ other ∈ roles.set index next, other.Excuses ticket) :=
    whole.covered.mono later fun ticket _ excused =>
      (excuse_set found excused).resolve_left (silent ticket)
  cases advance with
  | evicted current => exact unmoved (fun _ => id) (current ▸ Nat.le_succ _)
  | claimed current =>
      subst current
      exact (unmoved (fun _ => id) le_rfl).claim (excuse_self found rfl)
  | wroteValue =>
      intro ticket above below
      refine (whole.covered ticket above below).imp setValue_published.mpr fun excused => ?_
      rcases excuse_set found excused with excuse | kept
      · exact excuse_self found excuse
      · exact kept
  | @published latency t =>
      have written := whole.covered.write whole.bounded within (of_decide_eq_true allowed)
        { ring.cells (t % kRingCapacity) with seq := t + 1 }
      refine Covered.settle t (written.mono le_rfl ?_) (by simp [Ring.setSeq])
      rintro ticket - (same | excused)
      · exact .inl same
      · exact excuse_set found excused
  | rewroteMore =>
      exact whole.rewrite_covered found within (of_decide_eq_true allowed) (fun _ => id) _
  | rewroteLast =>
      exact whole.rewrite_covered found within (of_decide_eq_true allowed) (fun _ => id) _
  | reopened =>
      refine whole.covered.mono (of_decide_eq_true allowed) fun ticket above excused => ?_
      rcases excuse_set found excused with excuse | kept
      · exact absurd excuse (Nat.not_lt.mpr above)
      · exact kept
  | _ => exact unmoved (fun _ => id) le_rfl

theorem Whole.advance (booked : Booked ring roles) (whole : Whole ring roles)
    (found : roles[index]? = some role) (allowed : role.undisturbing ring = true)
    (advance : Advance ring role after next) : Whole after (roles.set index next) where
  bounded := whole.advance_bounded (whole.room role (List.mem_of_getElem? found)) allowed
    advance
  room := by
    intro other member
    rcases List.mem_or_eq_of_mem_set member with old | rfl
    · exact (whole.room other old).mono (advance.head_le allowed)
    · exact advance.hasRoom
  covered := whole.advance_covered booked found allowed advance

theorem Whole.call (whole : Whole ring roles) : Whole ring (roles ++ [.apart]) where
  bounded := whole.bounded
  room := by
    intro other member
    rcases List.mem_append.mp member with old | new
    · exact whole.room other old
    · obtain rfl := List.mem_singleton.mp new
      trivial
  covered := whole.covered.mono le_rfl fun _ _ ⟨other, member, excuse⟩ =>
    ⟨other, List.mem_append_left _ member, excuse⟩

end Advance

namespace System

variable {system next : System}

theorem new_whole (now : ℤ) : Whole (new now).collector.ring (new now).roles where
  bounded := Nat.zero_le _
  room := by simp [roles, new]
  covered := fun ticket _ below => absurd below (Nat.not_lt_zero ticket)

theorem step_whole {action : Action} (booked : Booked system.collector.ring system.roles)
    (small : system.tasks.length < 2 ^ 63)
    (whole : Whole system.collector.ring system.roles)
    (allowed : system.undisturbing action = true) (taken : system.step action = some next) :
    Whole next.collector.ring next.roles := by
  cases action with
  | call call =>
      obtain ⟨collectorEq, rolesEq⟩ := call_roles taken
      rw [collectorEq, rolesEq]
      exact whole.call
  | move index choice =>
      obtain ⟨role, nextRole, found, advance, rolesEq⟩ := move_advance booked small taken
      rw [rolesEq]
      refine whole.advance booked found ?_ advance
      simpa [undisturbing, found] using allowed

theorem not_excuses_of_returned {task : Task} (returned : task.isReturned = true)
    (ticket : ℕ) : ¬ task.role.Excuses ticket := by
  unfold Task.isReturned at returned
  split at returned
  · exact id
  · exact id
  · exact id
  · simp at returned

/-- When no call is in progress, the ring is whole. -/
theorem reachable_whole {now : ℤ}
    (reaches : Reaches step (fun state action => state.undisturbing action) (new now) system)
    (small : system.tasks.length < 2 ^ 63) (quiescent : system.Quiescent) :
    system.collector.ring.head ≤ system.collector.ring.tail ∧
      system.collector.ring.tail - system.collector.ring.head ≤ kRingCapacity ∧
      ∀ ticket, system.collector.ring.head ≤ ticket → ticket < system.collector.ring.tail →
        (system.collector.ring.cells (slot ticket)).seq = ticket + 1 := by
  obtain ⟨booked, whole⟩ := booked_invariant reaches small
    (fun state => Whole state.collector.ring state.roles) (new_whole now)
    fun _ _ _ booked small whole allowed taken => step_whole booked small whole allowed taken
  refine ⟨booked.ordered, by have := whole.bounded; omega, ?_⟩
  intro ticket above below
  rw [slot_eq]
  refine (whole.covered ticket above below).resolve_right ?_
  rintro ⟨role, member, excuse⟩
  obtain ⟨task, taskMember, rfl⟩ := List.mem_map.mp member
  exact not_excuses_of_returned (quiescent task taskMember) ticket excuse

/-- A sample, a reset and another sample, one after the other. -/
theorem reachable_whole_sequential :
    ∃ system, Reaches step (fun state action => state.undisturbing action) (new 0) system ∧
      system.Quiescent ∧ system.collector.ring.head = 1 ∧ system.collector.ring.tail = 2 ∧
      (system.collector.ring.cells (slot 1)).seq = 2 := by
  have evaluated :
      (guardedRun step (fun state action => state.undisturbing action) (new 0) (List.flatten
        [.call (.record .instant) :: List.replicate 14 (.move 0 smooth),
          .call .reset :: List.replicate 15 (.move 1 smooth),
          .call (.record .instant) :: List.replicate 14 (.move 2 smooth)])).map
        (fun system => (system.collector.ring.head, system.collector.ring.tail,
          system.tasks.length, system.tasks.all Task.isReturned)) =
      some (1, 2, 3, true) := by
    decide +kernel
  obtain ⟨system, executes, fields⟩ := Option.map_eq_some_iff.mp evaluated
  simp only [Prod.mk.injEq] at fields
  obtain ⟨headEq, tailEq, lengthEq, returned⟩ := fields
  have reaches := reaches_of_guardedRun executes
  have quiescent : system.Quiescent := List.all_eq_true.mp returned
  exact ⟨system, reaches, quiescent, headEq, tailEq,
    (reachable_whole reaches (by omega) quiescent).2.2 1 headEq.le (by omega)⟩

/-- A reset stalls while the ring fills and the oldest cell is recycled; its
relabelling then hides the newest sample, and no call is in progress any more. -/
theorem reset_hides_newest :
    ∃ system, Reaches step Unrestricted (new 0) system ∧ system.tasks.length < 2 ^ 63 ∧
      system.Quiescent ∧ ∃ ticket, system.collector.ring.head ≤ ticket ∧
        ticket < system.collector.ring.tail ∧
        (system.collector.ring.cells (slot ticket)).seq ≠ ticket + 1 := by
  have capacityEq := kRingCapacity_eq
  obtain ⟨⟨collector, tasks⟩, reaches, headEq, tailEq, oldest, rest, returned, lengthEq,
    rfl⟩ := stalled_reachable (kRingCapacity - 1) (by omega)
  dsimp only at headEq tailEq oldest
  obtain ⟨recorded, toRecorded, ringEq⟩ :=
    record_full_reaches collector _ .instant (by omega) (by rw [headEq]; exact oldest)
      (by omega)
  -- now the cell of ticket 0 belongs to the last ticket, but the reset relabels it
  have relabelled :
      run step
        ⟨recorded, .record .instant (.pushing (.returned 0)) :: .reset (.rewrite 0 1) ::
          (rest ++ [.record .instant (.pushing (.returned collector.ring.tail))])⟩
        (List.replicate 3 (.move 1 smooth)) =
      some
        ⟨{ recorded with
            ring := { recorded.ring.setSeq 0 kRingCapacity with head := 1 }
            snapshotMtx := none },
          .record .instant (.pushing (.returned 0)) :: .reset .returned ::
            (rest ++ [.record .instant (.pushing (.returned collector.ring.tail))])⟩ :=
    rfl
  have lastCell : slot kRingCapacity = 0 := by
    rw [slot_eq, Nat.mod_self]
  have calmly := (Reaches.trans reaches toRecorded).mono fun _ _ _ => trivial
  refine ⟨_, calmly.trans (reaches_of_run relabelled), ?_, ?_, kRingCapacity, ?_, ?_, ?_⟩
  · simp only [List.length_cons, List.length_append, List.length_nil]
    omega
  · intro task member
    simp only [List.mem_cons, List.mem_append, List.not_mem_nil, or_false] at member
    rcases member with rfl | rfl | old | rfl
    · rfl
    · rfl
    · exact returned task old
    · rfl
  · dsimp only
    omega
  · simp only [ringEq, Ring.setSeq, Ring.append]
    omega
  · simp [lastCell, Ring.setSeq]

end System

end Cppload.Metrics
