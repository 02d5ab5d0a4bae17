import Cppload.FormattedOutput
import Cppload.Roster
import Cppload.RepositoryIntegrity

/-!
# Identifiers from a counter

`generate_id` writes the low bits of the clock, of a counter and of a random number into
three fields of fixed width.  Clock and random number may be anything; the sixteen bits of
the counter alone tell identifiers apart.  The counter is one for the whole process, so
all repositories and all threads draw from it.

A create operation takes its identifier after it has looked for the project and before it
enters the record.  The system below has any number of such calls under way.  As long as
no more than 65536 identifiers have been drawn, no call enters a record in the place of
another one.
-/

namespace Cppload.Platform

open Transition Text

/-- `generate_id`, with the clock in nanoseconds, the value that `fetch_add` returns and
the number that the generator of the thread returns. -/
def generateId (ns : Int64) (seq random : UInt64) : String :=
  let randPart := random &&& 0xFFFF
  let oss : OutputStream := {}
  let oss := oss.hex.setfill '0'
  let oss := (oss.setw 8).write (ns &&& 0xFFFFFFFF).toUInt64.toUInt32.toNat
  let oss := (oss.setw 4).write (seq &&& 0xFFFF).toUInt16.toNat
  let oss := (oss.setw 4).write randPart.toUInt16.toNat
  String.ofList oss.text

/-! ## The three fields -/

theorem toNat_low_bits (value : UInt64) :
    (value &&& 0xFFFF).toUInt16.toNat = value.toNat % 65536 := by
  have masked : value.toNat &&& (2 ^ 16 - 1) = value.toNat % 2 ^ 16 :=
    Nat.and_two_pow_sub_one_eq_mod _ _
  simp only [UInt64.toNat_toUInt16, UInt64.toNat_and]
  change (value.toNat &&& (2 ^ 16 - 1)) % 2 ^ 16 = value.toNat % 2 ^ 16
  rw [masked, Nat.mod_mod]

theorem toList_generateId (ns : Int64) (seq random : UInt64) :
    ∃ time, time < 16 ^ 8 ∧
      (generateId ns seq random).toList =
        zeroPadded 16 8 time ++ (zeroPadded 16 4 (seq.toNat % 65536) ++
          zeroPadded 16 4 (random.toNat % 65536)) := by
  refine ⟨(ns &&& 0xFFFFFFFF).toUInt64.toUInt32.toNat, UInt32.toNat_lt _, ?_⟩
  simp only [generateId, toNat_low_bits, OutputStream.hex, OutputStream.setfill,
    OutputStream.setw, OutputStream.write, String.toList_ofList, List.nil_append,
    List.append_assoc, zeroPadded]

theorem generateId_wellFormed (ns : Int64) (seq random : UInt64) :
    (generateId ns seq random).length = 16 ∧
      ∀ c ∈ (generateId ns seq random).toList, isLowerHexDigit c = true := by
  obtain ⟨time, fits, written⟩ := toList_generateId ns seq random
  have counterFits : seq.toNat % 65536 < 16 ^ 4 := Nat.mod_lt _ (by decide)
  have randomFits : random.toNat % 65536 < 16 ^ 4 := Nat.mod_lt _ (by decide)
  constructor
  · rw [← String.length_toList, written, List.length_append, List.length_append,
      length_zeroPadded (by decide) (by decide) fits,
      length_zeroPadded (by decide) (by decide) counterFits,
      length_zeroPadded (by decide) (by decide) randomFits]
  · intro c member
    rw [written, List.mem_append, List.mem_append] at member
    rcases member with field | field | field <;>
      exact isLowerHexDigit_of_mem_zeroPadded (by decide) (by decide) field

/-- The field of the counter is found in the same place in both. -/
theorem counter_of_generateId_eq {ns ns' : Int64} {seq seq' random random' : UInt64}
    (same : generateId ns seq random = generateId ns' seq' random') :
    seq.toNat % 65536 = seq'.toNat % 65536 := by
  obtain ⟨time, fits, written⟩ := toList_generateId ns seq random
  obtain ⟨time', fits', written'⟩ := toList_generateId ns' seq' random'
  have counterFits (value : ℕ) : value % 65536 < 16 ^ 4 := Nat.mod_lt _ (by decide)
  rw [same, written'] at written
  obtain ⟨-, behind⟩ :=
    zeroPadded_append_inj (by decide) (by decide) (by decide) fits' fits written
  exact (zeroPadded_append_inj (by decide) (by decide) (by decide) (counterFits _)
    (counterFits _) behind).1.symm

/-- The identifier that the counter gives out after `ticket` others. -/
def IsTicket (start : UInt64) (ticket : ℕ) (id : String) : Prop :=
  ∃ ns random, id = generateId ns (start + UInt64.ofNat ticket) random

theorem IsTicket.ne {start : UInt64} {first second : ℕ} {id id' : String}
    (isFirst : IsTicket start first id) (isSecond : IsTicket start second id')
    (distinct : first < second) (near : second < first + 65536) : id ≠ id' := by
  obtain ⟨ns, random, rfl⟩ := isFirst
  obtain ⟨ns', random', rfl⟩ := isSecond
  intro same
  have fields := counter_of_generateId_eq same
  -- the counter wraps at a multiple of the period of its field
  simp only [UInt64.toNat_add, UInt64.toNat_ofNat'] at fields
  omega

/-! ## Calls under way -/

/-- What a create operation is asked for. -/
inductive Entity where
  | project (name description : String)
  | record (creation : Creation)
  deriving DecidableEq, Repr

namespace Repository

/-- What a create operation does before it takes an identifier. -/
def accept (repository : Repository) : Entity → Except PlatformError Unit
  | .project name _ => if name = "" then .error .invalidInput else .ok ()
  | .record creation => repository.check creation

/-- The critical section at the end of a create operation. -/
def store (repository : Repository) (stamp : Stamp) : Entity → Repository
  | .project name description =>
      { repository with
        projects := AList.insert stamp.id ⟨stamp.id, name, description, stamp.now⟩
          repository.projects }
  | .record creation => repository.enter stamp creation

/-- One of the four maps has an entry under the identifier. -/
def Uses (repository : Repository) (id : String) : Prop :=
  id ∈ repository.projects ∨ id ∈ repository.scenarios ∨ id ∈ repository.runs ∨
    id ∈ repository.policies

/-- Every entry of the four maps is still there, and unchanged. -/
structure Extends (before after : Repository) : Prop where
  projects : before.projects.Included after.projects
  scenarios : before.scenarios.Included after.scenarios
  runs : before.runs.Included after.runs
  policies : before.policies.Included after.policies

end Repository

/-- A create operation that has been accepted by a repository.  It has a stamp from the
moment it has built its entity. -/
structure OpenCall where
  handle : ℕ
  entity : Entity
  stamp : Option Stamp

/-- The counter of `generate_id`, the repositories of the process and the create operations
under way. -/
structure Process where
  counter : UInt64
  repositories : ℕ → Repository
  calls : List OpenCall

namespace Process

inductive Action where
  | accept (handle : ℕ) (entity : Entity)
  | build (index : ℕ) (ns : Int64) (random : UInt64) (now : ℤ)
  | enter (index : ℕ)
  | deleteProject (handle : ℕ) (id : String)
  | finishRun (handle : ℕ) (id : String) (status : RunStatus) (result : RunResult) (now : ℤ)

def new (counter : UInt64) : Process where
  counter := counter
  repositories := fun _ => .empty
  calls := []

def update (process : Process) (handle : ℕ) (repository : Repository) : Process :=
  { process with repositories := Function.update process.repositories handle repository }

/-- One critical section, or the call of `generate_id` between them. -/
def step (process : Process) : Action → Option Process
  | .accept handle entity =>
      match (process.repositories handle).accept entity with
      | .error _ => some process
      | .ok () => some { process with calls := process.calls ++ [⟨handle, entity, none⟩] }
  | .build index ns random now =>
      match process.calls[index]? with
      | some ⟨handle, entity, none⟩ =>
          some { process with
            counter := process.counter + 1
            calls := process.calls.set index
              ⟨handle, entity, some ⟨generateId ns process.counter random, now⟩⟩ }
      | _ => none
  | .enter index =>
      match process.calls[index]? with
      | some ⟨handle, entity, some stamp⟩ =>
          some { process.update handle ((process.repositories handle).store stamp entity) with
            calls := process.calls.eraseIdx index }
      | _ => none
  | .deleteProject handle id =>
      some (process.update handle ((process.repositories handle).deleteProject id).2)
  | .finishRun handle id status result now =>
      some (process.update handle
        ((process.repositories handle).finishRun id status result now).2)

def Action.builds : Action → Bool
  | .build .. => true
  | _ => false

def Action.enters : Action → Bool
  | .enter _ => true
  | _ => false

/-- The entities that are built along a schedule, with one call of `generate_id` each. -/
def created (actions : List Action) : ℕ :=
  actions.countP Action.builds

/-- The entities that are entered into a repository along a schedule. -/
def entered (actions : List Action) : ℕ :=
  actions.countP Action.enters

/-- The identifiers of the entities that are built and not yet entered. -/
def stamped (process : Process) : List String :=
  process.calls.filterMap fun call => call.stamp.map Stamp.id

end Process

/-! ## Which identifiers an operation uses -/

namespace Repository

variable {repository : Repository} {id : String}

theorem not_uses_empty : ¬Repository.empty.Uses id := by
  simp [Uses, empty]

theorem uses_store {stamp : Stamp} {entity : Entity}
    (uses : (repository.store stamp entity).Uses id) : id = stamp.id ∨ repository.Uses id := by
  cases entity with
  | project name description =>
      simp only [Uses, store, AList.mem_insert] at uses ⊢
      tauto
  | record creation =>
      cases creation with
      | scenario | run | policy =>
          simp only [Uses, store, enter, AList.mem_insert] at uses ⊢
          tauto

theorem uses_deleteProject {projectId : String}
    (uses : (repository.deleteProject projectId).2.Uses id) : repository.Uses id := by
  unfold deleteProject at uses
  split at uses
  · rcases uses with project | scenario | run | policy
    · exact .inl (AList.mem_erase.mp project).2
    · exact .inr (.inl (Table.mem_of_mem_keep scenario))
    · exact .inr (.inr (.inl (Table.mem_of_mem_keep run)))
    · exact .inr (.inr (.inr (Table.mem_of_mem_keep policy)))
  · exact uses

theorem uses_finishRun {runId : String} {status : RunStatus} {result : RunResult} {now : ℤ}
    (uses : (repository.finishRun runId status result now).2.Uses id) : repository.Uses id := by
  unfold finishRun at uses
  split at uses
  · exact uses
  · rename_i run located
    split at uses
    · exact uses
    · rcases uses with project | scenario | stored | policy
      · exact .inl project
      · exact .inr (.inl scenario)
      · refine .inr (.inr (.inl ?_))
        rcases (AList.mem_insert _).mp stored with same | old
        · rw [same, ← AList.lookup_isSome, located]
          rfl
        · exact old
      · exact .inr (.inr (.inr policy))

theorem Extends.refl (repository : Repository) : repository.Extends repository :=
  ⟨.refl _, .refl _, .refl _, .refl _⟩

/-- Behind the check of the name, `create_project` has only its critical section. -/
theorem store_project (repository : Repository) (stamp : Stamp) {name : String}
    (named : name ≠ "") (description : String) :
    repository.store stamp (.project name description) =
      (repository.createProject name description stamp).2 := by
  simp [store, createProject, named]

/-- What is stored under a new identifier replaces nothing. -/
theorem extends_store {stamp : Stamp} (fresh : ¬repository.Uses stamp.id) (entity : Entity) :
    repository.Extends (repository.store stamp entity) := by
  simp only [Uses, not_or] at fresh
  obtain ⟨noProject, noScenario, noRun, noPolicy⟩ := fresh
  cases entity with
  | project name description =>
      exact ⟨Table.included_insert noProject _, .refl _, .refl _, .refl _⟩
  | record creation =>
      cases creation with
      | scenario projectId name version yamlContent =>
          exact ⟨.refl _, Table.included_insert noScenario _, .refl _, .refl _⟩
      | run projectId scenarioId environment =>
          exact ⟨.refl _, .refl _, Table.included_insert noRun _, .refl _⟩
      | policy projectId name rules =>
          exact ⟨.refl _, .refl _, .refl _, Table.included_insert noPolicy _⟩

end Repository

/-! ## Steps -/

namespace Process

variable {process next : Process} {action : Action} {start : UInt64}

/-- What a step does to the counter, to the identifiers of the calls and to those in the
repositories. -/
inductive Effect (process next : Process) (action : Action) : Prop
  | quiet (noBuild : action.builds = false) (noEnter : action.enters = false)
      (counter : next.counter = process.counter) (stamped : next.stamped = process.stamped)
      (uses : ∀ handle id, (next.repositories handle).Uses id →
        (process.repositories handle).Uses id)
  | build (builds : action.builds = true) (noEnter : action.enters = false) (ns : Int64)
      (random : UInt64) (counter : next.counter = process.counter + 1)
      (stamped : next.stamped.Perm
        (process.stamped ++ [generateId ns process.counter random]))
      (repositories : next.repositories = process.repositories)
  | enter (noBuild : action.builds = false) (enters : action.enters = true) (id : String)
      (counter : next.counter = process.counter)
      (stamped : process.stamped.Perm (id :: next.stamped))
      (uses : ∀ handle other, (next.repositories handle).Uses other →
        other = id ∨ (process.repositories handle).Uses other)

/-- Only the repository in question changes. -/
theorem uses_update {handle handle' : ℕ} {repository : Repository} {id : String}
    (uses : ((process.update handle repository).repositories handle').Uses id) :
    handle' = handle ∧ repository.Uses id ∨ (process.repositories handle').Uses id := by
  by_cases same : handle' = handle
  · subst same
    simp only [update, Function.update_self] at uses
    exact .inl ⟨rfl, uses⟩
  · simp only [update, Function.update_of_ne same] at uses
    exact .inr uses

theorem step_accept {handle : ℕ} {entity : Entity}
    (taken : process.step (.accept handle entity) = some next) :
    next = process ∨ (process.repositories handle).accept entity = .ok () ∧
      next = { process with calls := process.calls ++ [⟨handle, entity, none⟩] } := by
  simp only [step] at taken
  split at taken
  · exact .inl (Option.some.inj taken).symm
  · rename_i accepted
    exact .inr ⟨accepted, (Option.some.inj taken).symm⟩

theorem step_build {index : ℕ} {ns : Int64} {random : UInt64} {now : ℤ}
    (taken : process.step (.build index ns random now) = some next) :
    ∃ handle entity, process.calls[index]? = some ⟨handle, entity, none⟩ ∧
      next = { process with
        counter := process.counter + 1
        calls := process.calls.set index
          ⟨handle, entity, some ⟨generateId ns process.counter random, now⟩⟩ } := by
  simp only [step] at taken
  split at taken
  · rename_i handle entity located
    exact ⟨handle, entity, located, (Option.some.inj taken).symm⟩
  · cases taken

theorem step_enter {index : ℕ} (taken : process.step (.enter index) = some next) :
    ∃ handle entity stamp, process.calls[index]? = some ⟨handle, entity, some stamp⟩ ∧
      next = { process.update handle ((process.repositories handle).store stamp entity) with
        calls := process.calls.eraseIdx index } := by
  simp only [step] at taken
  split at taken
  · rename_i handle entity stamp located
    exact ⟨handle, entity, stamp, located, (Option.some.inj taken).symm⟩
  · cases taken

/-- An operation on one repository that uses no new identifier. -/
theorem Effect.update {handle : ℕ} {repository : Repository} (noBuild : action.builds = false)
    (noEnter : action.enters = false)
    (uses : ∀ id, repository.Uses id → (process.repositories handle).Uses id) :
    Effect process (process.update handle repository) action := by
  refine .quiet noBuild noEnter rfl rfl fun target id later => ?_
  rcases uses_update later with ⟨rfl, kept⟩ | old
  · exact uses id kept
  · exact old

theorem step_effect (taken : process.step action = some next) :
    Effect process next action := by
  cases action with
  | accept handle entity =>
      rcases step_accept taken with rfl | ⟨-, rfl⟩
      · exact .quiet rfl rfl rfl rfl fun _ _ uses => uses
      · exact .quiet rfl rfl rfl (by simp [stamped]) fun _ _ uses => uses
  | build index ns random now =>
      obtain ⟨handle, entity, located, rfl⟩ := step_build taken
      exact .build rfl rfl ns random rfl
        (Roster.filterMap_set_perm_of_none located rfl rfl) rfl
  | enter index =>
      obtain ⟨handle, entity, stamp, located, rfl⟩ := step_enter taken
      refine .enter rfl rfl stamp.id rfl ?_ ?_
      · exact (Roster.set_perm located ⟨handle, entity, some stamp⟩).1.filterMap
          fun call => call.stamp.map Stamp.id
      · intro handle' other uses
        rcases uses_update uses with ⟨rfl, stored⟩ | old
        · exact Repository.uses_store stored
        · exact .inr old
  | deleteProject handle id =>
      cases taken
      exact .update rfl rfl fun _ => Repository.uses_deleteProject
  | finishRun handle id status result now =>
      cases taken
      exact .update rfl rfl fun _ => Repository.uses_finishRun

/-! ## Runs -/

/-- After `count` calls of `generate_id`: every identifier that is in use comes from one of
them, and those of the calls under way are different from each other and not yet in use in
any repository. -/
structure Ticketed (start : UInt64) (count : ℕ) (process : Process) : Prop where
  counter : process.counter = start + UInt64.ofNat count
  used : ∀ handle id, (process.repositories handle).Uses id →
    ∃ ticket < count, IsTicket start ticket id
  drawn : ∀ id ∈ process.stamped, ∃ ticket < count, IsTicket start ticket id
  distinct : process.stamped.Nodup
  unused : ∀ id ∈ process.stamped, ∀ handle, ¬(process.repositories handle).Uses id

namespace Ticketed

theorem new (start : UInt64) : Ticketed start 0 (Process.new start) where
  counter := by simp [Process.new]
  used := fun _ _ uses => absurd uses Repository.not_uses_empty
  drawn := by simp [Process.new, stamped]
  distinct := by simp [Process.new, stamped]
  unused := by simp [Process.new, stamped]

variable {count : ℕ}

theorem quiet (ticketed : Ticketed start count process)
    (counter : next.counter = process.counter) (stamped : next.stamped = process.stamped)
    (uses : ∀ handle id, (next.repositories handle).Uses id →
      (process.repositories handle).Uses id) : Ticketed start count next where
  counter := counter.trans ticketed.counter
  used := fun handle id later => ticketed.used handle id (uses handle id later)
  drawn := stamped ▸ ticketed.drawn
  distinct := stamped ▸ ticketed.distinct
  unused := by
    intro id member handle later
    exact ticketed.unused id (stamped ▸ member) handle (uses handle id later)

/-- The new identifier, one of the first 65536, is different from all others. -/
theorem build (ticketed : Ticketed start count process) (few : count < 65536) {id : String}
    (isNew : IsTicket start count id) (counter : next.counter = process.counter + 1)
    (stamped : next.stamped.Perm (process.stamped ++ [id]))
    (repositories : next.repositories = process.repositories) :
    Ticketed start (count + 1) next := by
  have earlier {old : String} (known : ∃ ticket < count, IsTicket start ticket old) :
      ∃ ticket < count + 1, IsTicket start ticket old := by
    obtain ⟨ticket, before, isTicket⟩ := known
    exact ⟨ticket, by omega, isTicket⟩
  have other {old : String} (known : ∃ ticket < count, IsTicket start ticket old) :
      old ≠ id := by
    obtain ⟨ticket, before, isTicket⟩ := known
    exact isTicket.ne isNew before (by omega)
  have member_iff (found : String) :
      found ∈ next.stamped ↔ found ∈ process.stamped ∨ found = id := by
    rw [stamped.mem_iff, List.mem_append, List.mem_singleton]
  refine ⟨?_, ?_, ?_, ?_, ?_⟩
  · rw [counter, ticketed.counter, UInt64.ofNat_add, ← UInt64.add_assoc]
    rfl
  · rw [repositories]
    exact fun handle old uses => earlier (ticketed.used handle old uses)
  · intro found member
    rcases (member_iff found).mp member with old | rfl
    · exact earlier (ticketed.drawn found old)
    · exact ⟨count, by omega, isNew⟩
  · rw [stamped.nodup_iff, List.nodup_append]
    refine ⟨ticketed.distinct, List.nodup_singleton _, ?_⟩
    intro old member _ new
    rw [List.mem_singleton.mp new]
    exact other (ticketed.drawn old member)
  · rw [repositories]
    intro found member handle uses
    rcases (member_iff found).mp member with old | rfl
    · exact ticketed.unused found old handle uses
    · exact other (ticketed.used handle found uses) rfl

/-- The identifier of one call moves into a repository. -/
theorem enter (ticketed : Ticketed start count process) {id : String}
    (counter : next.counter = process.counter)
    (stamped : process.stamped.Perm (id :: next.stamped))
    (uses : ∀ handle other, (next.repositories handle).Uses other →
      other = id ∨ (process.repositories handle).Uses other) : Ticketed start count next := by
  have distinct := stamped.nodup_iff.mp ticketed.distinct
  rw [List.nodup_cons] at distinct
  have was {other : String} (member : other ∈ next.stamped) : other ∈ process.stamped :=
    stamped.mem_iff.mpr (List.mem_cons_of_mem _ member)
  have entering : id ∈ process.stamped := stamped.mem_iff.mpr (by simp)
  refine ⟨counter.trans ticketed.counter, ?_, ?_, distinct.2, ?_⟩
  · intro handle other later
    rcases uses handle other later with rfl | old
    · exact ticketed.drawn other entering
    · exact ticketed.used handle other old
  · exact fun other member => ticketed.drawn other (was member)
  · intro other member handle later
    rcases uses handle other later with rfl | old
    · exact distinct.1 member
    · exact ticketed.unused other (was member) handle old

theorem step (ticketed : Ticketed start count process) (effect : Effect process next action)
    (few : count + (if action.builds then 1 else 0) ≤ 65536) :
    Ticketed start (count + if action.builds then 1 else 0) next := by
  cases effect with
  | quiet noBuild noEnter counter stamped uses =>
      simp only [noBuild, Bool.false_eq_true, if_false, Nat.add_zero]
      exact ticketed.quiet counter stamped uses
  | build builds noEnter ns random counter stamped repositories =>
      simp only [builds, if_true] at few ⊢
      exact ticketed.build few ⟨ns, random, by rw [ticketed.counter]⟩ counter stamped repositories
  | enter noBuild enters id counter stamped uses =>
      simp only [noBuild, Bool.false_eq_true, if_false, Nat.add_zero]
      exact ticketed.enter counter stamped uses

theorem run {actions : List Action} (ticketed : Ticketed start count process)
    (executes : Transition.run Process.step process actions = some next)
    (few : count + created actions ≤ 65536) : Ticketed start (count + created actions) next := by
  induction actions generalizing process count with
  | nil =>
      cases executes
      exact ticketed
  | cons action rest ih =>
      rw [run_cons, Option.bind_eq_some_iff] at executes
      obtain ⟨middle, taken, remaining⟩ := executes
      have more : created (action :: rest) = created rest + if action.builds then 1 else 0 :=
        List.countP_cons
      rw [more] at few ⊢
      have kept := ticketed.step (step_effect taken) (by omega)
      have later := ih kept remaining (by omega)
      rwa [Nat.add_assoc, Nat.add_comm (if action.builds then 1 else 0)] at later

/-- A record that is entered goes where no other one is. -/
theorem extends_enter {index : ℕ} (ticketed : Ticketed start count process)
    (taken : process.step (.enter index) = some next) (handle : ℕ) :
    (process.repositories handle).Extends (next.repositories handle) := by
  obtain ⟨target, entity, stamp, located, rfl⟩ := step_enter taken
  have member : stamp.id ∈ process.stamped :=
    List.mem_filterMap.mpr ⟨_, List.mem_of_getElem? located, rfl⟩
  by_cases same : handle = target
  · subst same
    simp only [update, Function.update_self]
    exact Repository.extends_store (ticketed.unused _ member handle) entity
  · simp only [update, Function.update_of_ne same]
    exact .refl _

end Ticketed

/-- Every entity that is built is entered or still under way. -/
theorem created_add_stamped {actions : List Action}
    (executes : run step process actions = some next) :
    created actions + process.stamped.length = entered actions + next.stamped.length := by
  induction actions generalizing process with
  | nil =>
      cases executes
      simp [created, entered]
  | cons action rest ih =>
      rw [run_cons, Option.bind_eq_some_iff] at executes
      obtain ⟨middle, taken, remaining⟩ := executes
      have later := ih remaining
      simp only [created, entered, List.countP_cons] at later ⊢
      cases step_effect taken with
      | quiet noBuild noEnter counter stamped uses =>
          simp only [noBuild, noEnter, ← stamped]
          omega
      | build builds noEnter ns random counter stamped repositories =>
          have longer := stamped.length_eq
          simp only [List.length_append, List.length_singleton] at longer
          simp only [builds, noEnter, Bool.false_eq_true, if_true, if_false]
          omega
      | enter noBuild enters id counter stamped uses =>
          have shorter := stamped.length_eq
          simp only [List.length_cons] at shorter
          simp only [noBuild, enters, Bool.false_eq_true, if_true, if_false]
          omega

/-- Two identifiers with different counter values less than 65536 apart are different
strings of sixteen hexadecimal digits, whatever clock and random numbers are.  In a run
that creates at most 65536 entities, entered or still under way, no create operation
overwrites an entry of any map. -/
theorem generatedIds_collision_free :
    (∀ (ns ns' : Int64) (seq seq' random random' : UInt64), seq ≠ seq' →
      |(seq.toNat : ℤ) - seq'.toNat| < 65536 →
        generateId ns seq random ≠ generateId ns' seq' random') ∧
    (∀ (ns : Int64) (seq random : UInt64),
      (generateId ns seq random).length = 16 ∧
        ∀ c ∈ (generateId ns seq random).toList, isLowerHexDigit c = true) ∧
    ∀ (start : UInt64) (actions : List Action) (process : Process),
      run step (.new start) actions = some process →
        created actions = entered actions + process.stamped.length ∧
        (created actions ≤ 65536 →
          ∀ index next, process.step (.enter index) = some next →
            ∀ handle, (process.repositories handle).Extends (next.repositories handle)) := by
  refine ⟨?_, generateId_wellFormed, ?_⟩
  · intro ns ns' seq seq' random random' distinct near same
    have fields := counter_of_generateId_eq same
    have values : seq.toNat ≠ seq'.toNat := fun equal => distinct (UInt64.toNat_inj.mp equal)
    rw [abs_lt] at near
    omega
  · intro start actions process executes
    refine ⟨created_add_stamped executes, fun few index next taken handle => ?_⟩
    have ticketed := (Ticketed.new start).run executes (by omega)
    exact ticketed.extends_enter taken handle

/-- Two projects at the same clock reading and with the same random number.  The second one
takes its identifier first, and is not entered yet when the first one is. -/
def twoProjects : List Action :=
  [.accept 0 (.project "first" ""), .accept 0 (.project "second" ""), .build 1 7 9 0,
    .build 0 7 9 0, .enter 0]

/-- The counter leaves its field between the two. -/
theorem generatedIds_collision_free_wrapping :
    generateId 7 65535 9 ≠ generateId 7 65536 9 ∧
    ∃ process next : Process,
      run step (.new 65535) twoProjects = some process ∧ created twoProjects = 2 ∧
      (process.repositories 0).projects.keys = ["0000000700000009"] ∧
      process.step (.enter 0) = some next ∧
      (next.repositories 0).projects.keys = ["00000007ffff0009", "0000000700000009"] ∧
      (process.repositories 0).Extends (next.repositories 0) := by
  obtain ⟨distinct, -, extend⟩ := generatedIds_collision_free
  have evaluated :
      ((run step (.new 65535) twoProjects).bind fun process =>
        (process.step (.enter 0)).map fun next => (process, next)).map
        (fun pair => ((pair.1.repositories 0).projects.keys,
          (pair.2.repositories 0).projects.keys)) =
        some (["0000000700000009"], ["00000007ffff0009", "0000000700000009"]) := by
    decide +kernel
  obtain ⟨⟨process, next⟩, both, keys⟩ := Option.map_eq_some_iff.mp evaluated
  obtain ⟨reached, executes, paired⟩ := Option.bind_eq_some_iff.mp both
  obtain ⟨last, taken, same⟩ := Option.map_eq_some_iff.mp paired
  cases same
  simp only [Prod.mk.injEq] at keys
  refine ⟨distinct 7 7 65535 65536 9 9 (by decide) (by decide), process, next, executes, by decide,
    keys.1, taken, keys.2, ?_⟩
  exact (extend 65535 twoProjects process executes).2 (by decide) 0 next taken 0

-- One counter value further the period is over.
example : generateId 7 65535 9 = generateId 7 131071 9 := by
  decide +kernel

/-! ## One repository of the process -/

/-- The creation of a record in the given repository. -/
def creationAt (handle : ℕ) (call : OpenCall) : Option Creation :=
  match call.entity with
  | .project _ _ => none
  | .record creation => if call.handle = handle then some creation else none

theorem creationAt_project (handle target : ℕ) (name description : String)
    (stamp : Option Stamp) :
    creationAt handle ⟨target, .project name description, stamp⟩ = none :=
  rfl

theorem creationAt_record (handle : ℕ) (creation : Creation) (stamp : Option Stamp) :
    creationAt handle ⟨handle, .record creation, stamp⟩ = some creation :=
  if_pos rfl

theorem creationAt_of_ne {handle target : ℕ} (distinct : handle ≠ target) (entity : Entity)
    (stamp : Option Stamp) : creationAt handle ⟨target, entity, stamp⟩ = none := by
  cases entity with
  | project name description => rfl
  | record creation => exact if_neg (Ne.symm distinct)

/-- What is seen of one repository when the identifiers of the calls are left out. -/
def callsAt (process : Process) (handle : ℕ) : Calls where
  repository := process.repositories handle
  pending := process.calls.filterMap (creationAt handle)

/-- No project without a name has been accepted. -/
def Named (process : Process) : Prop :=
  ∀ call ∈ process.calls, ∀ name description, call.entity = .project name description →
    name ≠ ""

theorem Named.step (named : process.Named) (taken : process.step action = some next) :
    next.Named := by
  cases action with
  | accept handle entity =>
      rcases step_accept taken with rfl | ⟨accepted, rfl⟩
      · exact named
      · intro call member name description isProject
        rcases List.mem_append.mp member with old | new
        · exact named call old name description isProject
        · obtain rfl := List.mem_singleton.mp new
          rintro rfl
          cases isProject
          simp [Repository.accept] at accepted
  | build index ns random now =>
      obtain ⟨handle, entity, located, rfl⟩ := step_build taken
      intro call member name description isProject
      rcases Roster.mem_set_cases member with rfl | ⟨other, -, found⟩
      · exact named _ (List.mem_of_getElem? located) name description isProject
      · exact named call (List.mem_of_getElem? found) name description isProject
  | enter index =>
      obtain ⟨handle, entity, stamp, located, rfl⟩ := step_enter taken
      exact fun call member => named call (List.mem_of_mem_eraseIdx member)
  | deleteProject handle id | finishRun handle id status result now =>
      cases taken
      exact named

theorem callsAt_update_of_ne {handle target : ℕ} (distinct : handle ≠ target)
    (repository : Repository) :
    (process.update target repository).callsAt handle = process.callsAt handle := by
  simp [callsAt, update, Function.update_of_ne distinct]

/-- A call that ends enters its record into the repository in question or into another one. -/
theorem step_callsAt_enter {index : ℕ} (named : process.Named)
    (taken : process.step (.enter index) = some next) (handle : ℕ) :
    next.callsAt handle = process.callsAt handle ∨
      ∃ inner, (process.callsAt handle).step inner = some (next.callsAt handle) := by
  obtain ⟨target, entity, stamp, located, rfl⟩ := step_enter taken
  by_cases same : handle = target
  · subst same
    refine .inr ?_
    cases entity with
    | project name description =>
        have nonempty := named _ (List.mem_of_getElem? located) name description rfl
        refine ⟨.createProject name description stamp, ?_⟩
        simp [Calls.step, callsAt, update, Repository.store_project _ _ nonempty,
          Roster.filterMap_eraseIdx_of_none located (creationAt_project handle ..)]
    | record creation =>
        obtain ⟨position, selected, erased⟩ :=
          Roster.filterMap_eraseIdx_of_some located (creationAt_record handle creation _)
        refine ⟨.enter position stamp, ?_⟩
        simp [Calls.step, callsAt, update, selected, erased, Repository.store]
  · refine .inl ?_
    simp [callsAt, update, Function.update_of_ne same,
      Roster.filterMap_eraseIdx_of_none located (creationAt_of_ne same entity _)]

/-- A step of the process is, for each of its repositories, one critical section of calls
that take their identifiers from outside, or nothing at all. -/
theorem step_callsAt (named : process.Named) (taken : process.step action = some next)
    (handle : ℕ) :
    next.callsAt handle = process.callsAt handle ∨
      ∃ inner, (process.callsAt handle).step inner = some (next.callsAt handle) := by
  cases action with
  | accept target entity =>
      rcases step_accept taken with rfl | ⟨accepted, rfl⟩
      · exact .inl rfl
      by_cases same : handle = target
      · subst same
        cases entity with
        | project name description => exact .inl (by simp [callsAt, creationAt_project])
        | record creation =>
            refine .inr ⟨.check creation, ?_⟩
            change (process.repositories handle).check creation = .ok () at accepted
            simp [Calls.step, callsAt, accepted, creationAt_record]
      · exact .inl (by simp [callsAt, creationAt_of_ne same])
  | build index ns random now =>
      obtain ⟨target, entity, located, rfl⟩ := step_build taken
      refine .inl ?_
      simp only [callsAt, Calls.mk.injEq, true_and]
      exact Roster.filterMap_set_of_eq located rfl
  | enter index => exact step_callsAt_enter named taken handle
  | deleteProject target id =>
      cases taken
      by_cases same : handle = target
      · subst same
        exact .inr ⟨.deleteProject id, by simp [Calls.step, callsAt, update]⟩
      · exact .inl (callsAt_update_of_ne same _)
  | finishRun target id status result now =>
      cases taken
      by_cases same : handle = target
      · subst same
        exact .inr ⟨.finishRun id status result now, by simp [Calls.step, callsAt, update]⟩
      · exact .inl (callsAt_update_of_ne same _)

/-- Each repository of a process is in a state that calls with identifiers from outside can
reach. -/
theorem reaches_callsAt (reaches : Reaches step Unrestricted (.new start) process)
    (handle : ℕ) : Reaches Calls.step Unrestricted .new (process.callsAt handle) := by
  have both : process.Named ∧ Reaches Calls.step Unrestricted .new (process.callsAt handle) := by
    refine reaches.invariant
      (fun process => process.Named ∧
        Reaches Calls.step Unrestricted .new (process.callsAt handle)) ?_ ?_
    · exact ⟨by simp [Named, new], .refl _⟩
    · rintro before action after ⟨named, reached⟩ - taken
      refine ⟨named.step taken, ?_⟩
      rcases step_callsAt named taken handle with same | ⟨inner, taken⟩
      · rwa [same]
      · exact reached.tail trivial taken
  exact both.2

end Process

end Cppload.Platform
