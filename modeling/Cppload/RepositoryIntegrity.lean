import Cppload.TransitionSystem
import Cppload.Repository

/-!
# Every stored record belongs to a project

Any number of threads call the repository, one critical section at a time.  A
creation that has found its project and not yet entered its record is pending.
Deleting a project removes its records but not the pending creations; one that is
entered afterwards belongs to no project.  Nothing else can go wrong.
-/

namespace Cppload.Platform

open Transition

/-- Every scenario, run and policy belongs to a stored project. -/
structure Repository.Integral (repository : Repository) : Prop where
  scenarios : repository.scenarios.All fun scenario =>
    scenario.projectId ∈ repository.projects
  runs : repository.runs.All fun run => run.projectId ∈ repository.projects
  policies : repository.policies.All fun policy => policy.projectId ∈ repository.projects

theorem Repository.check_ok {repository : Repository} {creation : Creation}
    (admitted : repository.check creation = .ok ()) :
    creation.projectId ∈ repository.projects := by
  unfold Repository.check at admitted
  split at admitted
  · cases admitted
  · split at admitted
    · assumption
    · cases admitted

namespace Repository.Integral

variable {repository : Repository}

theorem empty : Repository.empty.Integral :=
  ⟨.empty, .empty, .empty⟩

theorem createProject (integral : repository.Integral) (name description : String)
    (stamp : Stamp) : (repository.createProject name description stamp).2.Integral := by
  have kept (id : String) (known : id ∈ repository.projects) (project : Project) :
      id ∈ AList.insert stamp.id project repository.projects :=
    (AList.mem_insert _).mpr (.inr known)
  unfold Repository.createProject
  split
  · exact integral
  · exact ⟨integral.scenarios.mono fun _ known => kept _ known _,
      integral.runs.mono fun _ known => kept _ known _,
      integral.policies.mono fun _ known => kept _ known _⟩

theorem deleteProject (integral : repository.Integral) (id : String) :
    (repository.deleteProject id).2.Integral := by
  unfold Repository.deleteProject
  split
  · have kept (projectId : String) (known : projectId ∈ repository.projects)
        (other : decide (projectId ≠ id) = true) : projectId ∈ repository.projects.erase id :=
      AList.mem_erase.mpr ⟨of_decide_eq_true other, known⟩
    exact ⟨(integral.scenarios.keep _).mono fun _ known => kept _ known.1 known.2,
      (integral.runs.keep _).mono fun _ known => kept _ known.1 known.2,
      (integral.policies.keep _).mono fun _ known => kept _ known.1 known.2⟩
  · exact integral

theorem finishRun (integral : repository.Integral) (id : String) (status : RunStatus)
    (result : RunResult) (now : ℤ) :
    (repository.finishRun id status result now).2.Integral := by
  unfold Repository.finishRun
  split
  · exact integral
  · rename_i run located
    split
    · exact integral
    · exact ⟨integral.scenarios,
        integral.runs.insert id (integral.runs id run located), integral.policies⟩

/-- A record that is entered for a stored project. -/
theorem enter (integral : repository.Integral) (stamp : Stamp) {creation : Creation}
    (known : creation.projectId ∈ repository.projects) :
    (repository.enter stamp creation).Integral := by
  cases creation with
  | scenario projectId name version yamlContent =>
      exact ⟨integral.scenarios.insert stamp.id known, integral.runs, integral.policies⟩
  | run projectId scenarioId environment =>
      exact ⟨integral.scenarios, integral.runs.insert stamp.id known, integral.policies⟩
  | policy projectId name rules =>
      exact ⟨integral.scenarios, integral.runs, integral.policies.insert stamp.id known⟩

theorem create (integral : repository.Integral) (creation : Creation) (stamp : Stamp) :
    (repository.create creation stamp).2.Integral := by
  unfold Repository.create
  split
  · exact integral
  · rename_i admitted
    exact integral.enter stamp (check_ok admitted)

end Repository.Integral

theorem Repository.projects_enter (repository : Repository) (stamp : Stamp)
    (creation : Creation) : (repository.enter stamp creation).projects = repository.projects := by
  cases creation <;> rfl

theorem Repository.projects_finishRun (repository : Repository) (id : String)
    (status : RunStatus) (result : RunResult) (now : ℤ) :
    (repository.finishRun id status result now).2.projects = repository.projects := by
  unfold Repository.finishRun
  split
  · rfl
  · split <;> rfl

theorem Repository.mem_createProject {repository : Repository} {id : String}
    (known : id ∈ repository.projects) (name description : String) (stamp : Stamp) :
    id ∈ (repository.createProject name description stamp).2.projects := by
  unfold Repository.createProject
  split
  · exact known
  · exact (AList.mem_insert _).mpr (.inr known)

theorem Repository.mem_deleteProject {repository : Repository} {id other : String}
    (known : other ∈ repository.projects) (distinct : other ≠ id) :
    other ∈ (repository.deleteProject id).2.projects := by
  unfold Repository.deleteProject
  split
  · exact AList.mem_erase.mpr ⟨distinct, known⟩
  · exact known

/-- The repository and the creations that are between their critical sections. -/
structure Calls where
  repository : Repository
  pending : List Creation

namespace Calls

/-- One critical section.  `check` is the first one of a creation, `enter` the second
one of a pending creation. -/
inductive Action where
  | createProject (name description : String) (stamp : Stamp)
  | deleteProject (id : String)
  | finishRun (id : String) (status : RunStatus) (result : RunResult) (now : ℤ)
  | check (creation : Creation)
  | enter (index : ℕ) (stamp : Stamp)

def new : Calls where
  repository := .empty
  pending := []

def step (calls : Calls) : Action → Option Calls
  | .createProject name description stamp =>
      some { calls with
        repository := (calls.repository.createProject name description stamp).2 }
  | .deleteProject id =>
      some { calls with repository := (calls.repository.deleteProject id).2 }
  | .finishRun id status result now =>
      some { calls with
        repository := (calls.repository.finishRun id status result now).2 }
  | .check creation =>
      match calls.repository.check creation with
      | .error _ => some calls
      | .ok () => some { calls with pending := calls.pending ++ [creation] }
  | .enter index stamp =>
      calls.pending[index]?.map fun creation =>
        { repository := calls.repository.enter stamp creation
          pending := calls.pending.eraseIdx index }

/-- No project is deleted while a creation for it is between its two critical
sections. -/
def Undisturbed (calls : Calls) : Action → Prop
  | .deleteProject id => ∀ creation ∈ calls.pending, creation.projectId ≠ id
  | _ => True

/-- The stored records and the pending creations belong to stored projects. -/
structure Sound (calls : Calls) : Prop where
  integral : calls.repository.Integral
  pending : ∀ creation ∈ calls.pending, creation.projectId ∈ calls.repository.projects

theorem Sound.new : Calls.new.Sound :=
  ⟨.empty, by simp [Calls.new]⟩

theorem Sound.step {calls next : Calls} {action : Action} (sound : calls.Sound)
    (undisturbed : calls.Undisturbed action) (taken : calls.step action = some next) :
    next.Sound := by
  cases action with
  | createProject name description stamp =>
      cases taken
      refine ⟨sound.integral.createProject name description stamp, ?_⟩
      intro creation member
      exact Repository.mem_createProject (sound.pending creation member) name description stamp
  | deleteProject id =>
      cases taken
      refine ⟨sound.integral.deleteProject id, ?_⟩
      intro creation member
      exact Repository.mem_deleteProject (sound.pending creation member)
        (undisturbed creation member)
  | finishRun id status result now =>
      cases taken
      refine ⟨sound.integral.finishRun id status result now, ?_⟩
      rw [Repository.projects_finishRun]
      exact sound.pending
  | check creation =>
      simp only [Calls.step] at taken
      split at taken
      · cases taken
        exact sound
      · rename_i admitted
        cases taken
        refine ⟨sound.integral, ?_⟩
        intro other member
        rcases List.mem_append.mp member with old | new
        · exact sound.pending other old
        · rw [List.mem_singleton.mp new]
          exact Repository.check_ok admitted
  | enter index stamp =>
      obtain ⟨creation, located, rfl⟩ := Option.map_eq_some_iff.mp taken
      refine ⟨sound.integral.enter stamp
        (sound.pending creation (List.mem_of_getElem? located)), ?_⟩
      intro other member
      rw [Repository.projects_enter]
      exact sound.pending other (List.mem_of_mem_eraseIdx member)

/-- When no project is deleted between the two critical sections of a creation for
it, every stored scenario, run and policy belongs to a stored project, in every
state any number of concurrent calls can reach. -/
theorem reachable_integral {calls : Calls}
    (reachable : Reaches Calls.step Undisturbed .new calls) : calls.repository.Integral := by
  have sound : calls.Sound := reachable.invariant Sound .new
    fun _ _ _ sound undisturbed taken => sound.step undisturbed taken
  exact sound.integral

instance (calls : Calls) : (action : Action) → Decidable (calls.Undisturbed action)
  | .deleteProject id =>
      inferInstanceAs (Decidable (∀ creation ∈ calls.pending, creation.projectId ≠ id))
  | .createProject _ _ _ | .finishRun _ _ _ _ | .check _ | .enter _ _ => .isTrue trivial

/-- A project with one scenario in place and one run under way, while a second
project is deleted. -/
theorem reachable_integral_two_projects :
    ∃ calls : Calls, Reaches Calls.step Undisturbed .new calls ∧
      calls.repository.scenarios.keys = ["s"] ∧ calls.repository.projects.keys = ["p"] ∧
      calls.pending.length = 1 ∧ calls.repository.Integral := by
  have evaluated :
      (guardedRun Calls.step Undisturbed .new
        [.createProject "first" "" ⟨"p", 0⟩, .createProject "second" "" ⟨"q", 1⟩,
          .check (.scenario "p" "checkout" "1" ""), .enter 0 ⟨"s", 2⟩,
          .check (.run "p" "s" "staging"), .deleteProject "q"]).map
        (fun calls => (calls.repository.scenarios.keys, calls.repository.projects.keys,
          calls.pending.length)) = some (["s"], ["p"], 1) := by
    decide +kernel
  obtain ⟨calls, executes, seen⟩ := Option.map_eq_some_iff.mp evaluated
  simp only [Prod.mk.injEq] at seen
  have reaches := reaches_of_guardedRun executes
  exact ⟨calls, reaches, seen.1, seen.2.1, seen.2.2, reachable_integral reaches⟩

/-- The project is deleted after `create_scenario` has found it and before the
scenario is entered. -/
theorem scenario_outlives_project :
    ∃ calls : Calls, Reaches Calls.step Unrestricted .new calls ∧
      (calls.repository.scenarios.lookup "s").map Scenario.projectId = some "p" ∧
      "p" ∉ calls.repository.projects := by
  have evaluated :
      (run Calls.step .new
        [.createProject "first" "" ⟨"p", 0⟩, .check (.scenario "p" "checkout" "1" ""),
          .deleteProject "p", .enter 0 ⟨"s", 1⟩]).map
        (fun calls => ((calls.repository.scenarios.lookup "s").map Scenario.projectId,
          decide ("p" ∈ calls.repository.projects))) = some (some "p", false) := by
    decide +kernel
  obtain ⟨calls, executes, seen⟩ := Option.map_eq_some_iff.mp evaluated
  simp only [Prod.mk.injEq, decide_eq_false_iff_not] at seen
  exact ⟨calls, reaches_of_run executes, seen⟩

end Calls

end Cppload.Platform
