import Cppload.ControlPlane
import Cppload.GeneratedIds
import Cppload.RepositoryOperations

/-!
# What a client of the control plane sees

The accept thread reads a request, cuts the query off its target and hands it to `route`.
Here the repository is seen from outside: from the responses of the past alone it can be
told what the next GET will answer.  A collection has the bodies of the creations that
were answered with 201, less those whose project has since been deleted.

No request finishes a run.  The results that `evaluate` needs can only come from inside
the process, where nothing calls `finish_run`; so no evaluation ever passes.
-/

namespace Cppload.Platform

open Transition

/-- `extract_path`, which looks for a fragment only if there is no query. -/
def extractPath (target : String) : String :=
  if '?' ∈ target.toList then String.ofList (target.toList.takeWhile (· ≠ '?'))
  else if '#' ∈ target.toList then String.ofList (target.toList.takeWhile (· ≠ '#'))
  else target

/-- A request as it is read from a connection, with what its handling would take from
the two clocks and from the random generator. -/
structure Message where
  verb : Verb
  target : String
  body : String
  ns : Int64
  random : UInt64
  now : ℤ

def Message.route (message : Message) : Route :=
  Route.ofPath (extractPath message.target)

/-- The project that the request is to delete. -/
def Message.deletes (message : Message) : Option String :=
  match message.verb, message.route with
  | .delete, .project id => some id
  | _, _ => none

/-- The process between two connections: the repository and the counter of
`generate_id`. -/
structure ControlPlane where
  repository : Repository
  counter : UInt64

namespace ControlPlane

def new (counter : UInt64) : ControlPlane :=
  ⟨.empty, counter⟩

def stamp (plane : ControlPlane) (message : Message) : Stamp :=
  ⟨generateId message.ns plane.counter message.random, message.now⟩

/-- `handle_session` for a request that has been read.  An identifier is taken exactly
by the operations that succeed in creating something. -/
def serve (parse : String → Option Json) (plane : ControlPlane) (message : Message) :
    Option (ControlPlane × HttpResponse) :=
  match Platform.route parse plane.repository
      ⟨message.verb, extractPath message.target, message.body, plane.stamp message⟩ with
  | (.error _, _) => none
  | (.ok response, left) =>
      some (⟨left, if response.status = 201 then plane.counter + 1 else plane.counter⟩,
        response)

end ControlPlane

/-! ## The view of a client -/

def textAt (key : String) (json : Json) : Option String :=
  (json.field? key).bind fun field => field.getString.toOption

namespace Route

/-- The routes under which things are created and listed. -/
def IsCollection : Route → Prop
  | .projects | .scenarios _ | .runs _ | .policies _ => True
  | _ => False

/-- The project with which a member of the collection goes. -/
def owner (collection : Route) (json : Json) : Option String :=
  textAt (if collection = .projects then "id" else "project_id") json

/-- The members of a collection after one more request and its response. -/
def seen (collection : Route) (listed : List Json) (exchange : Message × HttpResponse) :
    List Json :=
  if exchange.1.verb = .post ∧ exchange.1.route = collection ∧ exchange.2.status = 201 then
    listed ++ [exchange.2.body]
  else
    match exchange.1.deletes with
    | some id =>
        if exchange.2.status = 200 then
          listed.filter fun json => collection.owner json ≠ some id
        else listed
    | none => listed

/-- The members of a collection that a client knows of. -/
def expected (collection : Route) (history : List (Message × HttpResponse)) : List Json :=
  history.foldl collection.seen []

end Route

/-! ## What a request can do -/

namespace Creation

def collection : Creation → Route
  | .scenario projectId _ _ _ => .scenarios projectId
  | .run projectId _ _ => .runs projectId
  | .policy projectId _ _ => .policies projectId

def toJson (stamp : Stamp) : Creation → Json
  | .scenario projectId name version yamlContent =>
      (Scenario.create stamp projectId name version yamlContent).toJson
  | .run projectId scenarioId environment =>
      (Run.create stamp projectId scenarioId environment).toJson
  | .policy projectId name rules => (Policy.create stamp projectId name rules).toJson

end Creation

namespace Entity

def collection : Entity → Route
  | .project _ _ => .projects
  | .record creation => creation.collection

def toJson (stamp : Stamp) : Entity → Json
  | .project name description => (⟨stamp.id, name, description, stamp.now⟩ : Project).toJson
  | .record creation => creation.toJson stamp

end Entity

/-- What a request that is answered did to the repository. -/
inductive Effect (repository : Repository) (stamp : Stamp) (verb : Verb) (route : Route)
    (response : HttpResponse) : Repository → Prop
  | none (notCreated : response.status ≠ 201)
      (notDeleted : verb = .delete → ∀ id, route = .project id → response.status ≠ 200) :
      Effect repository stamp verb route response repository
  | created (entity : Entity) (posted : verb = .post) (there : route = entity.collection)
      (answered : response = .created (entity.toJson stamp)) :
      Effect repository stamp verb route response (repository.store stamp entity)
  | deleted (id : String) (asked : verb = .delete) (there : route = .project id)
      (known : id ∈ repository.projects) (answered : response.status = 200) :
      Effect repository stamp verb route response (repository.deleteProject id).2

namespace HttpResponse

@[simp]
theorem status_ok (body : Json) : (ok body).status = 200 := rfl

@[simp]
theorem status_created (body : Json) : (created body).status = 201 := rfl

@[simp]
theorem status_error (status : ℕ) (message : String) : (error status message).status = status :=
  rfl

@[simp]
theorem status_methodNotAllowed : methodNotAllowed.status = 405 := rfl

@[simp]
theorem status_notFound : notFound.status = 404 := rfl

end HttpResponse

@[simp]
theorem PlatformError.toHttp_ne_created (error : PlatformError) : error.toHttp ≠ 201 := by
  cases error <;> decide

section

variable {repository left : Repository} {stamp : Stamp} {verb : Verb} {route : Route}
  {response : HttpResponse}

theorem Effect.answer {reply : HttpResponse} (notCreated : reply.status ≠ 201)
    (notDeleted : verb = .delete → ∀ id, route = .project id → reply.status ≠ 200)
    (answered : repository.answer reply = (.ok response, left)) :
    Effect repository stamp verb route response left := by
  cases answered
  exact .none notCreated notDeleted

/-- A POST has the effect of its last part, whatever that is. -/
theorem Effect.post {Arguments : Type} {parsed : Option Json}
    {read : Json → Except JsonError Arguments} {act : Arguments → HttpResponse × Repository}
    (acted : ∀ arguments, Effect repository stamp .post route (act arguments).1
      (act arguments).2)
    (answered : repository.post parsed read act = (.ok response, left)) :
    Effect repository stamp .post route response left := by
  unfold Repository.post at answered
  split at answered
  · exact Effect.answer (by simp) (by simp) answered
  · split at answered
    · cases answered
    · cases answered
      exact acted _

/-- The end of a creating handler. -/
theorem Effect.respondCreated {Value : Type} {result : Except PlatformError Value × Repository}
    {toJson : Value → Json} {message : String} (entity : Entity)
    (there : route = entity.collection)
    (outcome : (∃ error, result = (.error error, repository)) ∨
      ∃ value, result = (.ok value, repository.store stamp entity) ∧
        toJson value = entity.toJson stamp) :
    Effect repository stamp .post route (Repository.respondCreated result toJson message).1
      (Repository.respondCreated result toJson message).2 := by
  rcases outcome with ⟨error, rfl⟩ | ⟨value, rfl, sent⟩
  · exact .none error.toHttp_ne_created (by simp)
  · exact .created entity rfl there (by rw [← sent]; rfl)

namespace Repository

theorem createProject_outcome (name description : String) :
    (∃ error, repository.createProject name description stamp = (.error error, repository)) ∨
      ∃ project, repository.createProject name description stamp =
          (.ok project, repository.store stamp (.project name description)) ∧
        project.toJson = (Entity.project name description).toJson stamp := by
  by_cases unnamed : name = ""
  · exact .inl ⟨.invalidInput, by simp [createProject, unnamed]⟩
  · exact .inr ⟨⟨stamp.id, name, description, stamp.now⟩,
      by simp [createProject, unnamed, store], rfl⟩

theorem create_outcome {Value : Type} (creation : Creation) (value : Value) :
    (∃ error, ((repository.create creation stamp).1.map fun _ => value,
        (repository.create creation stamp).2) = (.error error, repository)) ∨
      ((repository.create creation stamp).1.map fun _ => value,
        (repository.create creation stamp).2) =
          (.ok value, repository.store stamp (.record creation)) := by
  rcases repository.create_cases creation stamp with ⟨error, refused⟩ | ⟨-, entered⟩
  · exact .inl ⟨error, by rw [refused]; rfl⟩
  · exact .inr (by rw [entered]; rfl)

/-- Every answer of a handler comes with one of the three effects. -/
theorem handle_effect {parsed : Option Json}
    (answered : route.handle repository stamp verb parsed = (.ok response, left)) :
    Effect repository stamp verb route response left := by
  have quiet {reply : HttpResponse} (notCreated : reply.status ≠ 201)
      (notDeleted : verb = .delete → ∀ id, route = .project id → reply.status ≠ 200) :
      repository.answer reply = (.ok response, left) →
        Effect repository stamp verb route response left :=
    Effect.answer notCreated notDeleted
  cases route with
  | projects =>
      cases verb with
      | post =>
          refine Effect.post (fun arguments => ?_) answered
          exact .respondCreated (.project arguments.1 arguments.2) rfl
            (createProject_outcome _ _)
      | get | delete | other => exact quiet (by simp) (by simp) answered
  | project id =>
      cases verb with
      | get =>
          simp only [Route.handle, handleProject] at answered
          split at answered
          · exact quiet (by simp) (by simp) answered
          · exact quiet (by simp) (by simp) answered
      | delete =>
          simp only [Route.handle, handleProject] at answered
          by_cases known : id ∈ repository.projects
          · have done : repository.deleteProject id =
                (.ok true, (repository.deleteProject id).2) := by
              simp [deleteProject, known]
            rw [done] at answered
            cases answered
            exact .deleted id rfl rfl known rfl
          · simp only [deleteProject, known, if_false] at answered
            cases answered
            exact .none (by simp [PlatformError.toHttp]) (by simp [PlatformError.toHttp])
      | post | other => exact quiet (by simp) (by simp) answered
  | scenarios projectId =>
      cases verb with
      | post =>
          refine Effect.post (fun arguments => ?_) answered
          refine .respondCreated (.record (.scenario projectId arguments.1 arguments.2.1
            arguments.2.2)) rfl ?_
          exact (create_outcome _ _).imp_right fun made => ⟨_, made, rfl⟩
      | get | delete | other => exact quiet (by simp) (by simp) answered
  | runs projectId =>
      cases verb with
      | post =>
          refine Effect.post (fun arguments => ?_) answered
          refine .respondCreated (.record (.run projectId arguments.1 arguments.2)) rfl ?_
          exact (create_outcome _ _).imp_right fun made => ⟨_, made, rfl⟩
      | get | delete | other => exact quiet (by simp) (by simp) answered
  | policies projectId =>
      cases verb with
      | post =>
          refine Effect.post (fun arguments => ?_) answered
          refine .respondCreated (.record (.policy projectId arguments.2 arguments.1)) rfl ?_
          exact (create_outcome _ _).imp_right fun made => ⟨_, made, rfl⟩
      | get | delete | other => exact quiet (by simp) (by simp) answered
  | evaluate =>
      cases verb with
      | post =>
          refine Effect.post (fun arguments => ?_) answered
          split
          · exact .none (by simp) (by simp)
          · exact .none (by simp) (by simp)
      | get | delete | other => exact quiet (by simp) (by simp) answered
  | health | unknown => exact quiet (by simp) (by simp) answered

end Repository

end

/-! ## The members of the collections -/

/-- The members of a collection as they are sent, in no particular order. -/
def Repository.members (repository : Repository) : Route → List Json
  | .projects => repository.projects.values.map Project.toJson
  | .scenarios projectId =>
      (repository.scenarios.values.filter fun scenario => scenario.projectId = projectId).map
        Scenario.toJson
  | .runs projectId =>
      (repository.runs.values.filter fun run => run.projectId = projectId).map Run.toJson
  | .policies projectId =>
      (repository.policies.values.filter fun policy => policy.projectId = projectId).map
        Policy.toJson
  | _ => []

namespace Route

variable {collection : Route} {listed others : List Json} {exchange : Message × HttpResponse}

theorem owner_project (project : Project) : owner .projects project.toJson = some project.id :=
  rfl

theorem owner_scenario (projectId : String) (scenario : Scenario) :
    owner (.scenarios projectId) scenario.toJson = some scenario.projectId :=
  rfl

theorem owner_run (projectId : String) (run : Run) :
    owner (.runs projectId) run.toJson = some run.projectId :=
  rfl

theorem owner_policy (projectId : String) (policy : Policy) :
    owner (.policies projectId) policy.toJson = some policy.projectId :=
  rfl

theorem seen_perm (same : listed.Perm others) :
    (collection.seen listed exchange).Perm (collection.seen others exchange) := by
  unfold seen
  split
  · exact same.append_right _
  · split
    · split
      · exact same.filter _
      · exact same
    · exact same

end Route

namespace Repository

variable {repository left : Repository} {stamp : Stamp} {message : Message}
  {response : HttpResponse} {Value : Type}

/-- A new value is a new member of the one collection that it belongs to. -/
theorem members_cons_perm (values : List Value) (value : Value) (projectOf : Value → String)
    (toJson : Value → Json) (projectId : String) :
    (((value :: values).filter fun other => projectOf other = projectId).map toJson).Perm
      (if projectOf value = projectId then
        (values.filter fun other => projectOf other = projectId).map toJson ++ [toJson value]
      else (values.filter fun other => projectOf other = projectId).map toJson) := by
  by_cases belongs : projectOf value = projectId
  · rw [if_pos belongs, List.filter_cons_of_pos (by simpa using belongs), List.map_cons]
    exact (List.perm_append_singleton _ _).symm
  · rw [if_neg belongs, List.filter_cons_of_neg (by simpa using belongs)]

theorem members_store (fresh : ¬repository.Uses stamp.id) (entity : Entity)
    (collection : Route) :
    ((repository.store stamp entity).members collection).Perm
      (if entity.collection = collection then
        repository.members collection ++ [entity.toJson stamp]
      else repository.members collection) := by
  simp only [Uses, not_or] at fresh
  obtain ⟨noProject, noScenario, noRun, noPolicy⟩ := fresh
  cases entity with
  | project name description =>
      cases collection with
      | projects =>
          simp only [members, store, Table.values_insert noProject, List.map_cons,
            Entity.collection, if_true]
          exact (List.perm_append_singleton _ _).symm
      | _ => exact .refl _
  | record creation =>
      cases creation with
      | scenario projectId name version yamlContent =>
          cases collection with
          | scenarios other =>
              simp only [members, store, enter, Table.values_insert noScenario,
                Entity.collection, Creation.collection, Route.scenarios.injEq]
              exact members_cons_perm _ _ Scenario.projectId _ _
          | _ => exact .refl _
      | run projectId scenarioId environment =>
          cases collection with
          | runs other =>
              simp only [members, store, enter, Table.values_insert noRun,
                Entity.collection, Creation.collection, Route.runs.injEq]
              exact members_cons_perm _ _ Run.projectId _ _
          | _ => exact .refl _
      | policy projectId name rules =>
          cases collection with
          | policies other =>
              simp only [members, store, enter, Table.values_insert noPolicy,
                Entity.collection, Creation.collection, Route.policies.injEq]
              exact members_cons_perm _ _ Policy.projectId _ _
          | _ => exact .refl _

/-- The members of a collection without those of a project. -/
theorem members_filter (values : List Value) {projectOf : Value → String}
    {toJson : Value → Json} {owner : Json → Option String}
    (tells : ∀ value, owner (toJson value) = some (projectOf value)) (passes : Value → Bool)
    (id : String) :
    ((values.filter fun value => projectOf value ≠ id).filter passes).map toJson =
      ((values.filter passes).map toJson).filter fun json => owner json ≠ some id := by
  rw [List.filter_map, List.filter_filter, List.filter_filter]
  congr 1
  apply List.filter_congr
  intro value _
  simp [tells, Bool.and_comm]

theorem members_deleteProject {id : String} (known : id ∈ repository.projects)
    (keyed : Table.Keyed Project.id repository.projects) (collection : Route) :
    (repository.deleteProject id).2.members collection =
      (repository.members collection).filter fun json => collection.owner json ≠ some id := by
  simp only [deleteProject, known, if_true]
  cases collection with
  | projects =>
      simp only [members, keyed.values_erase]
      rw [List.filter_map]
      congr 1
      apply List.filter_congr
      intro project _
      simp [Route.owner_project]
  | scenarios projectId =>
      simp only [members, Table.values_keep]
      exact members_filter _ (Route.owner_scenario projectId) _ id
  | runs projectId =>
      simp only [members, Table.values_keep]
      exact members_filter _ (Route.owner_run projectId) _ id
  | policies projectId =>
      simp only [members, Table.values_keep]
      exact members_filter _ (Route.owner_policy projectId) _ id
  | project | evaluate | health | unknown => rfl

/-- What a client makes of a response is what happened to the collection. -/
theorem members_effect
    (effect : Effect repository stamp message.verb message.route response left)
    (fresh : response.status = 201 → ¬repository.Uses stamp.id)
    (keyed : Table.Keyed Project.id repository.projects) (collection : Route) :
    (left.members collection).Perm
      (collection.seen (repository.members collection) (message, response)) := by
  cases effect with
  | none notCreated notDeleted =>
      have unchanged : collection.seen (repository.members collection) (message, response) =
          repository.members collection := by
        simp only [Route.seen, notCreated, and_false, if_false, Message.deletes]
        split
        · rename_i found
          split at found
          · rename_i asked there
            cases found
            rw [if_neg (notDeleted asked _ there)]
          · cases found
        · rfl
      rw [unchanged]
  | created entity posted there answered =>
      have noDeletion : message.deletes = none := by simp [Message.deletes, posted]
      have created : response.status = 201 := by rw [answered]; rfl
      have body : response.body = entity.toJson stamp := by rw [answered]; rfl
      refine (members_store (fresh created) entity collection).trans (.of_eq ?_)
      simp only [Route.seen, posted, there, created, body, noDeletion, true_and, and_true]
  | deleted id asked there known answered =>
      have deletion : message.deletes = some id := by simp [Message.deletes, asked, there]
      rw [members_deleteProject known keyed]
      simp [Route.seen, asked, deletion, answered]

end Repository

/-! ## The process over whole runs -/

namespace ControlPlane

variable {parse : String → Option Json} {plane next last : ControlPlane} {message : Message}
  {response : HttpResponse} {start : UInt64} {count : ℕ} {messages : List Message}
  {responses : List HttpResponse}

/-- After `count` creations, every identifier in use comes from one of them. -/
structure Sound (start : UInt64) (count : ℕ) (plane : ControlPlane) : Prop where
  counter : plane.counter = start + UInt64.ofNat count
  used : ∀ id, plane.repository.Uses id → ∃ ticket < count, IsTicket start ticket id
  keyed : Table.Keyed Project.id plane.repository.projects

def isCreated (response : HttpResponse) : Bool :=
  response.status = 201

theorem serve_effect (served : plane.serve parse message = some (next, response)) :
    Effect plane.repository (plane.stamp message) message.verb message.route response
        next.repository ∧
      next.counter = if response.status = 201 then plane.counter + 1 else plane.counter := by
  unfold serve at served
  split at served
  · cases served
  · rename_i answered
    cases served
    exact ⟨Repository.handle_effect answered, rfl⟩

theorem Sound.new (start : UInt64) : Sound start 0 (ControlPlane.new start) where
  counter := by simp [ControlPlane.new]
  used := fun _ uses => absurd uses Repository.not_uses_empty
  keyed := by
    intro entry member
    simp [ControlPlane.new, Repository.empty] at member

theorem Sound.fresh (sound : Sound start count plane) (few : count < 65536)
    (message : Message) : ¬plane.repository.Uses (plane.stamp message).id := by
  intro uses
  obtain ⟨ticket, before, isTicket⟩ := sound.used _ uses
  have isNew : IsTicket start count (plane.stamp message).id :=
    ⟨message.ns, message.random, by rw [stamp, sound.counter]⟩
  exact isTicket.ne isNew before (by omega) rfl

theorem keyed_store {repository : Repository}
    (keyed : Table.Keyed Project.id repository.projects) (stamp : Stamp) (entity : Entity) :
    Table.Keyed Project.id (repository.store stamp entity).projects := by
  cases entity with
  | project name description =>
      exact keyed.insert (⟨stamp.id, name, description, stamp.now⟩ : Project)
  | record creation =>
      simp only [Repository.store, Repository.projects_enter]
      exact keyed

theorem keyed_deleteProject {repository : Repository}
    (keyed : Table.Keyed Project.id repository.projects) (id : String) :
    Table.Keyed Project.id (repository.deleteProject id).2.projects := by
  unfold Repository.deleteProject
  split
  · exact keyed.of_sublist (List.kerase_sublist _ _)
  · exact keyed

theorem Sound.serve (sound : Sound start count plane)
    (served : plane.serve parse message = some (next, response)) :
    Sound start (count + if isCreated response then 1 else 0) next := by
  obtain ⟨effect, counter⟩ := serve_effect served
  have ⟨drawn, used, keyed⟩ := sound
  cases next with | mk left nextCounter => ?_
  dsimp only at effect counter
  subst counter
  cases effect with
  | none notCreated notDeleted =>
      simp only [isCreated, notCreated, decide_false, Bool.false_eq_true, if_false, Nat.add_zero]
      exact ⟨drawn, used, keyed⟩
  | created entity posted there answered =>
      have created : response.status = 201 := by rw [answered]; rfl
      simp only [isCreated, created, decide_true, if_true]
      refine ⟨?_, ?_, keyed_store keyed _ entity⟩
      · change plane.counter + 1 = _
        rw [drawn, UInt64.ofNat_add, ← UInt64.add_assoc]
        rfl
      · intro id uses
        rcases Repository.uses_store uses with rfl | old
        · exact ⟨count, by omega, message.ns, message.random, by rw [stamp, drawn]⟩
        · obtain ⟨ticket, before, isTicket⟩ := used id old
          exact ⟨ticket, by omega, isTicket⟩
  | deleted id asked there known answered =>
      simp only [isCreated, answered]
      refine ⟨?_, ?_, keyed_deleteProject keyed id⟩
      · simpa using drawn
      · intro other uses
        simpa using used other (Repository.uses_deleteProject uses)

theorem members_serve (sound : Sound start count plane)
    (served : plane.serve parse message = some (next, response))
    (few : count + (if isCreated response then 1 else 0) ≤ 65536) (collection : Route) :
    (next.repository.members collection).Perm
      (collection.seen (plane.repository.members collection) (message, response)) := by
  refine Repository.members_effect (serve_effect served).1 ?_ sound.keyed collection
  intro created
  have counted : isCreated response = true := by simp [isCreated, created]
  rw [if_pos counted] at few
  exact sound.fresh (by omega) message

/-- The invariant along a run, with any lists that agree with the collections at its
beginning. -/
theorem members_trace {listed : Route → List Json} (sound : Sound start count plane)
    (agree : ∀ collection, (plane.repository.members collection).Perm (listed collection))
    (executes : trace (serve parse) plane messages = some (last, responses))
    (few : count + responses.countP isCreated ≤ 65536) :
    Table.Keyed Project.id last.repository.projects ∧
      ∀ collection, (last.repository.members collection).Perm
        ((messages.zip responses).foldl collection.seen (listed collection)) := by
  induction messages generalizing plane count responses listed with
  | nil =>
      cases executes
      exact ⟨sound.keyed, agree⟩
  | cons message rest ih =>
      obtain ⟨next, response, later, served, remaining, rfl⟩ := trace_cons executes
      rw [List.countP_cons] at few
      have agreeNext (collection : Route) : (next.repository.members collection).Perm
          (collection.seen (listed collection) (message, response)) :=
        (members_serve sound served (by omega) collection).trans
          (Route.seen_perm (agree collection))
      exact ih (sound.serve served) agreeNext remaining (by omega)

/-! ## What a GET answers -/

theorem serve_answer {reply : HttpResponse} (notCreated : reply.status ≠ 201)
    (answered : message.route.handle plane.repository (plane.stamp message) message.verb
      (parse message.body) = plane.repository.answer reply) :
    plane.serve parse message = some (plane, reply) := by
  have routed : Platform.route parse plane.repository
      ⟨message.verb, extractPath message.target, message.body, plane.stamp message⟩ =
        (.ok reply, plane.repository) := answered
  simp [serve, routed, notCreated]

theorem serve_get_collection (asks : message.verb = .get)
    (collective : message.route.IsCollection) :
    ∃ items, plane.serve parse message = some (plane, .ok (.array items)) ∧
      items.Perm (plane.repository.members message.route) := by
  have answers (items : List Json)
      (answered : message.route.handle plane.repository (plane.stamp message) .get
        (parse message.body) = plane.repository.answer (.ok (.array items))) :
      plane.serve parse message = some (plane, .ok (.array items)) :=
    serve_answer (by simp) (by rw [asks, answered])
  cases there : message.route with
  | projects =>
      exact ⟨_, answers _ (by rw [there]; rfl), (List.mergeSort_perm _ _).map _⟩
  | scenarios projectId =>
      exact ⟨_, answers _ (by rw [there]; rfl), (List.mergeSort_perm _ _).map _⟩
  | runs projectId =>
      exact ⟨_, answers _ (by rw [there]; rfl), (List.mergeSort_perm _ _).map _⟩
  | policies projectId => exact ⟨_, answers _ (by rw [there]; rfl), .refl _⟩
  | project | evaluate | health | unknown =>
      rw [there] at collective
      exact collective.elim

theorem serve_get_project {id : String} (asks : message.verb = .get)
    (there : message.route = .project id) :
    plane.serve parse message =
      some (plane, (plane.repository.projects.lookup id).elim (.error 404 "error")
        fun project => .ok project.toJson) := by
  cases found : plane.repository.projects.lookup id with
  | some project =>
      refine serve_answer (by simp) ?_
      simp [there, asks, Route.handle, Repository.handleProject, Repository.getProject, found,
        Repository.found]
  | none =>
      refine serve_answer (by simp) ?_
      simp [there, asks, Route.handle, Repository.handleProject, Repository.getProject, found,
        Repository.found, PlatformError.toHttp]

/-- After any 65536 creations at most, a GET answers with what the earlier responses tell:
a collection has the bodies that were sent when its members were created, as long as
their project has not been deleted, and a project has the body of its creation. -/
theorem get_answers_history (executes : trace (serve parse) (.new start) messages =
      some (plane, responses))
    (few : responses.countP isCreated ≤ 65536) (message : Message)
    (asks : message.verb = .get) :
    (message.route.IsCollection → ∃ items,
      plane.serve parse message = some (plane, .ok (.array items)) ∧
        items.Perm (message.route.expected (messages.zip responses))) ∧
    ∀ id, message.route = .project id →
      (∀ json ∈ Route.expected .projects (messages.zip responses),
        Route.owner .projects json = some id →
          plane.serve parse message = some (plane, .ok json)) ∧
      ((∀ json ∈ Route.expected .projects (messages.zip responses),
        Route.owner .projects json ≠ some id) →
          plane.serve parse message = some (plane, .error 404 "error")) := by
  have initially (collection : Route) :
      ((ControlPlane.new start).repository.members collection).Perm [] := by
    cases collection <;> exact .refl _
  obtain ⟨keyed, agree⟩ :=
    members_trace (.new start) initially executes (by rwa [Nat.zero_add])
  refine ⟨?_, ?_⟩
  · intro collective
    obtain ⟨items, answered, listed⟩ := serve_get_collection asks collective
    exact ⟨items, answered, listed.trans (agree message.route)⟩
  · intro id there
    rw [serve_get_project asks there]
    have stored (json : Json) : json ∈ Route.expected .projects (messages.zip responses) ↔
        ∃ project ∈ plane.repository.projects.values, project.toJson = json := by
      rw [← List.mem_map]
      exact (agree .projects).mem_iff.symm
    constructor
    · intro json member owned
      obtain ⟨project, known, rfl⟩ := (stored json).mp member
      rw [Route.owner_project, Option.some.injEq] at owned
      rw [keyed.lookup_eq_some_iff.mpr ⟨known, owned⟩]
      rfl
    · intro absent
      cases found : plane.repository.projects.lookup id with
      | none => rfl
      | some project =>
          obtain ⟨known, named⟩ := keyed.lookup_eq_some_iff.mp found
          refine absurd ?_ (absent project.toJson ((stored _).mpr ⟨project, known, rfl⟩))
          rw [Route.owner_project, named]

def shopProject : Message :=
  ⟨.post, "/api/v1/projects", "\x7b\"name\":\"shop\"\x7d", 0, 0, 0⟩

def shopRun : Message :=
  ⟨.post, "/api/v1/projects/0000000000000000/runs?dry=1",
    "\x7b\"environment\":\"staging\"\x7d", 0, 0, 0⟩

def shopEvaluation : Message :=
  ⟨.post, "/api/v1/evaluate",
    "\x7b\"run_id\":\"0000000000010000\",\"policy_id\":\"p\"\x7d", 0, 0, 0⟩

/-- Reads the bodies of the three requests. -/
def shopBodies (text : String) : Option Json :=
  if text = shopProject.body then some (.object [("name", .string "shop")])
  else if text = shopRun.body then some (.object [("environment", .string "staging")])
  else if text = shopEvaluation.body then
    some (.object [("run_id", .string "0000000000010000"), ("policy_id", .string "p")])
  else none

/-- A project is created, and a run in it. -/
def shopMessages : List Message :=
  [shopProject, shopRun]

theorem shopMessages_created :
    ∃ plane responses,
      trace (serve shopBodies) (.new 0) shopMessages = some (plane, responses) ∧
      responses.map HttpResponse.status = [201, 201] ∧
      (Route.expected (.runs "0000000000000000") (shopMessages.zip responses)).length = 1 := by
  have executes : (trace (serve shopBodies) (.new 0) shopMessages).map
      (fun last => (last.2.map HttpResponse.status,
        (Route.expected (.runs "0000000000000000") (shopMessages.zip last.2)).length)) =
          some ([201, 201], 1) := by
    decide +kernel
  obtain ⟨⟨plane, responses⟩, taken, sent⟩ := Option.map_eq_some_iff.mp executes
  exact ⟨plane, responses, taken, congrArg Prod.fst sent, congrArg Prod.snd sent⟩

theorem get_answers_history_shop :
    ∃ plane responses items,
      trace (serve shopBodies) (.new 0) shopMessages = some (plane, responses) ∧
      responses.countP isCreated ≤ 65536 ∧
      plane.serve shopBodies ⟨.get, "/api/v1/projects/0000000000000000/runs", "", 0, 0, 0⟩ =
        some (plane, .ok (.array items)) ∧
      items.Perm (Route.expected (.runs "0000000000000000") (shopMessages.zip responses)) ∧
      items.length = 1 := by
  obtain ⟨plane, responses, executes, statuses, single⟩ := shopMessages_created
  have few : responses.countP isCreated ≤ 65536 := by
    have two : responses.length = 2 := by simpa using congrArg List.length statuses
    have bound : responses.countP isCreated ≤ responses.length := List.countP_le_length
    omega
  have there : Message.route ⟨.get, "/api/v1/projects/0000000000000000/runs", "", 0, 0, 0⟩ =
      .runs "0000000000000000" := by
    decide +kernel
  have collective : Route.IsCollection (Message.route
      ⟨.get, "/api/v1/projects/0000000000000000/runs", "", 0, 0, 0⟩) := by
    rw [there]
    trivial
  obtain ⟨items, answered, listed⟩ := (get_answers_history executes few _ rfl).1 collective
  rw [there] at listed
  exact ⟨plane, responses, items, executes, few, answered, listed,
    listed.length_eq.trans single⟩

/-! ## Evaluations -/

/-- The run is as `create_run` made it. -/
def Untouched (run : Run) : Prop :=
  run.status = .pending ∧ run.finishedAt = none ∧ run.result = none

theorem untouched_serve (untouched : plane.repository.runs.All Untouched)
    (served : plane.serve parse message = some (next, response)) :
    next.repository.runs.All Untouched := by
  obtain ⟨effect, -⟩ := serve_effect served
  generalize next.repository = left at effect
  cases effect with
  | none => exact untouched
  | created entity =>
      cases entity with
      | project => exact untouched
      | record creation =>
          cases creation with
          | scenario | policy => exact untouched
          | run projectId scenarioId environment =>
              exact untouched.insert _ ⟨rfl, rfl, rfl⟩
  | deleted id asked there known =>
      simp only [Repository.deleteProject, known, if_true]
      exact (untouched.keep _).mono fun _ => And.left

/-- What `evaluate` reports on a run without a result. -/
theorem evaluate_untouched {repository : Repository}
    (untouched : repository.runs.All Untouched) (runId policyId : String) :
    ∃ finding ∈ [("run", "run not found: " ++ runId),
        ("policy", "policy not found: " ++ policyId), ("result", "run has no result yet")],
      PolicyEvaluator.evaluate repository runId policyId =
        PolicyEvaluator.refused runId policyId finding.1 finding.2 := by
  unfold PolicyEvaluator.evaluate
  cases found : repository.runs.lookup runId with
  | none =>
      refine ⟨("run", "run not found: " ++ runId), by simp, ?_⟩
      rw [Repository.getRun, found]
      rfl
  | some run =>
      have unfinished : run.result = none := (untouched runId run found).2.2
      rw [Repository.getRun, found]
      cases located : repository.policies.lookup policyId with
      | none =>
          refine ⟨("policy", "policy not found: " ++ policyId), by simp, ?_⟩
          rw [Repository.getPolicy, located]
          rfl
      | some policy =>
          refine ⟨("result", "run has no result yet"), by simp, ?_⟩
          rw [Repository.getPolicy, located]
          simp [Repository.found, unfinished]

/-- A response of `handle_evaluate` is a refusal or carries an evaluation. -/
theorem evaluation_of_served (posted : message.verb = .post)
    (there : message.route = .evaluate)
    (served : plane.serve parse message = some (next, response))
    (answered : response.status = 200) :
    ∃ runId policyId, response.body =
      (PolicyEvaluator.evaluate plane.repository runId policyId).toJson := by
  have unaccepted (text : String) : (HttpResponse.error 400 text).status ≠ 200 := by simp
  unfold serve at served
  split at served
  · cases served
  · rename_i reply left handled
    cases served
    have routed : plane.repository.handleEvaluate .post (parse message.body) =
        (.ok response, left) := by
      rw [← posted, ← handled]
      change _ = message.route.handle plane.repository _ _ _
      rw [there]
      rfl
    simp only [Repository.handleEvaluate, Repository.post] at routed
    split at routed
    · cases routed
      exact absurd answered (unaccepted _)
    · split at routed
      · cases routed
      · split at routed
        · cases routed
          exact absurd answered (unaccepted _)
        · cases routed
          exact ⟨_, _, rfl⟩

/-- Through the HTTP interface alone no run ever gets a result: every run is listed as
pending, and every evaluation is answered with one of three findings and has not passed. -/
theorem evaluations_fail (executes : trace (serve parse) (.new start) messages =
      some (plane, responses))
    (served : plane.serve parse message = some (next, response)) :
    (message.verb = .post → message.route = .evaluate → response.status = 200 →
      response.body.field? "passed" = some (.bool false) ∧
      ∃ runId policyId, ∃ finding ∈ [("run", "run not found: " ++ runId),
          ("policy", "policy not found: " ++ policyId), ("result", "run has no result yet")],
        response.body =
          (PolicyEvaluator.refused runId policyId finding.1 finding.2).toJson) ∧
    ∀ projectId, message.verb = .get → message.route = .runs projectId →
      ∃ items, response.body = .array items ∧
        ∀ json ∈ items, textAt "status" json = some "pending" ∧
          json.field? "finished_at" = none ∧ json.field? "result" = none := by
  have untouched : plane.repository.runs.All Untouched :=
    trace_invariant executes (fun plane => plane.repository.runs.All Untouched)
      Table.All.empty fun _ _ _ _ => untouched_serve
  constructor
  · intro posted there answered
    obtain ⟨runId, policyId, sent⟩ := evaluation_of_served posted there served answered
    obtain ⟨finding, known, reported⟩ := evaluate_untouched untouched runId policyId
    rw [reported] at sent
    refine ⟨?_, runId, policyId, finding, known, sent⟩
    rw [sent]
    rfl
  · intro projectId asks there
    have collective : message.route.IsCollection := there ▸ trivial
    obtain ⟨items, answered, listed⟩ : ∃ items,
        plane.serve parse message = some (plane, .ok (.array items)) ∧
          items.Perm (plane.repository.members message.route) :=
      serve_get_collection asks collective
    rw [answered] at served
    cases served
    refine ⟨items, rfl, ?_⟩
    intro json member
    rw [there] at listed
    obtain ⟨run, known, rfl⟩ := List.mem_map.mp (listed.mem_iff.mp member)
    obtain ⟨entry, located, rfl⟩ := List.mem_map.mp (List.mem_filter.mp known).1
    have ⟨pending, unfinished, noResult⟩ :=
      untouched entry.1 entry.2 (AList.mem_lookup_iff.mpr located)
    simp only [Run.toJson, pending, unfinished, noResult]
    exact ⟨rfl, rfl, rfl⟩

theorem evaluations_fail_shop :
    ∃ plane responses next response,
      trace (serve shopBodies) (.new 0) shopMessages = some (plane, responses) ∧
      plane.serve shopBodies shopEvaluation =
        some (next, response) ∧
      response.body.field? "passed" = some (.bool false) := by
  have served : ((trace (serve shopBodies) (.new 0) shopMessages).bind fun last =>
      (last.1.serve shopBodies shopEvaluation).map
        fun answered => answered.2.status) = some 200 := by
    decide +kernel
  obtain ⟨⟨plane, responses⟩, executes, answered⟩ := Option.bind_eq_some_iff.mp served
  obtain ⟨⟨next, response⟩, taken, status⟩ := Option.map_eq_some_iff.mp answered
  have there : Message.route shopEvaluation =
      .evaluate := by
    decide +kernel
  exact ⟨plane, responses, next, response, executes, taken,
    ((evaluations_fail executes taken).1 rfl there status).1⟩

end ControlPlane

end Cppload.Platform
