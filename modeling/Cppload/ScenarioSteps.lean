import Cppload.Roster
import Cppload.ScenarioEngineMoves
import Cppload.TransitionSystem

/-!
# The steps a worker executes

A worker draws a scenario for every request and takes the step that its one
running counter selects among the steps of that scenario.  The counter counts
the steps of all scenarios, so the steps of one scenario come in their written
order only as far as the steps executed in between for the others make whole
rounds of it.
-/

namespace Cppload.Engine

open Transition

/-- The position of the scenario that a draw falls on. -/
def drawIndex : List Scenario → ℕ → Option ℕ
  | [], _ => none
  | scenario :: rest, pick =>
      let weight := if 0 < scenario.weight then scenario.weight else 1
      if pick < weight then some 0 else (drawIndex rest (pick - weight)).map (· + 1)

/-- `pick_weighted_scenario`, as a position in the list of scenarios. -/
def pickWeightedIndex (scenarios : List Scenario) (pick : ℕ) : Option ℕ :=
  (drawIndex scenarios pick).or (if scenarios.isEmpty then none else some (scenarios.length - 1))

/-- The step that the counter selects for a draw, as the positions of the scenario
and of the step in it. -/
def selectStep (scenarios : List Scenario) (stepIx pick : ℕ) : Option (ℕ × ℕ) :=
  (pickWeightedIndex scenarios pick).bind fun index =>
    scenarios[index]?.bind fun scenario =>
      if scenario.steps.isEmpty then none else some (index, stepIx % scenario.steps.length)

/-- The counter `step_ix` of a worker and the steps it has selected so far. -/
structure Progress where
  stepIx : ℕ
  executed : List (ℕ × ℕ)
  deriving DecidableEq, Repr

/-- The selection of one step for the draw `pick`. -/
def Progress.select (scenarios : List Scenario) (progress : Progress) (pick : ℕ) : Progress :=
  match selectStep scenarios progress.stepIx pick with
  | none => progress
  | some entry =>
      { stepIx := (progress.stepIx + 1) % 2 ^ 64
        executed := progress.executed ++ [entry] }

def Progress.start : Progress where
  stepIx := 0
  executed := []

/-- What a worker executes for its draws. -/
def execute (scenarios : List Scenario) (picks : List ℕ) : Progress :=
  picks.foldl (Progress.select scenarios) .start

/-- The executed steps of one scenario in the order of time. -/
def stepsOf (index : ℕ) (executed : List (ℕ × ℕ)) : List ℕ :=
  (executed.filter fun entry => entry.1 = index).map Prod.snd

/-- The list `0, 1, ..., size - 1, 0, 1, ...`. -/
def Cyclic (size : ℕ) (steps : List ℕ) : Prop :=
  steps = (List.range steps.length).map (· % size)

/-- The steps of every scenario come in their written order, round after round. -/
def InOrder (scenarios : List Scenario) (executed : List (ℕ × ℕ)) : Prop :=
  ∀ index scenario, scenarios[index]? = some scenario →
    Cyclic scenario.steps.length (stepsOf index executed)

/-- How many picks fall on other scenarios. -/
def others (index : ℕ) (picked : List (Option ℕ)) : ℕ :=
  picked.countP fun other => other ≠ some index

/-- Whenever a scenario is picked, the picks of the others before it make whole
rounds of its steps; each wraparound of the counter adds `2 ^ 64` to them. -/
def WholeRounds (scenarios : List Scenario) (picked : List (Option ℕ)) : Prop :=
  ∀ position index scenario, picked[position]? = some (some index) →
    scenarios[index]? = some scenario →
    others index (picked.take position) ≡ 2 ^ 64 * (position / 2 ^ 64)
      [MOD scenario.steps.length]

/-! ### The picked scenario -/

section Picks

variable {scenarios : List Scenario} {pick index : ℕ}

theorem drawScenario_eq (scenarios : List Scenario) (pick : ℕ) :
    drawScenario scenarios pick = (drawIndex scenarios pick).bind (scenarios[·]?) := by
  induction scenarios generalizing pick with
  | nil => rfl
  | cons scenario rest ih =>
      dsimp only [drawScenario, drawIndex]
      by_cases falls : pick < if 0 < scenario.weight then scenario.weight else 1
      · rw [if_pos falls, if_pos falls]
        rfl
      · rw [if_neg falls, if_neg falls, ih]
        cases drawIndex rest _ <;> rfl

theorem drawIndex_lt (drawn : drawIndex scenarios pick = some index) :
    index < scenarios.length := by
  induction scenarios generalizing pick index with
  | nil => cases drawn
  | cons scenario rest ih =>
      dsimp only [drawIndex] at drawn
      by_cases falls : pick < if 0 < scenario.weight then scenario.weight else 1
      · rw [if_pos falls] at drawn
        cases drawn
        exact Nat.succ_pos _
      · rw [if_neg falls] at drawn
        obtain ⟨earlier, found, rfl⟩ := Option.map_eq_some_iff.mp drawn
        exact Nat.succ_lt_succ (ih found)

theorem pickWeightedIndex_lt (picked : pickWeightedIndex scenarios pick = some index) :
    index < scenarios.length := by
  unfold pickWeightedIndex at picked
  cases drawn : drawIndex scenarios pick with
  | some position =>
      rw [drawn] at picked
      cases picked
      exact drawIndex_lt drawn
  | none =>
      rw [drawn, Option.none_or] at picked
      split at picked
      · cases picked
      · rename_i inhabited
        cases picked
        have nonempty := List.length_pos_iff.mpr (mt List.isEmpty_iff.mpr inhabited)
        omega

/-- The position is that of the scenario which the worker gets. -/
theorem pickWeightedScenario_eq (scenarios : List Scenario) (pick : ℕ) :
    pickWeightedScenario scenarios pick =
      (pickWeightedIndex scenarios pick).bind (scenarios[·]?) := by
  unfold pickWeightedScenario pickWeightedIndex
  rw [drawScenario_eq]
  cases drawn : drawIndex scenarios pick with
  | none =>
      rw [List.getLast?_eq_getElem?]
      cases scenarios <;> rfl
  | some index =>
      have found := List.getElem?_eq_getElem (drawIndex_lt drawn)
      simp only [Option.bind_some, found, Option.some_or]

theorem exists_picked (inhabited : scenarios ≠ []) (pick : ℕ) :
    ∃ index, pickWeightedIndex scenarios pick = some index := by
  unfold pickWeightedIndex
  cases drawIndex scenarios pick with
  | some position => exact ⟨position, rfl⟩
  | none =>
      rw [Option.none_or, if_neg (by simpa using inhabited)]
      exact ⟨_, rfl⟩

end Picks

/-! ### The engine's workers -/

/-- The step at a pair of positions. -/
def stepAt (scenarios : List Scenario) (entry : ℕ × ℕ) : Option HttpStep :=
  scenarios[entry.1]?.bind fun scenario => scenario.steps[entry.2]?

namespace Worker

variable {plan : Plan} {system : System} {choice : Choice} {worker : Worker}

theorem selectStep_stepAt (scenarios : List Scenario) (stepIx pick : ℕ) :
    (selectStep scenarios stepIx pick).bind (stepAt scenarios) =
      (pickWeightedScenario scenarios pick).bind fun scenario =>
        scenario.steps[stepIx % scenario.steps.length]? := by
  rw [pickWeightedScenario_eq]
  unfold selectStep
  cases pickWeightedIndex scenarios pick with
  | none => rfl
  | some index =>
      simp only [Option.bind_some]
      cases found : scenarios[index]? with
      | none => rfl
      | some scenario =>
          simp only [Option.bind_some]
          split
          · rename_i empty
            rw [List.isEmpty_iff.mp empty]
            rfl
          · simp only [Option.bind_some, stepAt, found]

theorem exists_stepAt {scenarios : List Scenario} {stepIx pick : ℕ} {entry : ℕ × ℕ}
    (selected : selectStep scenarios stepIx pick = some entry) :
    ∃ step, stepAt scenarios entry = some step := by
  obtain ⟨index, -, later⟩ := Option.bind_eq_some_iff.mp selected
  obtain ⟨scenario, found, result⟩ := Option.bind_eq_some_iff.mp later
  split at result
  · cases result
  · rename_i inhabited
    cases result
    have positive := List.length_pos_iff.mpr (mt List.isEmpty_iff.mpr inhabited)
    have within := Nat.mod_lt stepIx positive
    refine ⟨scenario.steps[stepIx % scenario.steps.length], ?_⟩
    simp only [stepAt, found, Option.bind_some, List.getElem?_eq_getElem within]

/-- A worker that finds no step goes back to the head of its loop. -/
theorem choose_of_none (nothing : selectStep plan.scenarios worker.stepIx choice.pick = none) :
    worker.choose plan system choice = (system, worker.goto .loopTest) := by
  have absent := selectStep_stepAt plan.scenarios worker.stepIx choice.pick
  rw [nothing, Option.bind_none] at absent
  unfold choose
  cases picked : pickWeightedScenario plan.scenarios choice.pick with
  | none => rfl
  | some scenario =>
      rw [picked, Option.bind_some] at absent
      simp only [← absent]

/-- The request which a worker makes is that of the selected step. -/
theorem choose_of_some (system : System) {entry : ℕ × ℕ}
    (selected : selectStep plan.scenarios worker.stepIx choice.pick = some entry) :
    ∃ step, stepAt plan.scenarios entry = some step ∧
      (worker.choose plan system choice).2.stepIx = (worker.stepIx + 1) % 2 ^ 64 ∧
      ∀ request, (worker.choose plan system choice).2.pc = .issuing request →
        request.method = step.method ∧ request.path = step.path ∧ request.body = step.body := by
  obtain ⟨step, found⟩ := exists_stepAt selected
  have present := selectStep_stepAt plan.scenarios worker.stepIx choice.pick
  rw [selected, Option.bind_some, found] at present
  obtain ⟨scenario, picked, located⟩ := Option.bind_eq_some_iff.mp present.symm
  refine ⟨step, found, ?_⟩
  unfold choose
  simp only [picked, located, true_and]
  intro request issues
  cases thrown : choice.throws with
  | some what => simp only [thrown, reduceCtorEq] at issues
  | none =>
      simp only [thrown, WorkerPc.issuing.injEq] at issues
      subst issues
      exact ⟨rfl, rfl, rfl⟩

theorem choose_stepIx (worker : Worker) (executed : List (ℕ × ℕ)) :
    (worker.choose plan system choice).2.stepIx =
      (Progress.select plan.scenarios ⟨worker.stepIx, executed⟩ choice.pick).stepIx := by
  unfold Progress.select
  cases selected : selectStep plan.scenarios worker.stepIx choice.pick with
  | none =>
      rw [choose_of_none selected]
      rfl
  | some entry =>
      obtain ⟨step, -, counted, -⟩ := choose_of_some system selected
      exact counted

theorem acquire_stepIx {after : System} {next : Worker} {attempts : ℕ}
    (moved : worker.acquire plan system attempts = some (after, next)) :
    next.stepIx = worker.stepIx := by
  obtain ⟨pool, -, result⟩ := Option.map_eq_some_iff.mp moved
  cases result
  split
  · rfl
  · split <;> rfl

theorem takeSlot_stepIx (system : System) (worker : Worker) :
    (worker.takeSlot system).stepIx = worker.stepIx := by
  unfold takeSlot
  split
  · rfl
  · split <;> rfl

theorem serve_stepIx {after : System} {next : Worker}
    (moved : worker.serve system choice = some (after, next)) :
    next.stepIx = worker.stepIx := by
  unfold serve at moved
  split at moved
  · cases moved
    rfl
  · obtain ⟨issued, -, result⟩ := Option.bind_eq_some_iff.mp moved
    split at result <;> cases result
    rfl

theorem handle_stepIx (system : System) (choice : Choice) (worker : Worker) (index : ℕ) :
    (worker.handle system choice index).2.stepIx = worker.stepIx := by
  unfold handle
  split <;> rfl

/-- Only the choice of a step moves the counter. -/
theorem move_stepIx {after : System} {next : Worker} (elsewhere : worker.pc ≠ .choosing)
    (moved : worker.move plan system choice = some (after, next)) :
    next.stepIx = worker.stepIx := by
  cases at_ : worker.pc with
  | choosing => exact absurd at_ elsewhere
  | finished => simp only [move, at_, reduceCtorEq] at moved
  | acquiring attempts =>
      simp only [move, at_] at moved
      exact acquire_stepIx moved
  | deadlineTest =>
      simp only [move, at_] at moved
      cases moved
      exact takeSlot_stepIx system worker
  | serving =>
      simp only [move, at_] at moved
      exact serve_stepIx moved
  | handling index =>
      simp only [move, at_, Option.some.injEq] at moved
      exact congrArg (fun result => result.2.stepIx) moved ▸
        handle_stepIx system choice worker index
  | issuing request =>
      simp only [move, at_] at moved
      split at moved <;> cases moved <;> rfl
  | _ =>
      simp only [move, at_] at moved
      cases moved
      rfl

end Worker

namespace System

variable {plan : Plan} {system after : System} {worker : Worker} {index : ℕ}

/-- The worker and the draw of a step that picks a scenario. -/
def drawn (system : System) : Action → Option (ℕ × ℕ)
  | .worker index choice =>
      system.workers[index]?.bind fun worker =>
        if worker.pc = .choosing then some (index, choice.pick) else none
  | _ => none

/-- The steps of the engine together with the draws that its workers make. -/
def drawing (plan : Plan) (system : System) (action : Action) :
    Option (System × Option (ℕ × ℕ)) :=
  (system.step plan action).map fun next => (next, system.drawn action)

/-- The draws of one worker in the order of time. -/
def picksOf (index : ℕ) (draws : List (Option (ℕ × ℕ))) : List ℕ :=
  draws.filterMap fun draw =>
    draw.bind fun entry => if entry.1 = index then some entry.2 else none

theorem MainMoves.keeps_worker {main : Main} (moved : MainMoves plan system main after)
    (found : system.workers[index]? = some worker) : after.workers[index]? = some worker := by
  cases moved with
  | staged moved =>
      cases moved with
      | spawned => exact List.getElem?_append_left (List.getElem?_eq_some_iff.mp found).1 ▸ found
      | _ => exact found
  | _ => exact found

/-- A step of the engine takes every worker's counter as far as its draws do. -/
theorem drawing_stepIx {action : Action} {draw : Option (ℕ × ℕ)} {progress : Progress}
    (taken : drawing plan system action = some (after, draw))
    (found : system.workers[index]? = some worker) (same : worker.stepIx = progress.stepIx) :
    ∃ next, after.workers[index]? = some next ∧
      next.stepIx = ((picksOf index [draw]).foldl (Progress.select plan.scenarios)
        progress).stepIx := by
  obtain ⟨state, stepped, result⟩ := Option.map_eq_some_iff.mp taken
  cases result
  cases action with
  | main => exact ⟨worker, (mainStep_moves stepped).keeps_worker found, same⟩
  | stop =>
      cases stepped
      exact ⟨worker, found, same⟩
  | stopIoc | tick =>
      simp only [step] at stepped
      split at stepped <;> cases stepped
      exact ⟨worker, found, same⟩
  | worker other choice =>
      obtain ⟨mover, located, later⟩ := Option.bind_eq_some_iff.mp stepped
      obtain ⟨moved, moves, rfl⟩ := Option.map_eq_some_iff.mp later
      have framed := (Worker.move_moves moves).framed
      dsimp only
      rw [framed.workers]
      by_cases own : other = index
      · subst own
        obtain rfl := Option.some.inj (located.symm.trans found)
        refine ⟨moved.2, Roster.getElem?_set_self located, ?_⟩
        by_cases chooses : mover.pc = .choosing
        · have chosen : moved = mover.choose plan system choice := by
            simp only [Worker.move, chooses, Option.some.injEq] at moves
            exact moves.symm
          have draws : picksOf other [system.drawn (.worker other choice)] = [choice.pick] := by
            simp [picksOf, drawn, located, chooses]
          rw [draws, chosen, Worker.choose_stepIx mover progress.executed, same]
          rfl
        · have draws : picksOf other [system.drawn (.worker other choice)] = [] := by
            simp [picksOf, drawn, located, chooses]
          rw [draws]
          exact (Worker.move_stepIx chooses moves).trans same
      · have draws : picksOf index [system.drawn (.worker other choice)] = [] := by
          simp only [picksOf, drawn, located, Option.bind_some]
          split <;> simp [own]
        rw [draws]
        exact ⟨worker, (List.getElem?_set_ne own).trans found, same⟩

theorem picksOf_cons (index : ℕ) (draw : Option (ℕ × ℕ)) (draws : List (Option (ℕ × ℕ))) :
    picksOf index (draw :: draws) = picksOf index [draw] ++ picksOf index draws := by
  exact List.filterMap_append (l := [draw])

/-- In every run of the engine the counter of a worker is what `execute` computes
from its draws. -/
theorem trace_stepIx {actions : List Action} {draws : List (Option (ℕ × ℕ))}
    (executes : trace (drawing plan) system actions = some (after, draws))
    (found : system.workers[index]? = some worker) (progress : Progress)
    (same : worker.stepIx = progress.stepIx) :
    ∃ next, after.workers[index]? = some next ∧
      next.stepIx = ((picksOf index draws).foldl (Progress.select plan.scenarios)
        progress).stepIx := by
  induction actions generalizing system worker progress draws with
  | nil =>
      cases executes
      exact ⟨worker, found, same⟩
  | cons action rest ih =>
      obtain ⟨state, draw, later, taken, remaining, rfl⟩ := trace_cons executes
      obtain ⟨next, kept, counted⟩ := drawing_stepIx taken found same
      rw [picksOf_cons, List.foldl_append]
      exact ih remaining kept _ counted

end System

/-! ### The order of the steps -/

theorem cyclic_concat_iff {size step : ℕ} {steps : List ℕ} :
    Cyclic size (steps ++ [step]) ↔ Cyclic size steps ∧ step = steps.length % size := by
  unfold Cyclic
  rw [List.length_append, List.length_singleton, List.range_succ, List.map_append,
    List.map_singleton]
  constructor
  · intro same
    obtain ⟨front, last⟩ := List.append_inj' same rfl
    exact ⟨front, List.singleton_inj.mp last⟩
  · rintro ⟨front, last⟩
    rw [← front, last]

theorem stepsOf_concat (index : ℕ) (executed : List (ℕ × ℕ)) (entry : ℕ × ℕ) :
    stepsOf index (executed ++ [entry]) =
      if entry.1 = index then stepsOf index executed ++ [entry.2] else stepsOf index executed := by
  unfold stepsOf
  rw [List.filter_append, List.map_append, List.filter_singleton]
  by_cases own : entry.1 = index <;> simp [own]

section Order

variable {scenarios : List Scenario} {picks : List ℕ} {pick index : ℕ} {scenario : Scenario}

theorem inOrder_concat_iff {executed : List (ℕ × ℕ)} {step : ℕ}
    (found : scenarios[index]? = some scenario) :
    InOrder scenarios (executed ++ [(index, step)]) ↔
      InOrder scenarios executed ∧
        step = (stepsOf index executed).length % scenario.steps.length := by
  constructor
  · intro ordered
    have last := ordered index scenario found
    rw [stepsOf_concat, if_pos rfl, cyclic_concat_iff] at last
    refine ⟨fun other entry located => ?_, last.2⟩
    have cyclic := ordered other entry located
    rw [stepsOf_concat] at cyclic
    split at cyclic
    · exact (cyclic_concat_iff.mp cyclic).1
    · exact cyclic
  · rintro ⟨ordered, next⟩ other entry located
    rw [stepsOf_concat]
    split
    · rename_i own
      cases own
      obtain rfl := Option.some.inj (found.symm.trans located)
      exact cyclic_concat_iff.mpr ⟨ordered index scenario found, next⟩
    · exact ordered other entry located

theorem wholeRounds_concat_iff {picked : List (Option ℕ)}
    (found : scenarios[index]? = some scenario) :
    WholeRounds scenarios (picked ++ [some index]) ↔
      WholeRounds scenarios picked ∧
        others index picked ≡ 2 ^ 64 * (picked.length / 2 ^ 64) [MOD scenario.steps.length] := by
  constructor
  · intro rounds
    constructor
    · intro position other entry located present
      have within := (List.getElem?_eq_some_iff.mp located).1
      have earlier := rounds position other entry
        ((List.getElem?_append_left within).trans located) present
      rwa [List.take_append_of_le_length within.le] at earlier
    · have last := rounds picked.length index scenario List.getElem?_concat_length found
      rwa [List.take_left] at last
  · rintro ⟨rounds, last⟩ position other entry located present
    rcases Roster.getElem?_concat_cases located with earlier | ⟨rfl, same⟩
    · have within := (List.getElem?_eq_some_iff.mp earlier).1
      rw [List.take_append_of_le_length within.le]
      exact rounds position other entry earlier present
    · cases same
      obtain rfl := Option.some.inj (found.symm.trans present)
      rwa [List.take_left]

theorem execute_concat (scenarios : List Scenario) (picks : List ℕ) (pick : ℕ) :
    execute scenarios (picks ++ [pick]) = (execute scenarios picks).select scenarios pick := by
  rw [execute, List.foldl_append]
  rfl

theorem others_concat (index own : ℕ) (picked : List (Option ℕ)) :
    others index (picked ++ [some own]) =
      if own = index then others index picked else others index picked + 1 := by
  unfold others
  rw [List.countP_append, List.countP_singleton]
  by_cases same : own = index <;> simp [same]

/-- The running counter selects the scenario's next step exactly when the rest of
the total is made of whole rounds. -/
theorem counter_mod_eq_iff (size own other total : ℕ) (sum : total = own + other) :
    total % 2 ^ 64 % size = own % size ↔ other ≡ 2 ^ 64 * (total / 2 ^ 64) [MOD size] := by
  have parts := Nat.mod_add_div total (2 ^ 64)
  change total % 2 ^ 64 ≡ own [MOD size] ↔ _
  constructor
  · intro same
    refine Nat.ModEq.add_left_cancel same.symm ?_
    rw [← sum, parts]
  · intro same
    refine (Nat.ModEq.add_right_cancel same ?_).symm
    rw [← sum, parts]

section Execution

variable (stepped : ∀ scenario ∈ scenarios, scenario.steps ≠ [])
variable (inhabited : scenarios ≠ [])

include stepped inhabited

theorem select_eq (progress : Progress) (pick : ℕ) :
    ∃ index scenario, pickWeightedIndex scenarios pick = some index ∧
      scenarios[index]? = some scenario ∧
      progress.select scenarios pick =
        { stepIx := (progress.stepIx + 1) % 2 ^ 64
          executed := progress.executed ++
            [(index, progress.stepIx % scenario.steps.length)] } := by
  obtain ⟨index, picked⟩ := exists_picked inhabited pick
  have within := pickWeightedIndex_lt picked
  have found := List.getElem?_eq_getElem within
  have filled : scenarios[index].steps.isEmpty = false :=
    List.isEmpty_eq_false_iff.mpr (stepped _ (List.getElem_mem within))
  refine ⟨index, scenarios[index], picked, found, ?_⟩
  simp only [Progress.select, selectStep, picked, found, Option.bind_some, filled,
    Bool.false_eq_true, if_false]

theorem execute_stepIx (picks : List ℕ) :
    (execute scenarios picks).stepIx = picks.length % 2 ^ 64 := by
  induction picks using List.reverseRecOn with
  | nil => rfl
  | append_singleton picks pick ih =>
      obtain ⟨index, scenario, -, -, selected⟩ :=
        select_eq stepped inhabited (execute scenarios picks) pick
      rw [execute_concat, selected, ih, List.length_append, List.length_singleton]
      exact Nat.mod_add_mod picks.length (2 ^ 64) 1

/-- Every pick is of the scenario itself or of another one. -/
theorem length_stepsOf_execute (index : ℕ) (picks : List ℕ) :
    (stepsOf index (execute scenarios picks).executed).length +
      others index (picks.map (pickWeightedIndex scenarios)) = picks.length := by
  induction picks using List.reverseRecOn with
  | nil => rfl
  | append_singleton picks pick ih =>
      obtain ⟨own, scenario, picked, -, selected⟩ :=
        select_eq stepped inhabited (execute scenarios picks) pick
      rw [execute_concat, selected, stepsOf_concat, List.map_append, List.map_singleton, picked,
        others_concat]
      rw [List.length_append, List.length_singleton, ← ih]
      by_cases same : own = index
      · rw [if_pos same, if_pos same, List.length_append, List.length_singleton]
        omega
      · rw [if_neg same, if_neg same]
        omega

end Execution

/-- The steps of each scenario come in their written order exactly when, at each
of its picks, the picks of other scenarios before make whole rounds of its steps. -/
theorem steps_inOrder_iff (scenarios : List Scenario)
    (stepped : ∀ scenario ∈ scenarios, scenario.steps ≠ []) (picks : List ℕ) :
    InOrder scenarios (execute scenarios picks).executed ↔
      WholeRounds scenarios (picks.map (pickWeightedIndex scenarios)) := by
  by_cases inhabited : scenarios = []
  · subst inhabited
    exact ⟨fun _ _ _ _ _ absent => by simp at absent, fun _ _ _ absent => by simp at absent⟩
  -- by the last pick, before which the counter is the number of picks
  induction picks using List.reverseRecOn with
  | nil => exact ⟨fun _ _ _ _ absent => by simp at absent, fun _ _ _ _ => rfl⟩
  | append_singleton picks pick ih =>
      obtain ⟨index, scenario, picked, found, selected⟩ :=
        select_eq stepped inhabited (execute scenarios picks) pick
      have total := length_stepsOf_execute stepped inhabited index picks
      rw [execute_concat, selected, inOrder_concat_iff found, ih, List.map_append,
        List.map_singleton, picked, wholeRounds_concat_iff found, List.length_map,
        execute_stepIx stepped inhabited]
      exact and_congr_right fun _ => counter_mod_eq_iff _ _ _ _ total.symm

end Order

/-- A flow that posts to `/a` before `/b`. -/
def flow : Scenario where
  weight := 1
  steps :=
    [{ method := "POST", path := [47, 97], body := [], headers := [], useTls := false },
     { method := "POST", path := [47, 98], body := [], headers := [], useTls := false }]

/-- A single request. -/
def probe : Scenario where
  weight := 1
  steps := [{ method := "GET", path := [47], body := [], headers := [], useTls := false }]

/-- Two picks of a one-step scenario do not disturb a flow of two steps. -/
theorem steps_inOrder_two_probes :
    InOrder [flow, probe] (execute [flow, probe] [0, 1, 1, 0]).executed := by
  have stepped : ∀ scenario ∈ [flow, probe], scenario.steps ≠ [] := by decide
  refine (steps_inOrder_iff [flow, probe] stepped [0, 1, 1, 0]).mpr ?_
  have picks : [0, 1, 1, 0].map (pickWeightedIndex [flow, probe]) =
      [some 0, some 1, some 1, some 0] := by decide
  rw [picks]
  intro position index scenario picked found
  match position with
  | 0 | 1 | 2 | 3 =>
      cases picked
      cases found
      decide
  | later + 4 => simp at picked

/-- Two flows that take turns: the second one never executes its first step. -/
theorem steps_out_of_order :
    (∀ scenario ∈ [flow, flow], scenario.steps ≠ []) ∧
      stepsOf 0 (execute [flow, flow] [0, 1, 0, 1]).executed = [0, 0] ∧
      stepsOf 1 (execute [flow, flow] [0, 1, 0, 1]).executed = [1, 1] ∧
      ¬InOrder [flow, flow] (execute [flow, flow] [0, 1, 0, 1]).executed := by
  have second : stepsOf 1 (execute [flow, flow] [0, 1, 0, 1]).executed = [1, 1] := by decide
  refine ⟨by decide, by decide, second, ?_⟩
  intro ordered
  have cyclic := ordered 1 flow rfl
  rw [second, Cyclic] at cyclic
  exact absurd cyclic (by decide)

end Cppload.Engine
