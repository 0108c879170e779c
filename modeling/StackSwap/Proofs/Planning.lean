import StackSwap.Deployer
import StackSwap.Proofs.Accounted
import StackSwap.Proofs.Levels
import StackSwap.Proofs.Loading

namespace StackSwap

namespace Deployer

variable {deployer : Deployer} {levels : Nat} {request : Request}

/-- Where an attempt looks for the templates of nested stacks. -/
def templates (deployer : Deployer) : TemplateSource :=
  if deployer.configured .nestedTemplates then deployer.source else .none

/-- What is loaded for a request: a stack tree, or nothing if the stack is not deployed. -/
def loaded (deployer : Deployer) (levels : Nat) (request : Request) : Timed (Option Stack) :=
  Stack.load deployer.lookups deployer.templates levels request.stackName request.template

/-- The mode of an attempt. -/
def modeOf (deployer : Deployer) (request : Request) : Mode :=
  request.mode.getD deployer.settings.mode

/-- Everything that planning looks up is there, and makes the scope of the root. -/
structure Surveys (deployer : Deployer) (levels : Nat) (request : Request) (scope : Scope) : Prop where
  client : deployer.configured .cloudFormation = true
  loads : ∃ duration, deployer.loaded levels request = .ends duration (.ok (some scope.stack))
  parameters : ∃ duration current,
    deployer.lookups.parameters request.stackName = .ends duration (.ok current) ∧
      scope.parameters = parameterValues request.parameters current
  imports : scope.stack.usesFunction "Fn::ImportValue" = true →
    ∃ duration, deployer.lookups.exports = .ends duration (.ok scope.exports)
  noImports : scope.stack.usesFunction "Fn::ImportValue" = false → scope.exports = .empty
  environment : scope.environment = deployer.settings.target.environment

/-- Something stops an attempt from being planned. -/
inductive Stops (deployer : Deployer) (levels : Nat) (request : Request) : Option Failure → Prop where
  | client (missing : deployer.configured .cloudFormation = false) :
    Stops deployer levels request (some (.clientNotConfigured .cloudFormation))
  | loading {problem : Option Failure} (client : deployer.configured .cloudFormation = true)
    (stops : Stack.LoadStops deployer.lookups deployer.templates levels request.stackName
      request.template problem) : Stops deployer levels request problem
  | parameters {duration : Nat} {stack : Stack} {problem : Option Failure}
    (client : deployer.configured .cloudFormation = true)
    (loads : deployer.loaded levels request = .ends duration (.ok (some stack)))
    (stops : (deployer.lookups.parameters request.stackName).Stops problem) :
    Stops deployer levels request problem
  | exports {duration : Nat} {stack : Stack} {problem : Option Failure}
    (client : deployer.configured .cloudFormation = true)
    (loads : deployer.loaded levels request = .ends duration (.ok (some stack)))
    (imports : stack.usesFunction "Fn::ImportValue" = true)
    (stops : deployer.lookups.exports.Stops problem) : Stops deployer levels request problem
  | evaluation {scope level : Scope} {error : EvaluationError}
    (surveys : deployer.Surveys levels request scope) (reached : scope.Reaches level)
    (unmet : level.Unmet error) : Stops deployer levels request (some (.evaluation error))

/-- The exports for a tree. -/
def exportsFor (deployer : Deployer) (stack : Stack) : Timed (Table String) :=
  if stack.usesFunction "Fn::ImportValue" then deployer.lookups.exports else .now (.ok .empty)

/-- The scope of the root of a tree, for the values that were looked up. -/
def rootScope (deployer : Deployer) (request : Request) (stack : Stack)
    (current exports : Table String) : Scope :=
  ⟨stack, parameterValues request.parameters current, deployer.settings.target.environment, exports⟩

theorem plan_eq (client : deployer.configured .cloudFormation = true) :
    (deployer.plan levels request).plan = (deployer.loaded levels request).andThen fun stack =>
      match stack with
      | none => .now (.ok none)
      | some stack => (deployer.planLoaded request stack).plan := by
  simp only [plan, client, ↓reduceIte, loaded, templates]
  cases Stack.load deployer.lookups
    (if deployer.configured .nestedTemplates then deployer.source else .none) levels
    request.stackName request.template with
  | never => rfl
  | ends duration result =>
    cases result with
    | error failure => rfl
    | ok stack => cases stack <;> rfl

theorem planLoaded_eq (stack : Stack) :
    (deployer.planLoaded request stack).plan =
      (Timed.both (deployer.lookups.parameters request.stackName) (deployer.exportsFor stack)).andThen
        fun (current, exports) => .now (some <$> Plan.ofScope
          (deployer.rootScope request stack current exports) (deployer.modeOf request)) := rfl

theorem surveys_of_lookups {early late : Nat} {stack : Stack} {current exports : Table String}
    {pair : Nat} (client : deployer.configured .cloudFormation = true)
    (loads : deployer.loaded levels request = .ends pair (.ok (some stack)))
    (parameters : deployer.lookups.parameters request.stackName = .ends early (.ok current))
    (exported : deployer.exportsFor stack = .ends late (.ok exports)) :
    deployer.Surveys levels request (deployer.rootScope request stack current exports) := by
  refine ⟨client, ⟨pair, loads⟩, ⟨early, current, parameters, rfl⟩,
    fun (imports : stack.usesFunction "Fn::ImportValue" = true) => ?_,
    fun (noImports : stack.usesFunction "Fn::ImportValue" = false) => ?_, rfl⟩
  · rw [exportsFor, if_pos imports] at exported
    exact ⟨late, exported⟩
  · rw [exportsFor, if_neg (Bool.eq_false_iff.mp noImports)] at exported
    cases exported
    rfl

theorem plan_of_surveys {scope : Scope} (surveys : deployer.Surveys levels request scope) :
    ∃ duration, (deployer.plan levels request).plan =
      .ends duration (some <$> Plan.ofScope scope (deployer.modeOf request)) := by
  obtain ⟨before, loads⟩ := surveys.loads
  obtain ⟨early, current, parameters, sameParameters⟩ := surveys.parameters
  have listed : ∃ late, deployer.exportsFor scope.stack = .ends late (.ok scope.exports) := by
    unfold exportsFor
    split
    · rename_i imports
      exact surveys.imports imports
    · rename_i noImports
      have noExports := surveys.noImports (Bool.eq_false_iff.mpr noImports)
      exact ⟨0, by rw [noExports]; rfl⟩
  obtain ⟨late, listed⟩ := listed
  have sameScope : deployer.rootScope request scope.stack current scope.exports = scope := by
    rw [rootScope, ← sameParameters, ← surveys.environment]
  rw [plan_eq surveys.client, loads]
  refine ⟨before + (max early late + 0), ?_⟩
  simp only [Timed.andThen, planLoaded_eq, parameters, listed, Timed.both, sameScope, Timed.now]

theorem ofScope_eq_error {scope : Scope} {mode : Mode} {failure : Failure}
    (failed : Plan.ofScope scope mode = .error failure) :
    ∃ error, scope.assess = .error error ∧ failure = .evaluation error := by
  rcases bind_eq_error_iff.mp failed with noAssessment | ⟨_, _, impossible⟩
  · cases assessed : scope.assess with
    | error error =>
      rw [assessed] at noAssessment
      cases noAssessment
      exact ⟨error, rfl, rfl⟩
    | ok assessment =>
      rw [assessed] at noAssessment
      cases noAssessment
  · cases impossible

theorem ofScope_of_now {scope : Scope} {mode : Mode} {duration : Nat} {found : Option Plan}
    (made : Timed.now (some <$> Plan.ofScope scope mode) = .ends duration (.ok found)) :
    ∃ plan, found = some plan ∧ Plan.ofScope scope mode = .ok plan := by
  cases result : Plan.ofScope scope mode with
  | error failure =>
    rw [result] at made
    cases made
  | ok plan =>
    rw [result] at made
    cases made
    exact ⟨plan, rfl, rfl⟩

theorem ofScope_of_now_stops {scope : Scope} {mode : Mode} {problem : Option Failure}
    (stopped : (Timed.now (some <$> Plan.ofScope scope mode)).Stops problem) :
    ∃ error, scope.assess = .error error ∧ problem = some (.evaluation error) := by
  cases result : Plan.ofScope scope mode with
  | error failure =>
    rw [result] at stopped
    cases stopped
    obtain ⟨error, assessed, rfl⟩ := ofScope_eq_error result
    exact ⟨error, assessed, rfl⟩
  | ok plan =>
    rw [result] at stopped
    cases stopped

/-- A plan, or that there is none, follows from everything that planning looks up. -/
theorem surveys_of_plan {start : Nat} {found : Option Plan}
    (planned : (deployer.plan levels request).plan = .ends start (.ok found)) :
    deployer.configured .cloudFormation = true ∧
      ((∃ duration, deployer.loaded levels request = .ends duration (.ok none)) ∧ found = none ∨
      ∃ scope plan, deployer.Surveys levels request scope ∧
        Plan.ofScope scope (deployer.modeOf request) = .ok plan ∧ found = some plan) := by
  by_cases client : deployer.configured .cloudFormation = true
  · refine ⟨client, ?_⟩
    rw [plan_eq client] at planned
    obtain ⟨before, loadedStack, after, loads, later⟩ := Timed.andThen_eq_ok planned
    cases loadedStack with
    | none =>
      cases later
      exact .inl ⟨⟨before, loads⟩, rfl⟩
    | some stack =>
      dsimp only at later
      rw [planLoaded_eq] at later
      obtain ⟨_, ⟨current, exports⟩, _, joined, made⟩ := Timed.andThen_eq_ok later
      obtain ⟨_, _, parameters, exported, _⟩ := Timed.both_eq_ok joined
      obtain ⟨plan, same, made⟩ := ofScope_of_now made
      exact .inr ⟨_, plan, surveys_of_lookups client loads parameters exported, made, same⟩
  · simp only [plan, client, Bool.false_eq_true, ↓reduceIte] at planned
    cases planned

theorem stops_of_plan {problem : Option Failure}
    (stopped : (deployer.plan levels request).plan.Stops problem) :
    deployer.Stops levels request problem := by
  by_cases client : deployer.configured .cloudFormation = true
  · rw [plan_eq client] at stopped
    rcases Timed.stops_of_andThen stopped with loading | ⟨duration, found, loads, later⟩
    · exact .loading client (Stack.loadStops_of_load loading)
    · cases found with
      | none => exact absurd later Timed.not_stops_ok
      | some stack =>
        dsimp only at later
        rw [planLoaded_eq] at later
        rcases Timed.stops_of_andThen later with lookups | ⟨_, ⟨current, exports⟩, joined, made⟩
        · rcases Timed.stops_of_both lookups with parameters | exported
          · exact .parameters client loads parameters
          · unfold exportsFor at exported
            split at exported
            · rename_i imports
              exact .exports client loads imports exported
            · exact absurd exported Timed.not_stops_ok
        · obtain ⟨_, _, parameters, exported, _⟩ := Timed.both_eq_ok joined
          obtain ⟨error, failed, rfl⟩ := ofScope_of_now_stops made
          obtain ⟨level, reached, unmet⟩ := Scope.unmet_of_assess failed
          exact .evaluation (surveys_of_lookups client loads parameters exported) reached unmet
  · simp only [plan, client, Bool.false_eq_true, ↓reduceIte] at stopped
    cases stopped
    exact .client (Bool.eq_false_iff.mpr client)

theorem Surveys.unique {first second : Scope} (left : deployer.Surveys levels request first)
    (right : deployer.Surveys levels request second) : first = second := by
  have sameStack : first.stack = second.stack := by
    obtain ⟨_, loads⟩ := left.loads
    obtain ⟨_, loads'⟩ := right.loads
    have same := loads.symm.trans loads'
    simp only [Timed.ends.injEq, Except.ok.injEq, Option.some.injEq] at same
    exact same.2
  have sameParameters : first.parameters = second.parameters := by
    obtain ⟨_, current, found, same⟩ := left.parameters
    obtain ⟨_, current', found', same'⟩ := right.parameters
    cases found.symm.trans found'
    exact same.trans same'.symm
  have sameExports : first.exports = second.exports := by
    cases imports : first.stack.usesFunction "Fn::ImportValue" with
    | true =>
      obtain ⟨_, found⟩ := left.imports imports
      obtain ⟨_, found'⟩ := right.imports (sameStack ▸ imports)
      have same := found.symm.trans found'
      simp only [Timed.ends.injEq, Except.ok.injEq] at same
      exact same.2
    | false =>
      exact (left.noImports imports).trans (right.noImports (sameStack ▸ imports)).symm
  have sameEnvironment := left.environment.trans right.environment.symm
  obtain ⟨stack, parameters, environment, exports⟩ := first
  obtain ⟨stack', parameters', environment', exports'⟩ := second
  cases sameStack
  cases sameParameters
  cases sameExports
  cases sameEnvironment
  rfl

theorem Stops.not_planned {problem : Option Failure} (stops : deployer.Stops levels request problem)
    {duration : Nat} {found : Option Plan} :
    (deployer.plan levels request).plan ≠ .ends duration (.ok found) := by
  intro planned
  obtain ⟨client, ⟨⟨_, absent⟩, _⟩ | ⟨scope, plan, surveys, made, _⟩⟩ := surveys_of_plan planned
  · cases stops with
    | client missing =>
      rw [client] at missing
      cases missing
    | loading _ stops => exact stops.not_loaded absent
    | parameters _ loads _ => cases absent.symm.trans loads
    | exports _ loads _ _ => cases absent.symm.trans loads
    | evaluation surveys _ _ =>
      obtain ⟨_, loads⟩ := surveys.loads
      cases absent.symm.trans loads
  · obtain ⟨_, loads⟩ := surveys.loads
    cases stops with
    | client missing =>
      rw [client] at missing
      cases missing
    | loading _ stops => exact stops.not_loaded loads
    | parameters _ _ stopped =>
      obtain ⟨_, current, looked, _⟩ := surveys.parameters
      exact Timed.not_stops_ok (looked ▸ stopped)
    | exports _ loads' imports stopped =>
      cases loads.symm.trans loads'
      obtain ⟨_, looked⟩ := surveys.imports imports
      exact Timed.not_stops_ok (looked ▸ stopped)
    | evaluation surveys' reached unmet =>
      cases surveys.unique surveys'
      exact unmet.no_assessment reached _ (Plan.ofScope_eq_ok made).1

theorem plan_of_undeployed {first second : Nat} {resources : List ListedResource}
    (client : deployer.configured .cloudFormation = true)
    (template : deployer.lookups.template request.stackName = .ends first (.ok none))
    (listed : deployer.lookups.resources request.stackName = .ends second (.ok resources)) :
    (deployer.plan levels request).plan = .ends (max first second) (.ok none) := by
  rw [plan_eq client]
  simp [loaded, Stack.load, Stack.loadDeployed, template, listed, Timed.both, Timed.map,
    Timed.andThen, Timed.now]

end Deployer

end StackSwap
