import StackSwap.Execution.Run
import StackSwap.Metric
import StackSwap.Stack.Loading

/-! An attempt plans and then applies the plan. Planning only looks things up; in fall-back mode a
change that cannot be swapped stops the attempt before any service is called. -/

namespace StackSwap

/-- What a deployer works with: which clients it has, how lookups and services behave, where the
templates of nested stacks come from, and its settings. -/
structure Deployer where
  configured : Client → Bool
  lookups : Lookups
  source : TemplateSource
  backend : Backend
  settings : Settings

/-- One attempt on a deployed stack. Parameters replace the current values of the stack, and
without a mode the settings have it. -/
structure Request where
  stackName : String
  template : Template
  parameters : Table String := .empty
  mode : Option Mode := none

/-- What an attempt that took the hotswap path did. -/
structure Hotswap where
  noOp : Bool
  resources : List String
deriving DecidableEq, Repr, Inhabited

namespace Hotswap

def nothing : Hotswap := ⟨true, []⟩

end Hotswap

namespace Deployer

/-- The planning of an attempt: how often exports were listed, and the plan, which is `none` if the
stack is not deployed. -/
structure Planning where
  exportListings : Nat
  plan : Timed (Option Plan)
deriving Inhabited

/-- The parameter values of a stack: the given ones, and its current ones for all other names. -/
def parameterValues (given current : Table String) : Table Json :=
  (current.overlay given).map Json.str

def planStack (settings : Settings) (stack : Stack) (parameters : Table Json)
    (exports : Table String) (mode : Mode) : Outcome Plan :=
  Plan.ofScope ⟨stack, parameters, settings.target.environment, exports⟩ mode

/-- Whether a lookup has failed at once, so that nothing is started beside it. -/
def failsAtOnce {α : Type} : Timed α → Bool
  | .ends 0 (.error _) => true
  | _ => false

/-- Plans a loaded stack tree. Exports are listed only if some template imports values. -/
def planLoaded (deployer : Deployer) (request : Request) (stack : Stack) : Planning :=
  let current := deployer.lookups.parameters request.stackName
  let imports := stack.usesFunction "Fn::ImportValue"
  let exports := if imports then deployer.lookups.exports else .now (.ok .empty)
  { exportListings := if imports && !failsAtOnce current then 1 else 0
    plan := (Timed.both current exports).andThen fun (current, exports) =>
      .now (some <$> planStack deployer.settings stack (parameterValues request.parameters current)
        exports (request.mode.getD deployer.settings.mode)) }

/-- Plans an attempt with a stack tree of at most so many levels. -/
def plan (deployer : Deployer) (levels : Nat) (request : Request) : Planning :=
  if deployer.configured .cloudFormation then
    let source := if deployer.configured .nestedTemplates then deployer.source else .none
    match Stack.load deployer.lookups source levels request.stackName request.template with
    | .never => ⟨0, .never⟩
    | .ends duration (.error failure) => ⟨0, .ends duration (.error failure)⟩
    | .ends duration (.ok none) => ⟨0, .ends duration (.ok none)⟩
    | .ends duration (.ok (some stack)) =>
      let planning := deployer.planLoaded request stack
      { planning with plan := (Timed.ends duration (.ok ())).andThen (fun _ => planning.plan) }
  else ⟨0, .now (.error (.clientNotConfigured .cloudFormation))⟩

/-- The course of applying a plan: the calls, the log, what was counted, the instant of the end,
and the result. Without an end the course was cut off. -/
structure Course where
  calls : List Execution.StartedCall := []
  log : List LogLine := []
  metrics : List Metric := []
  ended : Option (Nat × Outcome (Option Hotswap)) := none
deriving Inhabited

/-- What a plan has done when all its changes are applied. -/
def hotswapOf (plan : Plan) : Hotswap :=
  ⟨false, (plan.assessment.swaps.filter (fun change => !change.operations.isEmpty)).flatMap
    Swap.resourceNames⟩

/-- Applies a plan from an instant on, with at most so many steps, and nothing after `latest`. -/
def apply (deployer : Deployer) (latest : Option Nat) (steps : Nat) (now : Nat) (plan : Plan) :
    Course :=
  let log := plan.report
  let metrics := plan.assessment.blockers.map (fun blocker => Metric.blocked blocker.reason)
  if plan.requiresFullDeployment then { log, metrics, ended := some (now, .ok none) }
  else if plan.isNoOp then { log, metrics, ended := some (now, .ok (some .nothing)) }
  else
    let site : Execution.Site := ⟨deployer.configured, deployer.backend, deployer.settings⟩
    let final := Execution.run site latest steps now plan.assessment.swaps
    { calls := final.ledger.calls
      log := log ++ final.ledger.log
      metrics := metrics ++ final.ledger.applied.map Metric.operation
      ended := if final.isOver then
          some (final.now, (fun _ => some (hotswapOf plan)) <$> final.result)
        else none }

/-- How an attempt with this result ended. -/
def outcomeOf : Outcome (Option Hotswap) → AttemptOutcome
  | .ok (some hotswap) => if hotswap.noOp then .noOp else .hotswapped
  | .ok none => .fullDeployment
  | .error _ => .failed

/-- Plans and applies. The course begins at the instant zero; the number says how often exports
were listed. -/
def attempt (deployer : Deployer) (levels steps : Nat) (request : Request) : Nat × Course :=
  let planning := deployer.plan levels request
  let course : Course :=
    match planning.plan with
    | .never => {}
    | .ends duration (.error failure) => { ended := some (duration, .error failure) }
    | .ends duration (.ok none) => { ended := some (duration, .ok none) }
    | .ends duration (.ok (some plan)) => deployer.apply none steps duration plan
  let counted := match course.ended with
    | none => []
    | some (_, result) => [.outcome (outcomeOf result), .duration (outcomeOf result)]
  (planning.exportListings, { course with metrics := .attempt :: course.metrics ++ counted })

end Deployer

end StackSwap
