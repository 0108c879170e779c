import StackSwap.Mode
import StackSwap.Settings
import StackSwap.Stack.Assessment

namespace StackSwap

/-- The assessed changes of one attempt, before anything is applied. -/
structure Plan where
  stackName : String
  mode : Mode
  assessment : Assessment
deriving BEq, Repr, Inhabited

inductive Severity where
  | info
  | warn
deriving DecidableEq, Repr, Inhabited

structure LogLine where
  severity : Severity
  message : String
deriving DecidableEq, Repr, Inhabited

namespace LogLine

def info (message : String) : LogLine := ⟨.info, message⟩

def warn (message : String) : LogLine := ⟨.warn, message⟩

/-- The line with its severity in front. -/
def text (line : LogLine) : String :=
  (match line.severity with
    | .info => "INFO "
    | .warn => "WARN ") ++ line.message

end LogLine

namespace Blocker

def reportLine (blocker : Blocker) : String :=
  "logicalID: '" ++ blocker.logicalId ++ "'" ++
    (if blocker.type.isEmpty then "" else ", Type: '" ++ blocker.type ++ "'" ++
      (if blocker.rejected.isEmpty then ""
        else ", rejected changes: '" ++ "','".intercalate blocker.rejected ++ "'")) ++
    ", reason: " ++ blocker.message

end Blocker

namespace Plan

/-- Whether a full deployment has to be made instead. -/
def requiresFullDeployment (plan : Plan) : Bool :=
  plan.mode == .fallBack && !plan.assessment.blockers.isEmpty

/-- Whether applying the plan calls no service. -/
def isNoOp (plan : Plan) : Bool := plan.assessment.operationCount == 0

/-- The plan for the stack tree of a scope. -/
def ofScope (scope : Scope) (mode : Mode) : Outcome Plan := do
  let assessment ← Outcome.ofEvaluated scope.assess
  return { stackName := scope.stack.name.getD "", mode, assessment }

def reportHeading (plan : Plan) : String :=
  match plan.mode with
  | .hotswapOnly =>
    "The following non-hotswappable changes were found. To reconcile these using " ++
      "CloudFormation, run the deployment with fall-back enabled"
  | .fallBack =>
    "Could not perform a hotswap deployment, as stack '" ++ plan.stackName ++
      "' contains non-hotswappable changes. Falling back to a full deployment"

/-- The report: a heading and a line for every blocker, as warnings in hotswap-only mode, where
hidden blockers are left out. There is no heading without lines. -/
def report (plan : Plan) : List LogLine :=
  let shown := plan.assessment.blockers.filter
    (fun blocker => plan.mode == .fallBack || blocker.visible)
  let severity : Severity :=
    match plan.mode with
    | .hotswapOnly => .warn
    | .fallBack => .info
  if shown.isEmpty then []
  else (plan.reportHeading :: shown.map Blocker.reportLine).map (LogLine.mk severity)

end Plan

end StackSwap
