import StackSwap.Operation
import StackSwap.Verdict

namespace StackSwap

inductive AttemptOutcome where
  | hotswapped
  | noOp
  | fullDeployment
  | failed
deriving DecidableEq, Repr, Inhabited

namespace AttemptOutcome

def name : AttemptOutcome → String
  | .hotswapped => "hotswapped"
  | .noOp => "no-op"
  | .fullDeployment => "full-deployment"
  | .failed => "failed"

end AttemptOutcome

inductive Metric where
  | attempt
  | outcome (ended : AttemptOutcome)
  | duration (ended : AttemptOutcome)
  | operation (service : Service)
  | blocked (reason : Reason)
deriving DecidableEq, Repr, Inhabited

namespace Metric

def instrument : Metric → String
  | .attempt => "cfn_hotswap.attempts"
  | .outcome _ => "cfn_hotswap.outcomes"
  | .duration _ => "cfn_hotswap.attempt.duration"
  | .operation _ => "cfn_hotswap.operations"
  | .blocked _ => "cfn_hotswap.non_hotswappable"

def attributeText : Metric → String
  | .attempt => ""
  | .outcome ended => "outcome=" ++ ended.name
  | .duration ended => "outcome=" ++ ended.name
  | .operation service => "service=" ++ service.name
  | .blocked reason => "reason=" ++ reason.name

/-- The instrument with its attributes in braces. -/
def series (metric : Metric) : String :=
  metric.instrument ++ "\x7b" ++ metric.attributeText ++ "\x7d"

/-- How often each series was counted. -/
def totals (metrics : List Metric) : Table Nat :=
  metrics.foldl
    (fun table metric => table.insert metric.series ((table.find? metric.series).getD 0 + 1))
    .empty

end Metric

end StackSwap
