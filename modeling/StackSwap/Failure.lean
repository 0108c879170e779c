import StackSwap.Expression.Error

namespace StackSwap

/-- How waiting for the update of a function can end without success. -/
inductive WaitEnd where
  | failure
  | timeout
deriving DecidableEq, Repr, Inhabited

namespace WaitEnd

/-- The name of the state in messages. -/
def name : WaitEnd → String
  | .failure => "FAILURE"
  | .timeout => "TIMEOUT"

end WaitEnd

/-- A client that an attempt may need. -/
inductive Client where
  | lambda
  | codeBuild
  | stepFunctions
  | cloudFormation
  | nestedTemplates
deriving DecidableEq, Repr, Inhabited

namespace Client

def name : Client → String
  | .lambda => "Lambda"
  | .codeBuild => "CodeBuild"
  | .stepFunctions => "Step Functions"
  | .cloudFormation => "CloudFormation"
  | .nestedTemplates => "nested template source"

end Client

inductive LoadFault where
  | noSources
  | extension (path : String)
  | missing (path : String)
  | unreadable (path : String)
  | environment
  | refused (reason : String)
  | source (name cause : String)
  | merge (name : String)
deriving DecidableEq, Repr, Inhabited

namespace LoadFault

def message : LoadFault → String
  | .noSources => "No settings sources specified"
  | .extension path =>
    "hotswap settings file '" ++ path ++ "' must end in .yaml, .yml, .toml or .json"
  | .missing path => "hotswap settings file '" ++ path ++ "' does not exist"
  | .unreadable path => "cannot read hotswap settings from '" ++ path ++ "'"
  | .environment => "Failed to load environment variables"
  | .refused reason => reason
  | .source name cause => "Failed to load source '" ++ name ++ "': " ++ cause
  | .merge name => "Failed to merge source '" ++ name ++ "'"

end LoadFault

inductive ValidationFault where
  | noConcurrency
  | delaysReversed (field : String)
  | noWait (field : String)
  | empty (field : String)
deriving DecidableEq, Repr, Inhabited

namespace ValidationFault

def message : ValidationFault → String
  | .noConcurrency => "concurrency.per_service: must be greater than 0"
  | .delaysReversed field => field ++ ": min_delay_secs must not exceed max_delay_secs"
  | .noWait field => field ++ ": max_wait_secs must be greater than 0"
  | .empty field => field ++ ": must not be empty"

end ValidationFault

inductive Failure where
  | evaluation (error : EvaluationError)
  | templateParse
  | api (operation message : String)
  | waiter (state : WaitEnd) (reason : Option String)
  | clientNotConfigured (client : Client)
  | nestedStack (logicalId message : String)
  | settingsLoad (fault : LoadFault)
  | settingsDeserialize
  | settingsValidation (fault : ValidationFault)
  | io (message : String)
deriving Repr, Inhabited

namespace Failure

def message : Failure → String
  | .evaluation error => error.message
  | .templateParse => "Failed to parse template"
  | .api operation message => operation ++ " failed: " ++ message
  | .waiter state reason =>
    "Resource is not in the expected state due to waiter status: " ++ state.name ++
      (match reason with
        | some reason => ". Reason: " ++ reason
        | none => "")
  | .clientNotConfigured client => "No " ++ client.name ++ " client configured"
  | .nestedStack logicalId message =>
    "Failed to load nested stack '" ++ logicalId ++ "': " ++ message
  | .settingsLoad fault => "Failed to load settings: " ++ fault.message
  | .settingsDeserialize => "Failed to deserialize settings"
  | .settingsValidation fault => "Settings validation failed: " ++ fault.message
  | .io message => "IO error: " ++ message

end Failure

/-- The outcome of a step of an attempt. -/
abbrev Outcome (α : Type) := Except Failure α

def Outcome.ofEvaluated {α : Type} : Evaluated α → Outcome α
  | .ok value => .ok value
  | .error error => .error (.evaluation error)

end StackSwap
