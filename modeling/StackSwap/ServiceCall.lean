import StackSwap.Failure
import StackSwap.Operation

namespace StackSwap

inductive ServiceCall where
  | updateCode (update : CodeUpdate)
  | updateConfiguration (update : ConfigurationUpdate)
  | getConfiguration (functionName : String)
  | publishVersion (functionName : String)
  | updateAlias (functionName aliasName version : String)
  | updateProject (update : ProjectUpdate)
  | updateMachine (update : MachineUpdate)
deriving BEq, Repr, Inhabited

namespace ServiceCall

def apiName : ServiceCall → String
  | .updateCode _ => "UpdateFunctionCode"
  | .updateConfiguration _ => "UpdateFunctionConfiguration"
  | .getConfiguration _ => "GetFunctionConfiguration"
  | .publishVersion _ => "PublishVersion"
  | .updateAlias _ _ _ => "UpdateAlias"
  | .updateProject _ => "UpdateProject"
  | .updateMachine _ => "UpdateStateMachine"

/-- What the call is about: a function, an alias of a function, a project or a state machine. -/
def target : ServiceCall → String
  | .updateCode update => update.functionName
  | .updateConfiguration update => update.functionName
  | .getConfiguration functionName => functionName
  | .publishVersion functionName => functionName
  | .updateAlias functionName aliasName _ => functionName ++ "/" ++ aliasName
  | .updateProject update => update.name
  | .updateMachine update => update.arn

end ServiceCall

namespace Operation

def client (operation : Operation) : Client :=
  match operation.service with
  | .lambda => .lambda
  | .codeBuild => .codeBuild
  | .stepFunctions => .stepFunctions

/-- The call that the operation begins with. -/
def firstCall : Operation → ServiceCall
  | .updateCode update => .updateCode update
  | .updateConfiguration update => .updateConfiguration update
  | .publishVersion publish => .publishVersion publish.functionName
  | .updateProject update => .updateProject update
  | .updateMachine update => .updateMachine update

end Operation

inductive UpdateStatus where
  | successful
  | failed
  | inProgress
deriving DecidableEq, Repr, Inhabited

structure FunctionReport where
  vpcId : Option String := none
  packageType : Option String := none
  status : Option UpdateStatus := none
  reason : Option String := none
deriving DecidableEq, Repr, Inhabited

namespace FunctionReport

/-- Whether updates of the function take long: it is attached to a network or is an image. -/
def isSlow (report : FunctionReport) : Bool :=
  report.vpcId.any (fun id => !id.isEmpty) || report.packageType == some "Image"

end FunctionReport

/-- How the services behave. Each answer may depend on the calls that were started before, oldest
first, so every course of answers is the behaviour of some backend. -/
structure Backend where
  /-- how long a call takes -/
  delay : (earlier : List ServiceCall) → ServiceCall → Nat
  /-- whether and why a call fails -/
  failure? : (earlier : List ServiceCall) → ServiceCall → Option Failure
  /-- what a call about a function reports when it succeeds -/
  report : (earlier : List ServiceCall) → ServiceCall → FunctionReport
  /-- the version that a publication creates -/
  version : (earlier : List ServiceCall) → ServiceCall → String

/-- What the answer to a successful call may hold. -/
structure Answer where
  report : FunctionReport
  version : String
deriving DecidableEq, Repr, Inhabited

/-- How a call is answered: with its failure, or with what there is to say otherwise. -/
def Backend.answer (backend : Backend) (earlier : List ServiceCall) (call : ServiceCall) :
    Outcome Answer :=
  match backend.failure? earlier call with
  | some failure => .error failure
  | none => .ok ⟨backend.report earlier call, backend.version earlier call⟩

end StackSwap
