import StackSwap.Environment
import StackSwap.Failure
import StackSwap.Mode
import StackSwap.Text.Blank

namespace StackSwap

/-- Where the stacks are deployed. Without a URL suffix that of the partition holds. -/
structure TargetSettings where
  account : String := ""
  region : String := ""
  partition : String := "aws"
  urlSuffix : Option String := none
deriving DecidableEq, Repr, Inhabited

/-- A schedule for polling a function, in seconds. -/
structure WaiterSettings where
  minDelay : Nat
  maxDelay : Nat
  maxWait : Nat
deriving DecidableEq, Repr, Inhabited

/-- The settings of a deployer: the mode of requests that name none, the target, how many changes
of one service may be in flight, and the schedules for ordinary and for slow functions. -/
structure Settings where
  mode : Mode := .fallBack
  target : TargetSettings := {}
  perService : Nat := 10
  standard : WaiterSettings := ⟨1, 1, 60⟩
  slow : WaiterSettings := ⟨5, 5, 300⟩
deriving DecidableEq, Repr, Inhabited

namespace TargetSettings

def environment (target : TargetSettings) : Environment :=
  let base := Environment.inPartition target.account target.region target.partition
  match target.urlSuffix with
  | some suffix => { base with urlSuffix := suffix }
  | none => base

/-- Refuses blank texts, which would go into pseudo parameters and ARNs. -/
def validate (target : TargetSettings) : Except ValidationFault Unit := do
  if Text.isAllBlank target.account then throw (.empty "environment.account")
  if Text.isAllBlank target.region then throw (.empty "environment.region")
  if Text.isAllBlank target.partition then throw (.empty "environment.partition")

end TargetSettings

namespace WaiterSettings

/-- Refuses a schedule whose delays are in the wrong order or that does not wait at all. -/
def validate (waiter : WaiterSettings) (field : String) : Except ValidationFault Unit := do
  if waiter.minDelay > waiter.maxDelay then throw (.delaysReversed field)
  if waiter.maxWait = 0 then throw (.noWait field)

end WaiterSettings

namespace Settings

/-- The first fault of the settings: of the limit, the schedules, and then the target. -/
def validationFault (settings : Settings) : Except ValidationFault Unit := do
  if settings.perService = 0 then throw .noConcurrency
  settings.standard.validate "lambda_waiter.standard"
  settings.slow.validate "lambda_waiter.slow"
  settings.target.validate

def validate (settings : Settings) : Outcome Unit :=
  match settings.validationFault with
  | .ok _ => .ok ()
  | .error fault => .error (.settingsValidation fault)

end Settings

end StackSwap
