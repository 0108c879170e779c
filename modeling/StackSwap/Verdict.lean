import StackSwap.Operation
import StackSwap.Stack.Scope
import StackSwap.Template.Delta

namespace StackSwap

/-- A change that is applied by service calls. The operations run in order; there may be none. -/
structure Swap where
  logicalId : String
  type : String
  service : Service
  resourceNames : List String := []
  changedProperties : List String := []
  operations : List Operation := []
deriving BEq, Repr, Inhabited

inductive Reason where
  | resourceCreated
  | resourceDestroyed
  | unsupportedResourceType
  | nonHotswappableProperties
  | tagsOnly
  | outputChanged
  | newNestedStack
  | nestedTemplateUnavailable
  | physicalNameUnknown
deriving DecidableEq, Repr, Inhabited

namespace Reason

def all : List Reason :=
  [.resourceCreated, .resourceDestroyed, .unsupportedResourceType, .nonHotswappableProperties,
    .tagsOnly, .outputChanged, .newNestedStack, .nestedTemplateUnavailable, .physicalNameUnknown]

def name : Reason → String
  | .resourceCreated => "resource-created"
  | .resourceDestroyed => "resource-destroyed"
  | .unsupportedResourceType => "unsupported-resource-type"
  | .nonHotswappableProperties => "non-hotswappable-properties"
  | .tagsOnly => "tags-only"
  | .outputChanged => "output-changed"
  | .newNestedStack => "new-nested-stack"
  | .nestedTemplateUnavailable => "nested-template-unavailable"
  | .physicalNameUnknown => "physical-name-unknown"

def ofName? (name : String) : Option Reason := all.find? (fun reason => reason.name == name)

end Reason

/-- A change that needs a full deployment. The logical ID of a changed output is its name, and its
type is empty. A change that is not `visible` is only reported when it stops the hotswap. -/
structure Blocker where
  logicalId : String
  type : String
  rejected : List String := []
  reason : Reason
  visible : Bool := true
deriving DecidableEq, Repr, Inhabited

namespace Blocker

def message (blocker : Blocker) : String :=
  match blocker.reason with
  | .resourceCreated => "resource '" ++ blocker.logicalId ++ "' was created by this deployment"
  | .resourceDestroyed => "resource '" ++ blocker.logicalId ++ "' was destroyed by this deployment"
  | .unsupportedResourceType => "This resource type is not supported for hotswap deployments"
  | .nonHotswappableProperties =>
    "resource properties '" ++ ",".intercalate blocker.rejected ++
      "' are not hotswappable on this resource type"
  | .tagsOnly => "Tags are not hotswappable"
  | .outputChanged => "output was changed"
  | .newNestedStack =>
    "physical name for " ++ ResourceKind.nestedStackType ++ " '" ++ blocker.logicalId ++
      "' could not be found in CloudFormation, so this is a newly created nested stack and " ++
      "cannot be hotswapped"
  | .nestedTemplateUnavailable =>
    "the template of nested stack '" ++ blocker.logicalId ++ "' could not be found"
  | .physicalNameUnknown =>
    "could not determine the physical name of resource '" ++ blocker.logicalId ++ "'"

end Blocker

inductive Verdict where
  | swap (change : Swap)
  | blocked (blocker : Blocker)
  | unchanged
deriving BEq, Repr, Inhabited

namespace Verdict

def block (change : ResourceChange) (reason : Reason) (rejected : List String := []) : Verdict :=
  .blocked { logicalId := change.logicalId, type := change.type, rejected, reason }

/-- A change of a service without any operation. -/
def idle (change : ResourceChange) (service : Service) : Verdict :=
  .swap { logicalId := change.logicalId, type := change.type, service }

/-- Goes on with the changed properties if all of them are allowed. Otherwise the others are
rejected, and `Tags` on its own has a reason of its own. -/
def ifAllowed (change : ResourceChange) (allowed : List String)
    (proceed : List String → Evaluated Verdict) : Evaluated Verdict :=
  let rejected := change.changedProperties.filter (fun name => !allowed.contains name)
  if rejected.isEmpty then proceed change.changedProperties
  else if rejected = ["Tags"] then .ok (block change .tagsOnly rejected)
  else .ok (block change .nonHotswappableProperties rejected)

end Verdict

end StackSwap
