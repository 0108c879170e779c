import StackSwap.Verdict.Function
import StackSwap.Verdict.Machine
import StackSwap.Verdict.Project

namespace StackSwap

namespace Verdict

/-- The verdict on a resource that only the old template has. Nested stacks are removed silently
in a hotswap that ignores what it cannot apply. -/
def ofRemoved (change : ResourceChange) : Verdict :=
  .blocked {
    logicalId := change.logicalId
    type := change.type
    reason := .resourceDestroyed
    visible := ResourceKind.ofType change.type != .nestedStack }

def ofModified (scope : Scope) (change : ResourceChange) : Evaluated Verdict :=
  match ResourceKind.ofType change.type with
  | .function => ofFunction scope change
  | .version => ofVersion change
  | .aliasOfFunction => ofAlias change
  | .project => ofProject scope change
  | .stateMachine => ofMachine scope change
  | .nestedStack | .toolkitMetadata | .other => .ok (block change .unsupportedResourceType)

/-- The verdict on a changed resource. The metadata of the toolkit never counts, and neither does
a modification that leaves the properties alone. -/
def ofChange (scope : Scope) (change : ResourceChange) : Evaluated Verdict :=
  if ResourceKind.ofType change.type = .toolkitMetadata then .ok .unchanged
  else match change.kind with
    | .added => .ok (block change .resourceCreated)
    | .removed => .ok (ofRemoved change)
    | .modified => if change.hasPropertyChanges then ofModified scope change else .ok .unchanged

end Verdict

end StackSwap
