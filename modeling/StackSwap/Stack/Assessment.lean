import StackSwap.Template.Rename
import StackSwap.Verdict.Resource

/-! The assessment of a whole stack tree. A nested stack that both templates have is entered, changed
or not, if its template is known and it is deployed; its own change is then what its resources
changed. -/

namespace StackSwap

/-- The changes of a stack tree, each list in the order in which the tree is walked. -/
structure Assessment where
  swaps : List Swap := []
  blockers : List Blocker := []
deriving BEq, Repr, Inhabited

namespace Assessment

/-- Both lists of one assessment before those of another. -/
def append (first second : Assessment) : Assessment :=
  ⟨first.swaps ++ second.swaps, first.blockers ++ second.blockers⟩

instance : Append Assessment := ⟨append⟩

def ofVerdict : Verdict → Assessment
  | .swap change => { swaps := [change] }
  | .blocked blocker => { blockers := [blocker] }
  | .unchanged => {}

def ofBlocker (blocker : Blocker) : Assessment := { blockers := [blocker] }

def concat (parts : List Assessment) : Assessment :=
  parts.foldl append {}

/-- How many operations the changes have together. -/
def operationCount (assessment : Assessment) : Nat :=
  (assessment.swaps.flatMap (fun change => change.operations)).length

end Assessment

namespace Stack

/-- Whether a change is that of a nested stack which both templates have. -/
def isModifiedNestedStack (change : ResourceChange) : Bool :=
  change.kind == .modified && ResourceKind.ofType change.type == .nestedStack

/-- The logical IDs of the nested stacks that both templates have, in order. -/
def nestedInBoth (stack : Stack) : List String :=
  (stack.generated.resources.entries.filter (fun (logicalId, resource) =>
    resource.isNestedStack && (stack.deployed.resource? logicalId).any Resource.isNestedStack)).map
    Prod.fst

/-- The changed resources, without those that only got another logical ID. -/
def changes (stack : Stack) : List ResourceChange :=
  ResourceChange.withoutRenames (stack.deployed.resourceChanges stack.generated)

def assessOutputs (stack : Stack) : Assessment :=
  { blockers := (stack.deployed.changedOutputs stack.generated).map
      (fun name => { logicalId := name, type := "", reason := .outputChanged }) }

/-- The changed resources, except nested stacks that both templates have. -/
def assessResources (scope : Scope) : Evaluated Assessment := do
  let verdicts ← (scope.stack.changes.filter (fun change => !isModifiedNestedStack change)).mapM
    (Verdict.ofChange scope)
  return .concat (verdicts.map .ofVerdict)

/-- A nested stack that both templates have. `descend` assesses the loaded stack with a logical ID
for some parameter values. -/
def assessNested (scope : Scope) (descend : String → Table Json → Evaluated Assessment)
    (modified : List String) (logicalId : String) : Evaluated Assessment := do
  let block (reason : Reason) : Assessment :=
    .ofBlocker { logicalId, type := ResourceKind.nestedStackType, reason }
  match ← scope.nested? logicalId with
  | none => return if modified.contains logicalId then block .nestedTemplateUnavailable else {}
  | some child =>
    if child.stack.isDeployed then descend logicalId child.parameters
    else if modified.contains logicalId ||
        !child.stack.deployed.isUnchanged child.stack.generated then
      return block .newNestedStack
    else return {}

/-- One level of a tree, given how its nested stacks are assessed. -/
def assessLevel (scope : Scope) (descend : String → Table Json → Evaluated Assessment) :
    Evaluated Assessment := do
  let resources ← assessResources scope
  let modified := (scope.stack.changes.filter isModifiedNestedStack).map ResourceChange.logicalId
  let nested ← scope.stack.nestedInBoth.mapM (assessNested scope descend modified)
  return scope.stack.assessOutputs ++ resources ++ Assessment.concat nested

mutual

/-- The assessment of a stack tree for the parameter values of its root. -/
def assess (environment : Environment) (exports : Table String) :
    Stack → Table Json → Evaluated Assessment
  | ⟨name, deployed, generated, listing, nested⟩, parameters =>
    assessLevel ⟨⟨name, deployed, generated, listing, nested⟩, parameters, environment, exports⟩
      (fun logicalId parameters =>
        match Entries.find? (assessEach environment exports nested) logicalId with
        | some assessment => assessment parameters
        | none => .ok {})
termination_by structural stack => stack

/-- The assessments of nested stacks, each still waiting for its parameter values. -/
def assessEach (environment : Environment) (exports : Table String) :
    List (String × Stack) → List (String × (Table Json → Evaluated Assessment))
  | [] => []
  | (logicalId, stack) :: rest =>
    (logicalId, assess environment exports stack) :: assessEach environment exports rest
termination_by structural nested => nested

end

end Stack

namespace Scope

def assess (scope : Scope) : Evaluated Assessment :=
  scope.stack.assess scope.environment scope.exports scope.parameters

end Scope

end StackSwap
