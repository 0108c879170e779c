import StackSwap.Lookups

/-! Loading a stack tree. A nested stack is loaded if the source has its generated template. The
templates may contain one another, so the depth of a tree is bounded by a number of levels. -/

namespace StackSwap.Stack

/-- A failure below a nested stack, with the logical ID of the innermost stack it happened in. -/
def nestedFailure (logicalId : String) : Failure → Failure
  | .nestedStack inner message => .nestedStack inner message
  | failure => .nestedStack logicalId failure.message

/-- A deployed stack, or `none` if there is no stack of that name. Its nested stacks are not
loaded yet. -/
def loadDeployed (lookups : Lookups) (stackName : String) (generated : Template) :
    Timed (Option Stack) :=
  (Timed.both (lookups.template stackName) (lookups.resources stackName)).map
    fun (deployed, resources) => deployed.map fun deployed =>
      ⟨some stackName, deployed, generated, Listing.ofResources resources, []⟩

def notDeployed (generated : Template) : Stack := ⟨none, {}, generated, .empty, []⟩

/-- One level of a nested stack, without its own nested stacks. -/
def loadNestedLevel (lookups : Lookups) (physicalId : Option String) (generated : Template) :
    Timed Stack :=
  match physicalId with
  | none => .now (.ok (notDeployed generated))
  | some stackName =>
    (loadDeployed lookups stackName generated).map (fun stack => stack.getD (notDeployed generated))

/-- Loads the nested stacks of a level, down to so many levels. -/
def loadNested (lookups : Lookups) (source : TemplateSource) :
    (levels : Nat) → (generated : Template) → Listing → Timed (List (String × Stack))
  | 0, _, _ => .never
  | levels + 1, generated, listing =>
    let load (logicalId : String) (resource : Resource) : Timed (Option (String × Stack)) :=
      let wrap {α : Type} (timed : Timed α) : Timed α := timed.mapFailure (nestedFailure logicalId)
      (wrap (source (.ofResource logicalId resource))).andThen fun template =>
        match template with
        | none => .now (.ok none)
        | some template =>
          (wrap (loadNestedLevel lookups (listing.physicalId? logicalId) template)).andThen fun stack =>
            (loadNested lookups source levels stack.generated stack.listing).map fun nested =>
              some (logicalId, { stack with nested })
    let nestedResources := generated.resources.entries.filter
      (fun (_, resource) => resource.isNestedStack)
    (Timed.all (nestedResources.map (fun (logicalId, resource) => load logicalId resource))).map
      (fun children => children.filterMap id)

/-- Loads the tree of a deployed stack, or `none` if the stack does not exist. -/
def load (lookups : Lookups) (source : TemplateSource) (levels : Nat) (stackName : String)
    (generated : Template) : Timed (Option Stack) :=
  (loadDeployed lookups stackName generated).andThen fun stack =>
    match stack with
    | none => .now (.ok none)
    | some stack =>
      (loadNested lookups source levels stack.generated stack.listing).map fun nested =>
        some { stack with nested }

end StackSwap.Stack
