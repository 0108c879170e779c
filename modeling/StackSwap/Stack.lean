import StackSwap.Listing
import StackSwap.Template.References

namespace StackSwap

/-- One level of a stack tree: the name of the deployed stack, if there is one, the deployed and
the newly generated template, the deployed resources, and the nested stacks whose templates are
known, in order of the logical IDs of their resources. -/
structure Stack where
  name : Option String
  deployed : Template
  generated : Template
  listing : Listing
  nested : List (String × Stack)
deriving Inhabited

namespace Stack

def isDeployed (stack : Stack) : Bool := stack.name.isSome

/-- The stack that is loaded for a nested stack resource. -/
def nested? (stack : Stack) (logicalId : String) : Option Stack :=
  Entries.find? stack.nested logicalId

mutual

/-- Whether a generated template of the tree uses an intrinsic function. -/
def usesFunction (function : String) : Stack → Bool
  | ⟨_, _, generated, _, nested⟩ => generated.usesFunction function || nestedUse function nested
termination_by structural stack => stack

/-- Whether a template below one of these nested stacks uses an intrinsic function. -/
def nestedUse (function : String) : List (String × Stack) → Bool
  | [] => false
  | (_, stack) :: rest => stack.usesFunction function || nestedUse function rest
termination_by structural nested => nested

end

mutual

/-- How often a chain of references can go on, from an output to another or into a nested stack,
before it has come back to where it was. -/
def referenceBudget : Stack → Nat
  | ⟨_, _, generated, _, nested⟩ => generated.outputs.size + nestedBudget nested + 1
termination_by structural stack => stack

/-- The budget of a list of nested stacks; entering one of them counts too. -/
def nestedBudget : List (String × Stack) → Nat
  | [] => 0
  | (_, stack) :: rest => referenceBudget stack + 1 + nestedBudget rest
termination_by structural nested => nested

end

end Stack

end StackSwap
