import StackSwap.Expression.Attribute
import StackSwap.Expression.Evaluate
import StackSwap.Stack

/-! What an expression of one stack level may refer to. Outputs are expressions themselves, so each
step to one takes one off a budget; a chain that uses up `Stack.referenceBudget` has come back to
itself. -/

namespace StackSwap

/-- The surroundings of the expressions of one stack level. -/
structure Scope where
  stack : Stack
  parameters : Table Json
  environment : Environment
  exports : Table String
deriving Inhabited

namespace Scope

def template (scope : Scope) : Template := scope.stack.generated

def listing (scope : Scope) : Listing := scope.stack.listing

/-- The value of a reference: a pseudo parameter, a parameter value, the declared default of a
parameter, or the physical ID of a deployed resource, whichever is found first. -/
def reference (scope : Scope) (name : String) : Evaluated Json :=
  match scope.environment.pseudoParameter? name with
  | some text => .ok (.str text)
  | none =>
    match scope.parameters.find? name with
    | some value => .ok value
    | none =>
      match (scope.template.parameters.find? name).bind Parameter.default with
      | some value => .ok value
      | none =>
        match scope.listing.physicalId? name with
        | some text => .ok (.str text)
        | none => .error (.refNotFound name)

def exportedValue (scope : Scope) (name : String) : Evaluated Json :=
  match scope.exports.find? name with
  | some text => .ok (.str text)
  | none => .error (.exportNotFound name)

/-- The resolver of a scope, given how attributes are found. -/
def resolverWith (scope : Scope) (attributeOf : String → String → Evaluated Json) : Resolver :=
  { reference := scope.reference, attributeOf, exportedValue := scope.exportedValue }

/-- The parameter values that a nested stack resource passes down. -/
def nestedParameters (scope : Scope) (resolver : Resolver) (logicalId : String) :
    Evaluated (Table Json) :=
  match scope.template.property? logicalId "Parameters" with
  | none => .ok .empty
  | some expression => do
    match ← expression.evaluate resolver with
    | .obj values => return .ofList values
    | other => Intrinsic.refuse (.notNestedParameters other)

def nestedWith? (scope : Scope) (resolver : Resolver) (logicalId : String) :
    Evaluated (Option Scope) :=
  match scope.stack.nested? logicalId with
  | none => .ok none
  | some stack => do
    let parameters ← scope.nestedParameters resolver logicalId
    return some { scope with stack, parameters }

/-- The name under which a stack's own outputs are attributes. -/
def outputsId : String := "Outputs"

/-- The value of an attribute. Attributes of `Outputs` are the stack's own outputs, attributes
`Outputs.…` of a nested stack are the outputs of that stack, and all others follow from the
physical ID of a deployed resource. -/
def attributeOf : (budget : Nat) → Scope → String → String → Evaluated Json
  | 0, _, _, _ => .error .endless
  | budget + 1, scope, logicalId, name =>
    let resolver := scope.resolverWith (attributeOf budget scope)
    if logicalId = outputsId then
      match scope.template.outputs.find? name with
      | none => .error (.attributeNotFound logicalId name)
      | some output => output.value.evaluate resolver
    else
      match scope.listing.find? logicalId with
      | none => .error (.attributeNotFound logicalId name)
      | some resource =>
        match Text.dropBeginning? "Outputs." name, ResourceKind.ofType resource.type with
        | some outputName, .nestedStack => do
          match ← scope.nestedWith? resolver logicalId with
          | none => .error (.attributeNotFound logicalId name)
          | some child =>
            if child.stack.isDeployed then attributeOf budget child outputsId outputName
            else .error (.attributeNotFound logicalId name)
        | _, _ => do return .str (← resource.attributeText scope.environment name)

def resolver (scope : Scope) : Resolver :=
  scope.resolverWith (attributeOf (scope.stack.referenceBudget + 1) scope)

def evaluate (scope : Scope) (expression : Json) : Evaluated Json :=
  expression.evaluate scope.resolver

/-- The text of the scalar that an expression stands for. -/
def evaluateText (scope : Scope) (expression : Json) : Evaluated String :=
  expression.evaluateText scope.resolver

def nested? (scope : Scope) (logicalId : String) : Evaluated (Option Scope) :=
  scope.nestedWith? scope.resolver logicalId

/-- The name of an actual resource: the string that its name expression stands for, or else its
physical ID. An expression without a value, or with another value than a string, is passed over. -/
def physicalName (scope : Scope) (logicalId : String) (expression : Option Json) :
    Evaluated (Option String) :=
  let listed := scope.listing.physicalId? logicalId
  match expression.map scope.evaluate with
  | some (.ok (.str name)) => .ok (some name)
  | some (.error .endless) => .error .endless
  | _ => .ok listed

end Scope

end StackSwap
