import StackSwap.Json.Printer

namespace StackSwap

/-- What is wrong with the arguments of a function, or with a value that a property requires. -/
inductive ArgumentFault where
  | notLogicalId
  | notLogicalIdAndAttribute
  | notDelimiterAndValues
  | delimiterNotString
  | valuesNotStrings
  | notDelimiterAndString
  | notIndexAndValues
  | badIndex (index : Json)
  | indexOutOfBounds (index count : Nat)
  | notBodyAndVariables
  | placeholderNotString (token : String)
  | notExportName
  | notString (value : Json)
  | notNestedParameters (value : Json)
  | noRuntime
  | variablesNotObject (value : Json)
  | variableNotString (name : String)
  | aliasWithoutName (logicalId : String)
deriving Repr, Inhabited

namespace ArgumentFault

/-- The function or property that refuses its arguments. -/
def function : ArgumentFault → String
  | .notLogicalId => "Ref"
  | .notLogicalIdAndAttribute => "Fn::GetAtt"
  | .notDelimiterAndValues | .delimiterNotString | .valuesNotStrings => "Fn::Join"
  | .notDelimiterAndString => "Fn::Split"
  | .notIndexAndValues | .badIndex _ | .indexOutOfBounds _ _ => "Fn::Select"
  | .notBodyAndVariables | .placeholderNotString _ => "Fn::Sub"
  | .notExportName => "Fn::ImportValue"
  | .notString _ => "expression"
  | .notNestedParameters _ => "Parameters"
  | .noRuntime => "Code.ZipFile"
  | .variablesNotObject _ | .variableNotString _ => "Environment"
  | .aliasWithoutName _ => "Name"

/-- What is expected instead. -/
def reason : ArgumentFault → String
  | .notLogicalId => "expected a logical ID"
  | .notLogicalIdAndAttribute => "expected [LogicalId, Attribute]"
  | .notDelimiterAndValues => "expected [delimiter, [values]]"
  | .delimiterNotString => "delimiter must be a string"
  | .valuesNotStrings => "values must be strings"
  | .notDelimiterAndString => "expected [delimiter, string]"
  | .notIndexAndValues => "expected [index, [values]]"
  | .badIndex index => "index " ++ index.render ++ " is not a non-negative integer"
  | .indexOutOfBounds index count =>
    "index " ++ toString index ++ " is out of bounds for " ++ toString count ++ " values"
  | .notBodyAndVariables => "expected a string or [string, \x7bvariables\x7d]"
  | .placeholderNotString token => "placeholder '" ++ token ++ "' does not resolve to a string"
  | .notExportName => "expected an export name"
  | .notString value => "expected a string, got " ++ value.render
  | .notNestedParameters value =>
    "expected an object of nested stack parameters, got " ++ value.render
  | .noRuntime => "inline code requires a Runtime"
  | .variablesNotObject value => "Variables must be an object, got " ++ value.render
  | .variableNotString name => "variable '" ++ name ++ "' is not a string"
  | .aliasWithoutName logicalId => "alias '" ++ logicalId ++ "' has no Name"

end ArgumentFault

/-- Why an expression has no value. `endless` is no answer of the template's: it says that a chain
of references from output to output was still going on when the budget for it ran out. -/
inductive EvaluationError where
  | refNotFound (name : String)
  | attributeNotFound (logicalId name : String)
  | unsupportedResourceType (type : String)
  | unsupportedAttribute (name type : String)
  | unsupportedFunction (name : String)
  | exportNotFound (name : String)
  | invalidArguments (fault : ArgumentFault)
  | unsupportedInlineRuntime (runtime : String)
  | endless
deriving Repr, Inhabited

namespace EvaluationError

/-- Where gaps in the attribute rules are to be reported. -/
def reportHint : String :=
  "This is a CDK limitation. Please report it at https://github.com/aws/aws-cdk/issues/new/choose"

def message : EvaluationError → String
  | .refNotFound name => "Parameter or resource '" ++ name ++ "' could not be found for evaluation"
  | .attributeNotFound logicalId name =>
    "Attribute '" ++ name ++ "' of resource '" ++ logicalId ++
      "' could not be found for evaluation"
  | .unsupportedResourceType type =>
    "We don't support attributes of the '" ++ type ++ "' resource. " ++ reportHint
  | .unsupportedAttribute name type =>
    "We don't support the '" ++ name ++ "' attribute of the '" ++ type ++ "' resource. " ++
      reportHint
  | .unsupportedFunction name => "CloudFormation function " ++ name ++ " is not supported"
  | .exportNotFound name => "Export '" ++ name ++ "' could not be found for evaluation"
  | .invalidArguments fault => "Invalid arguments to " ++ fault.function ++ ": " ++ fault.reason
  | .unsupportedInlineRuntime runtime =>
    "runtime " ++ runtime ++ " is unsupported, only node.js and python runtimes are currently supported."
  | .endless => "the references of the template's outputs lead back to themselves"

end EvaluationError

abbrev Evaluated (α : Type) := Except EvaluationError α

end StackSwap
