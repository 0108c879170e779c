import StackSwap.Json

namespace StackSwap

structure Parameter where
  type : Option String := none
  default : Option Json := none
  description : Option String := none
deriving BEq, Repr, Inhabited

/-- A resource of a template. Metadata and dependencies are free values. -/
structure Resource where
  type : String
  properties : Table Json := .empty
  metadata : Option Json := none
  dependsOn : Option Json := none
deriving BEq, Inhabited

structure Output where
  value : Json
  description : Option String := none
  exported : Option Json := none
deriving BEq, Repr, Inhabited

/-- A template: its parameters, its resources by logical ID and its outputs by name. -/
structure Template where
  parameters : Table Parameter := .empty
  resources : Table Resource := .empty
  outputs : Table Output := .empty
deriving BEq, Inhabited

/-- The resource types that are treated one by one. -/
inductive ResourceKind where
  | function
  | version
  | aliasOfFunction
  | project
  | stateMachine
  | nestedStack
  | toolkitMetadata
  | other
deriving DecidableEq, Repr, Inhabited

namespace ResourceKind

/-- The kind of a resource type; the type name has to match exactly. -/
def ofType (type : String) : ResourceKind :=
  match type with
  | "AWS::Lambda::Function" => .function
  | "AWS::Lambda::Version" => .version
  | "AWS::Lambda::Alias" => .aliasOfFunction
  | "AWS::CodeBuild::Project" => .project
  | "AWS::StepFunctions::StateMachine" => .stateMachine
  | "AWS::CloudFormation::Stack" => .nestedStack
  | "AWS::CDK::Metadata" => .toolkitMetadata
  | _ => .other

def nestedStackType : String := "AWS::CloudFormation::Stack"

end ResourceKind

namespace Resource

def property? (resource : Resource) (name : String) : Option Json :=
  resource.properties.find? name

def kind (resource : Resource) : ResourceKind := .ofType resource.type

def isNestedStack (resource : Resource) : Bool := resource.kind == .nestedStack

/-- The metadata key under which the local path of a nested template is recorded. -/
def assetPathKey : String := "aws:asset:path"

/-- The recorded local path of the template of a nested stack. -/
def assetPath? (resource : Resource) : Option String :=
  (resource.metadata.bind (·.field? assetPathKey)).bind Json.str?

end Resource

namespace Template

def resource? (template : Template) (logicalId : String) : Option Resource :=
  template.resources.find? logicalId

def property? (template : Template) (logicalId name : String) : Option Json :=
  (template.resource? logicalId).bind (·.property? name)

end Template

/-- Where the template of a nested stack can be found. -/
structure TemplateLocation where
  logicalId : String
  assetPath : Option String
  templateUrl : Option String
deriving DecidableEq, Repr, Inhabited

namespace TemplateLocation

/-- The location that a nested stack resource names: a recorded path, and a literal URL. -/
def ofResource (logicalId : String) (resource : Resource) : TemplateLocation :=
  { logicalId
    assetPath := resource.assetPath?
    templateUrl := (resource.property? "TemplateURL").bind Json.str? }

/-- The key under which the template is looked up: the path, else the URL. -/
def key? (location : TemplateLocation) : Option String :=
  location.assetPath.or location.templateUrl

end TemplateLocation

end StackSwap
