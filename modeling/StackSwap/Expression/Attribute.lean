import StackSwap.Environment
import StackSwap.Expression.Error
import StackSwap.Listing
import StackSwap.Text.Pieces

/-! Attributes that follow from the physical ID of a resource, without asking a service. A type
without any rule is told apart from a known type with an unknown attribute. -/

namespace StackSwap

/-- How an attribute is made from a physical ID. -/
inductive AttributeRule where
  /-- an ARN in which a colon stands before the physical ID -/
  | colonArn (service type : String)
  /-- an ARN in which a slash stands before the physical ID -/
  | slashArn (service type : String)
  /-- the ARN of an identity, which belongs to no region -/
  | identityArn (type : String)
  /-- the ARN of a bucket, which belongs to no region and account -/
  | bucketArn
  /-- the physical ID itself -/
  | physicalId
  /-- the n-th part of a physical ID that is cut at slashes -/
  | segment (index : Nat)
deriving DecidableEq, Repr, Inhabited

namespace AttributeRule

/-- The rules of a resource type, by attribute name. -/
def ofType? (type : String) : Option (Entries AttributeRule) :=
  match type with
  | "AWS::IAM::Role" => some [("Arn", identityArn "role")]
  | "AWS::IAM::User" => some [("Arn", identityArn "user")]
  | "AWS::IAM::Group" => some [("Arn", identityArn "group")]
  | "AWS::S3::Bucket" => some [("Arn", bucketArn)]
  | "AWS::Lambda::Function" => some [("Arn", colonArn "lambda" "function")]
  | "AWS::Events::EventBus" =>
    -- the name of an event bus is also what a reference to it gives
    some [("Arn", slashArn "events" "event-bus"), ("Name", physicalId)]
  | "AWS::DynamoDB::Table" => some [("Arn", slashArn "dynamodb" "table")]
  | "AWS::KMS::Key" => some [("Arn", slashArn "kms" "key")]
  -- their physical IDs are ARNs that end in `apis/<api>`, `…/functions/<id>`, `…/datasources/<name>`
  | "AWS::AppSync::GraphQLApi" => some [("ApiId", segment 1)]
  | "AWS::AppSync::FunctionConfiguration" => some [("FunctionId", segment 3)]
  | "AWS::AppSync::DataSource" => some [("Name", segment 3)]
  | _ => none

def text (environment : Environment) (physicalId : String) : AttributeRule → String
  | .colonArn service type =>
    ":".intercalate
      ["arn", environment.partition, service, environment.region, environment.account, type, physicalId]
  | .slashArn service type =>
    ":".intercalate
      ["arn", environment.partition, service, environment.region, environment.account,
        type ++ "/" ++ physicalId]
  | .identityArn type =>
    ":".intercalate
      ["arn", environment.partition, "iam", "", environment.account, type ++ "/" ++ physicalId]
  | .bucketArn => ":".intercalate ["arn", environment.partition, "s3", "", "", physicalId]
  | .physicalId => physicalId
  | .segment index => ((Text.split "/" physicalId)[index]?).getD ""

end AttributeRule

namespace ListedResource

def attributeText (resource : ListedResource) (environment : Environment) (name : String) :
    Evaluated String :=
  match AttributeRule.ofType? resource.type with
  | none => .error (.unsupportedResourceType resource.type)
  | some rules =>
    match rules.find? name with
    | none => .error (.unsupportedAttribute name resource.type)
    | some rule => .ok (rule.text environment resource.physicalId)

end ListedResource

end StackSwap
