import StackSwap.Json

namespace StackSwap

/-- A service that is called. Limits on what is in flight hold for each service by itself. -/
inductive Service where
  | lambda
  | codeBuild
  | stepFunctions
deriving DecidableEq, Repr, Inhabited

namespace Service

/-- The services in the order in which their changes are started. -/
def all : List Service := [.lambda, .codeBuild, .stepFunctions]

def name : Service → String
  | .lambda => "lambda"
  | .codeBuild => "codebuild"
  | .stepFunctions => "stepfunctions"

def ofName? (name : String) : Option Service := all.find? (fun service => service.name == name)

end Service

structure ArchiveEntry where
  name : String
  content : String
deriving DecidableEq, Repr, Inhabited

/-- New code of a function: a package in a bucket, a container image or an archive of inline
code. -/
structure CodeUpdate where
  functionName : String
  s3Bucket : Option String := none
  s3Key : Option String := none
  s3ObjectVersion : Option String := none
  imageUri : Option String := none
  zipFile : Option (List ArchiveEntry) := none
deriving DecidableEq, Repr, Inhabited

/-- New configuration of a function. An empty description and an empty environment clear what was
there. -/
structure ConfigurationUpdate where
  functionName : String
  description : Option String := none
  environment : Option (Entries String) := none
deriving DecidableEq, Repr, Inhabited

/-- A new version of a function, and the aliases that are moved to it. -/
structure VersionPublish where
  functionName : String
  aliases : List String
deriving DecidableEq, Repr, Inhabited

structure ProjectUpdate where
  name : String
  source : Option Json := none
  sourceVersion : Option String := none
  environment : Option Json := none
deriving BEq, Repr, Inhabited

structure MachineUpdate where
  arn : String
  definition : String
deriving DecidableEq, Repr, Inhabited

/-- A service call that applies a hotswap. A field that is `none` is not part of the call. -/
inductive Operation where
  | updateCode (update : CodeUpdate)
  | updateConfiguration (update : ConfigurationUpdate)
  | publishVersion (publish : VersionPublish)
  | updateProject (update : ProjectUpdate)
  | updateMachine (update : MachineUpdate)
deriving BEq, Repr, Inhabited

namespace Operation

def service : Operation → Service
  | .updateCode _ | .updateConfiguration _ | .publishVersion _ => .lambda
  | .updateProject _ => .codeBuild
  | .updateMachine _ => .stepFunctions

def apiName : Operation → String
  | .updateCode _ => "UpdateFunctionCode"
  | .updateConfiguration _ => "UpdateFunctionConfiguration"
  | .publishVersion _ => "PublishVersion"
  | .updateProject _ => "UpdateProject"
  | .updateMachine _ => "UpdateStateMachine"

end Operation

end StackSwap
