import StackSwap.Deployer
import StackSwap.FileTree
import StackSwap.Template.Text

namespace StackSwap

/-- A deployed stack of a world. Its template is decoded only when it is looked up. -/
structure WorldStack where
  template : Json
  resources : List ListedResource
  parameters : Table String
deriving Inhabited

/-- A function of a world: what is reported about it, and the states that its polls report one
after the other, the last one for ever. -/
structure WorldFunction where
  vpcId : Option String := none
  packageType : Option String := none
  statuses : List (Option UpdateStatus) := []
  reason : Option String := none
deriving Inhabited

/-- Where a world has the templates of nested stacks. -/
inductive WorldTemplates where
  | nowhere
  | table (templates : Table Template)
  | files (tree : FileTree)
deriving Inhabited

/-- A scripted world. Delays and failures are given by call and target; `published` counts the
versions of each function that were published before. -/
structure World where
  deployed : Table WorldStack := .empty
  exports : Table String := .empty
  functions : Table WorldFunction := .empty
  delays : Table Nat := .empty
  failures : Table String := .empty
  published : Table Nat := .empty
deriving Inhabited

namespace World

/-- The key of a call in the tables of delays and failures. -/
def key (apiName target : String) : String := apiName ++ ":" ++ target

def delay (world : World) (apiName target : String) : Nat :=
  (world.delays.find? (key apiName target)).getD 0

def failure? (world : World) (apiName target : String) : Option Failure :=
  (world.failures.find? (key apiName target)).map (Failure.api apiName)

/-- A lookup, with its delay and its failure. -/
def lookup {α : Type} (world : World) (apiName target : String) (result : Outcome α) : Timed α :=
  .ends (world.delay apiName target)
    (match world.failure? apiName target with
      | some failure => .error failure
      | none => result)

def template (world : World) (stackName : String) : Outcome (Option Template) :=
  match world.deployed.find? stackName with
  | none => .ok none
  | some stack =>
    match stack.template with
    | .null => .ok (some {})
    | value =>
      match Template.ofJson? value with
      | some template => .ok (some template)
      | none => .error .templateParse

def lookups (world : World) : Lookups where
  template stackName := world.lookup "GetTemplate" stackName (world.template stackName)
  resources stackName := world.lookup "ListStackResources" stackName
    (.ok (((world.deployed.find? stackName).map WorldStack.resources).getD []))
  parameters stackName := world.lookup "DescribeStacks" stackName
    (.ok (((world.deployed.find? stackName).map WorldStack.parameters).getD .empty))
  exports := world.lookup "ListExports" "" (.ok world.exports)

/-- The state that a poll reports after so many polls. -/
def statusAfter (function : WorldFunction) (polls : Nat) : Option UpdateStatus :=
  match function.statuses[polls]? with
  | some status => status
  | none => (function.statuses.getLast?).getD none

/-- What a call about a function reports; only polls report a state. -/
def report (world : World) (earlier : List ServiceCall) (call : ServiceCall) : FunctionReport :=
  let function := (world.functions.find? call.target).getD {}
  let status :=
    match call with
    | .getConfiguration _ => statusAfter function (earlier.count call)
    | _ => none
  { vpcId := function.vpcId, packageType := function.packageType, status, reason := function.reason }

/-- The version that a publication creates; the first one is the second version. -/
def version (world : World) (earlier : List ServiceCall) (call : ServiceCall) : String :=
  toString ((world.published.find? call.target).getD 0 + earlier.count call + 2)

def backend (world : World) : Backend where
  delay _ call := world.delay call.apiName call.target
  failure? _ call := world.failure? call.apiName call.target
  report := world.report
  version := world.version

/-- The world after some calls: it remembers the versions that were published. -/
def afterCalls (world : World) (calls : List ServiceCall) : World :=
  calls.foldl
    (fun world call =>
      match call with
      | .publishVersion functionName =>
        if (world.failure? call.apiName call.target).isSome then world
        else { world with published :=
          world.published.insert functionName ((world.published.find? functionName).getD 0 + 1) }
      | _ => world)
    world

end World

namespace WorldTemplates

/-- The path of an asset below the root, as it is written in messages. -/
def assetFile (path : String) : String :=
  if "/".toList.isPrefixOf path.toList then path else "./" ++ path

/-- Reads the template of a nested stack from its asset file, if it names one that is there. -/
def readFile (tree : FileTree) (location : TemplateLocation) : Outcome (Option Template) :=
  match location.assetPath with
  | none => .ok none
  | some path =>
    match tree.lookup path with
    | .absent => .ok none
    | .isDirectory => .error (.io "Is a directory (os error 21)")
    | .notDirectory => .error (.io "Not a directory (os error 20)")
    | .nameTooLong => .error (.io "File name too long (os error 36)")
    | .badName => .error (.io "file name contained an unexpected NUL byte")
    | .found body =>
      match Template.parse? body with
      | some template => .ok (some template)
      | none =>
        .error (.nestedStack location.logicalId
          (assetFile path ++ ": " ++ Failure.message .templateParse))

def source : WorldTemplates → TemplateSource
  | .nowhere => TemplateSource.none
  | .table templates => .ofTable templates
  | .files tree => fun location => .now (readFile tree location)

def isConfigured : WorldTemplates → Bool
  | .nowhere => false
  | _ => true

def size : WorldTemplates → Nat
  | .nowhere => 0
  | .table templates => templates.size
  | .files tree => tree.nodes.length

end WorldTemplates

namespace World

/-- How deep a tree can be before some template stands below itself for the same stack. -/
def levelBudget (world : World) (templates : WorldTemplates) : Nat :=
  (templates.size + 1) * (world.deployed.size + 2) + 1

def deployer (world : World) (templates : WorldTemplates) (configured : Client → Bool)
    (settings : Settings) : Deployer where
  configured := configured
  lookups := world.lookups
  source := templates.source
  backend := world.backend
  settings := settings

end World

end StackSwap
