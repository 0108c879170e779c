import StackSwap.Deployer.Description
import StackSwap.World

namespace StackSwap.Example

/-- The stack's template, with the key of the code of one function and the memory of the other. -/
def template (key : Json) (memory : Nat) : Json :=
  .ofPairs [
    ("Parameters", .ofPairs [("AssetKey", .ofPairs [("Type", .str "String")])]),
    ("Resources", .ofPairs [
      ("Handler", .ofPairs [
        ("Type", .str "AWS::Lambda::Function"),
        ("Properties", .ofPairs [
          ("Code", .ofPairs [
            ("S3Bucket", .ofPairs [("Fn::Sub", .str "assets-$\x7bAWS::AccountId\x7d")]),
            ("S3Key", key)]),
          ("FunctionName", .str "orders-handler")])]),
      ("Worker", .ofPairs [
        ("Type", .str "AWS::Lambda::Function"),
        ("Properties", .ofPairs [
          ("Code", .ofPairs [("S3Bucket", .str "assets"), ("S3Key", .str "worker.zip")]),
          ("FunctionName", .str "orders-worker"),
          ("MemorySize", .num (.int memory))])])])]

def world : World where
  deployed := .ofList [("orders", {
    template := template (.str "v1.zip") 128
    resources := [⟨"Handler", "AWS::Lambda::Function", "orders-handler"⟩,
      ⟨"Worker", "AWS::Lambda::Function", "orders-worker"⟩]
    parameters := .ofList [("AssetKey", "v1.zip")] })]

/-- The deployer, which has the two clients that the example needs. -/
def deployer : Deployer :=
  world.deployer .nowhere [Client.cloudFormation, .lambda].contains
    { target := { account := "123456789012", region := "eu-west-1" } }

/-- The line of a call of a service; polls are not shown. -/
def callLine? : ServiceCall → Option String
  | .updateCode update =>
    some ("  UpdateFunctionCode " ++ update.functionName ++ " -> s3://" ++
      Description.optionText (update.s3Bucket.map Description.quoted) ++ "/" ++
      Description.optionText (update.s3Key.map Description.quoted))
  | .updateConfiguration update => some ("  UpdateFunctionConfiguration " ++ update.functionName)
  | .publishVersion functionName => some ("  PublishVersion " ++ functionName)
  | .updateAlias functionName aliasName version =>
    some ("  UpdateAlias " ++ functionName ++ ":" ++ aliasName ++ " -> " ++ version)
  | _ => none

def planLines (plan : Plan) : List String :=
  plan.assessment.swaps.map (fun change =>
    "hotswappable: " ++ change.logicalId ++ " (" ++ toString change.operations.length ++
      " operations)") ++
  plan.assessment.blockers.map (fun blocker =>
    "needs full deployment: " ++ blocker.logicalId ++ ": " ++ blocker.message)

def resultLines : Option Hotswap → List String
  | none => ["result: full deployment required", ""]
  | some hotswap =>
    if hotswap.noOp then ["result: nothing to do", ""]
    else
      ["result: hotswapped [" ++
        ", ".intercalate (hotswap.resources.map Description.quoted) ++ "]", ""]

/-- The lines of planning and applying in one mode. -/
def modeLines (mode : Mode) : Outcome (List String) := do
  let generated ← match Template.ofJson? (template (.ofPairs [("Ref", .str "AssetKey")]) 256) with
    | some generated => .ok generated
    | none => .error .templateParse
  let request : Request :=
    { stackName := "orders", template := generated
      parameters := .ofList [("AssetKey", "v2.zip")], mode := some mode }
  let heading := "--- Mode: " ++ mode.name ++ " ---"
  match (deployer.plan (world.levelBudget .nowhere) request).plan with
  | .never => return [heading]
  | .ends _ planned =>
    match ← planned with
    | none => return [heading, "stack is not deployed"]
    | some plan =>
      let course := deployer.apply none 1000 0 plan
      let calls := course.calls.filterMap (fun started => callLine? started.call)
      let result ← match course.ended with
        | some (_, result) => resultLines <$> result
        | none => .ok []
      return heading :: planLines plan ++ calls ++ result

def lines : Outcome (List String) := do
  let parts ← [Mode.fallBack, .hotswapOnly].mapM modeLines
  return "=== Hotswap Planning Example ===" :: "" :: parts.flatten

end StackSwap.Example
