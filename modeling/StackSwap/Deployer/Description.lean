import StackSwap.Deployer

namespace StackSwap

namespace Description

/-- A character inside quotation marks. -/
def escapedChar (char : Char) : List Char :=
  if char = '"' then ['\\', '"']
  else if char = '\\' then ['\\', '\\']
  else if char = '\t' then ['\\', 't']
  else if char = '\r' then ['\\', 'r']
  else if char = '\n' then ['\\', 'n']
  else if char = '\x00' then ['\\', '0']
  else if char.toNat < 0x20 || char.toNat = 0x7F then
    ['\\', 'u', '\x7b'] ++ Nat.toDigits 16 char.toNat ++ ['\x7d']
  else [char]

def quoted (text : String) : String :=
  String.ofList ('"' :: text.toList.flatMap escapedChar ++ ['"'])

/-- The parts of a structure behind its name. -/
def braced (name : String) (parts : List String) : String :=
  name ++ " \x7b " ++ ", ".intercalate parts ++ " \x7d"

/-- The parts that show fields. -/
def fieldTexts (fields : List (String × String)) : List String :=
  fields.map (fun field => field.1 ++ ": " ++ field.2)

def structureText (name : String) (fields : List (String × String)) : String :=
  braced name (fieldTexts fields)

/-- A named structure of which only some fields are shown. -/
def partialText (name : String) (fields : List (String × String)) : String :=
  braced name (fieldTexts fields ++ [".."])

def boolText (value : Bool) : String := if value then "true" else "false"

def optionText (value : Option String) : String :=
  match value with
  | none => "None"
  | some text => "Some(" ++ text ++ ")"

end Description

open Description

/-- The name of a mode as a constructor. -/
def Mode.description : Mode → String
  | .fallBack => "FallBack"
  | .hotswapOnly => "HotswapOnly"

def TargetSettings.description (target : TargetSettings) : String :=
  structureText "EnvironmentSettings" [
    ("account", quoted target.account),
    ("region", quoted target.region),
    ("partition", quoted target.partition),
    ("url_suffix", optionText (target.urlSuffix.map quoted))]

def WaiterSettings.description (waiter : WaiterSettings) : String :=
  structureText "WaiterSettings" [
    ("min_delay_secs", toString waiter.minDelay),
    ("max_delay_secs", toString waiter.maxDelay),
    ("max_wait_secs", toString waiter.maxWait)]

def Settings.description (settings : Settings) : String :=
  structureText "HotswapSettings" [
    ("mode", settings.mode.description),
    ("environment", settings.target.description),
    ("concurrency", structureText "ConcurrencySettings" [("per_service", toString settings.perService)]),
    ("lambda_waiter", structureText "LambdaWaiterSettings" [
      ("standard", settings.standard.description), ("slow", settings.slow.description)])]

/-- Which clients there are, in one line. -/
def Client.descriptionOf (configured : Client → Bool) : String :=
  structureText "ServiceClients" [
    ("lambda", boolText (configured .lambda)),
    ("codebuild", boolText (configured .codeBuild)),
    ("stepfunctions", boolText (configured .stepFunctions)),
    ("cloudformation", boolText (configured .cloudFormation)),
    ("nested_templates", boolText (configured .nestedTemplates))]

def Deployer.description (deployer : Deployer) : String :=
  partialText "HotswapDeployer" [
    ("clients", Client.descriptionOf deployer.configured),
    ("settings", deployer.settings.description)]

def Metric.description : String := partialText "HotswapMetrics" []

end StackSwap
