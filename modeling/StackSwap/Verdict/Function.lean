import StackSwap.Verdict

/-! Changes of Lambda functions, versions and aliases. If versions refer to a function a new one is
published after its updates; versions and aliases themselves follow their function. -/

namespace StackSwap

namespace Verdict.Function

def allowed : List String := ["Code", "Environment", "Description"]

/-- The extension of a source file for a runtime. -/
def extension (runtime : String) : Evaluated String :=
  if "node".toList.isPrefixOf runtime.toList then .ok "js"
  else if "python".toList.isPrefixOf runtime.toList then .ok "py"
  else .error (.unsupportedInlineRuntime runtime)

/-- The archive with the inline source as its one entry. -/
def archive (scope : Scope) (runtime : Option Json) (source : String) :
    Evaluated (List ArchiveEntry) := do
  let runtime ← scope.evaluateText (← Intrinsic.orRefuse .noRuntime runtime)
  return [⟨"index." ++ (← extension runtime), source⟩]

/-- Takes one key of the code property into an update; other keys are passed over. -/
def addCodeKey (scope : Scope) (runtime : Option Json) (update : CodeUpdate)
    (key : String) (expression : Json) : Evaluated CodeUpdate :=
  match key with
  | "S3Bucket" => do return { update with s3Bucket := some (← scope.evaluateText expression) }
  | "S3Key" => do return { update with s3Key := some (← scope.evaluateText expression) }
  | "S3ObjectVersion" => do
    return { update with s3ObjectVersion := some (← scope.evaluateText expression) }
  | "ImageUri" => do return { update with imageUri := some (← scope.evaluateText expression) }
  | "ZipFile" => do
    let source ← scope.evaluateText expression
    return { update with zipFile := some (← archive scope runtime source) }
  | _ => .ok update

/-- The code update of a function. A code property that is no object sets nothing. -/
def codeUpdate (scope : Scope) (change : ResourceChange) (functionName : String) :
    Evaluated CodeUpdate :=
  let code := ((change.newProperty? "Code").bind Json.fields?).getD []
  code.foldlM
    (fun update (key, expression) =>
      addCodeKey scope (change.newProperty? "Runtime") update key expression)
    { functionName }

/-- The environment variables of an evaluated environment property. -/
def environmentTexts (environment : Json) : Evaluated (Entries String) :=
  match environment.field? "Variables" with
  | none => .ok []
  | some (.obj fields) =>
    fields.mapM (fun (name, value) => do
      return (name, ← Intrinsic.orRefuse (.variableNotString name) value.scalarText?))
  | some other => Intrinsic.refuse (.variablesNotObject other)

/-- The configuration update of a function. What was removed is cleared. -/
def configurationUpdate (scope : Scope) (change : ResourceChange) (functionName : String)
    (changed : List String) : Evaluated ConfigurationUpdate := do
  let description ←
    if changed.contains "Description" then
      match change.newProperty? "Description" with
      | some expression => some <$> scope.evaluateText expression
      | none => pure (some "")
    else pure none
  let environment ←
    if changed.contains "Environment" then
      match change.newProperty? "Environment" with
      | some expression => do pure (some (← environmentTexts (← scope.evaluate expression)))
      | none => pure (some [])
    else pure none
  return { functionName, description, environment }

/-- The logical IDs of the versions that refer to a function. -/
def versionsOf (template : Template) (logicalId : String) : List String :=
  ((template.resourcesMentioning logicalId).filter
    (fun (_, resource) => resource.kind == .version)).map Prod.fst

/-- The aliases that refer to a version. -/
def aliasesOf (template : Template) (version : String) : Entries Resource :=
  (template.resourcesMentioning version).filter
    (fun (_, resource) => resource.kind == .aliasOfFunction)

def aliasName (scope : Scope) (logicalId : String) (resource : Resource) : Evaluated String := do
  scope.evaluateText
    (← Intrinsic.orRefuse (.aliasWithoutName logicalId) (resource.property? "Name"))

/-- The names of the aliases that refer to each of some versions in turn. -/
def aliasNames (scope : Scope) (versions : List String) : Evaluated (List String) :=
  (versions.flatMap (aliasesOf scope.template)).mapM
    (fun (logicalId, resource) => aliasName scope logicalId resource)

/-- How a function is called in reports. -/
def label (functionName : String) : String := "Lambda Function '" ++ functionName ++ "'"

/-- The publication that follows an update, and the names that it adds to reports. -/
def publication (scope : Scope) (logicalId functionName : String) :
    Evaluated (List String × List Operation) := do
  let versions := versionsOf scope.template logicalId
  if versions.isEmpty then return ([], [])
  let aliases ← aliasNames scope versions
  let names := ("Lambda Version for Function '" ++ functionName ++ "'") ::
    aliases.map (fun name => "Lambda Alias '" ++ name ++ "' for Function '" ++ functionName ++ "'")
  return (names, [.publishVersion { functionName, aliases }])

/-- The operations for the changed properties of a function. -/
def updates (scope : Scope) (change : ResourceChange) (functionName : String)
    (changed : List String) : Evaluated (List Operation) := do
  let code ←
    if changed.contains "Code" then do
      pure [Operation.updateCode (← codeUpdate scope change functionName)]
    else pure []
  let configuration ←
    if changed.contains "Description" || changed.contains "Environment" then do
      pure [Operation.updateConfiguration
        (← configurationUpdate scope change functionName changed)]
    else pure []
  return code ++ configuration

end Verdict.Function

namespace Verdict

def ofFunction (scope : Scope) (change : ResourceChange) : Evaluated Verdict :=
  ifAllowed change Function.allowed fun changed => do
    match ← scope.physicalName change.logicalId (change.newProperty? "FunctionName") with
    | none => return block change .physicalNameUnknown
    | some functionName =>
      let operations ← Function.updates scope change functionName changed
      let (names, publication) ← Function.publication scope change.logicalId functionName
      return .swap {
        logicalId := change.logicalId
        type := change.type
        service := .lambda
        resourceNames := Function.label functionName :: names
        changedProperties := changed
        operations := operations ++ publication }

def ofVersion (change : ResourceChange) : Evaluated Verdict := .ok (idle change .lambda)

def ofAlias (change : ResourceChange) : Evaluated Verdict :=
  ifAllowed change ["FunctionVersion"] fun _ => .ok (idle change .lambda)

end Verdict

end StackSwap
