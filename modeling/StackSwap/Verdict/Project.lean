import StackSwap.Text.Lowercase
import StackSwap.Verdict

namespace StackSwap

namespace Json

mutual

/-- Renames every key inside a value. Where two keys become one, the later value stays. -/
def renameKeys (rename : String → String) : Json → Json
  | .arr items => .arr (renameItems rename items)
  | .obj fields => .ofPairs (renameFields rename fields)
  | scalar => scalar
termination_by structural value => value

/-- Renames the keys inside every item. -/
def renameItems (rename : String → String) : List Json → List Json
  | [] => []
  | item :: rest => renameKeys rename item :: renameItems rename rest
termination_by structural items => items

/-- Renames the keys of fields, and those inside their values. -/
def renameFields (rename : String → String) : List (String × Json) → List (String × Json)
  | [] => []
  | (key, value) :: rest => (rename key, renameKeys rename value) :: renameFields rename rest
termination_by structural fields => fields

end

end Json

namespace Verdict.Project

def allowed : List String := ["Source", "Environment", "SourceVersion"]

/-- The key with a small first letter. -/
def smallFirst (key : String) : String :=
  match key.toList with
  | [] => ""
  | first :: rest => String.ofList (Text.lowercase first ++ rest)

/-- A key of the source structure; the build specification is one word there. -/
def sourceKey (key : String) : String :=
  let small := String.ofList (key.toList.map Char.toLower)
  if small = "buildspec" then small else smallFirst key

/-- Takes one changed property into an update. -/
def addProperty (scope : Scope) (change : ResourceChange) (update : ProjectUpdate)
    (property : String) : Evaluated ProjectUpdate :=
  match property, change.newProperty? property with
  | "Source", some expression => do
    return { update with source := some ((← scope.evaluate expression).renameKeys sourceKey) }
  | "Environment", some expression => do
    return { update with environment := some ((← scope.evaluate expression).renameKeys smallFirst) }
  | "SourceVersion", some expression => do
    return { update with sourceVersion := some (← scope.evaluateText expression) }
  | _, _ => .ok update

end Verdict.Project

def Verdict.ofProject (scope : Scope) (change : ResourceChange) : Evaluated Verdict :=
  ifAllowed change Project.allowed fun changed => do
    let removed := changed.filter (fun property => (change.newProperty? property).isNone)
    if ¬ removed.isEmpty then return block change .nonHotswappableProperties removed
    match ← scope.physicalName change.logicalId (change.newProperty? "Name") with
    | none => return block change .physicalNameUnknown
    | some name =>
      let update ← changed.foldlM (Project.addProperty scope change) { name }
      return .swap {
        logicalId := change.logicalId
        type := change.type
        service := .codeBuild
        resourceNames := ["CodeBuild Project '" ++ name ++ "'"]
        changedProperties := changed
        operations := [.updateProject update] }

end StackSwap
