import StackSwap.Yaml.Layout
import StackSwap.Yaml.Node

namespace StackSwap.Yaml

namespace Directive

/-- Reads the directives in front of a document. A version has to be 1.1 or 1.2, and nothing may be
declared twice. -/
def declared? : (versions : Nat) → (handles : List (String × String)) → List Token →
    Option (List (String × String) × List Token)
  | versions, handles, .directive (.version major minor) :: rest =>
    if versions > 0 || major ≠ 1 || minor ≠ 1 && minor ≠ 2 then none
    else declared? (versions + 1) handles rest
  | versions, handles, .directive (.handle name standsFor) :: rest =>
    if (handles.lookup name).isSome then none
    else declared? versions ((name, standsFor) :: handles) rest
  | _, _, .directive .other :: _ => none
  | _, handles, tokens => some (handles ++ Tag.defaultHandles, tokens)

end Directive

namespace Node

/-- Reads documents that start with a marker, up to the end of the text. -/
def explicitDocuments? : (fuel : Nat) → List Token → Option (List Node)
  | 0, _ => none
  | fuel + 1, tokens => do
    let tokens := tokens.dropWhile (· == .documentEnd)
    if tokens.isEmpty then return []
    let (handles, tokens) ← Directive.declared? 0 [] tokens
    match tokens with
    | .documentStart :: tokens =>
      let (node, rest) ← Read.runOn? .v11 handles tokens Read.content
      return node :: (← explicitDocuments? fuel rest)
    | _ => none

/-- Reads all documents. The first one may start without a marker. -/
def documents? (text : String) : Option (List Node) := do
  let tokens ← Token.ofText? text
  match tokens with
  | [] | .directive _ :: _ | .documentStart :: _ => explicitDocuments? (tokens.length + 1) tokens
  | tokens =>
    let (node, rest) ← Read.runOn? .v11 Tag.defaultHandles tokens
      (fun fuel => Read.node fuel true false)
    return node :: (← explicitDocuments? (tokens.length + 1) rest)

end Node

end StackSwap.Yaml
